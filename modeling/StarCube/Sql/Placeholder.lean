import StarCube.Text.Quoted
import StarCube.Value

/-!
Placeholders of a statement. A question mark outside single-quoted literals is a placeholder;
binding gives the `i`-th one the name `:p<i>` and the `i`-th value.
-/

namespace StarCube

/-- The name of a bind. -/
def bindName (index : Nat) : String :=
  "p" ++ toString index

/-- A piece of a statement. -/
inductive SqlPiece where
  | other (c : Char)
  /-- A literal between quotes, with its body as written. -/
  | literal (body : List Char)
  | placeholder
deriving DecidableEq, Repr

namespace SqlPiece

/-- The text of a piece. -/
def chars : SqlPiece → List Char
  | .other c => [c]
  | .literal body => '\'' :: body ++ ['\'']
  | .placeholder => ['?']

/-- Splits a statement into its pieces. A quote that nothing closes is an ordinary character. -/
def split (text : List Char) : List SqlPiece :=
  match text with
  | [] => []
  | c :: rest =>
      if c = '\'' then
        match h : Text.closeQuoted '\'' (fun _ => false) rest with
        | some (body, after) =>
            have : after.length < rest.length := Text.closeQuoted_length h
            .literal body :: split after
        | none => .other c :: split rest
      else if c = '?' then .placeholder :: split rest
      else .other c :: split rest
termination_by text.length

/-- The pieces are the whole statement. -/
theorem split_flatMap_chars (text : List Char) : (split text).flatMap chars = text := by
  fun_induction split text with
  | case1 => rfl
  | case2 rest body after h _ ih =>
      simp [chars, ih, Text.closeQuoted_append h]
  | case3 rest _ ih => simp [chars, ih]
  | case4 rest _ ih => simp [chars, ih]
  | case5 c rest _ _ ih => simp [chars, ih]

/-- The text of pieces with the placeholders named from the `next`-th on. -/
def named (next : Nat) : List SqlPiece → List Char
  | [] => []
  | .placeholder :: rest => ':' :: ((bindName next).toList ++ named (next + 1) rest)
  | piece :: rest => piece.chars ++ named next rest

end SqlPiece

/-- The number of placeholders of a statement. -/
def placeholderCount (sql : String) : Nat :=
  (SqlPiece.split sql.toList).count .placeholder

/-- Placeholders and values that do not match in number. -/
inductive BindFault where
  | tooManyPlaceholders (values : Nat) (sql : String)
  | tooManyValues (placeholders values : Nat) (sql : String)
deriving DecidableEq, Repr

namespace BindFault

def message : BindFault → String
  | .tooManyPlaceholders values _ =>
      "Statement has more placeholders than the " ++ toString values ++ " parameters given"
  | .tooManyValues placeholders values _ =>
      "Statement has " ++ toString placeholders ++ " placeholders but " ++ toString values ++
        " parameters were given"

def sql : BindFault → String
  | .tooManyPlaceholders _ sql => sql
  | .tooManyValues _ _ sql => sql

end BindFault

/-- A statement with named binds, in the order of their placeholders. -/
structure BoundStatement where
  sql : String
  binds : List (String × Value)
deriving Repr

/-- Binds values to the placeholders of a statement, one each. -/
def bindPlaceholders (sql : String) (values : List Value) : Except BindFault BoundStatement :=
  let pieces := SqlPiece.split sql.toList
  let count := pieces.count .placeholder
  if values.length < count then .error (.tooManyPlaceholders values.length sql)
  else if count < values.length then .error (.tooManyValues count values.length sql)
  else .ok ⟨String.ofList (SqlPiece.named 0 pieces),
    values.zipIdx.map fun bound => (bindName bound.2, bound.1)⟩

end StarCube
