import StarCube.Query
import StarCube.Query.Token

/-!
Queries from their tokens: a select list, a cube and conditions joined by AND. What is read is
determined by the next token alone, and the first token that does not fit is the fault. A reference
of `[Measures]`, in any letter case, is a measure and takes exactly one more name.
-/

namespace StarCube

/-- A reader that takes at least one token from the front. -/
structure TokenReader (α : Type) where
  run : List Token → Except QueryTextFault (α × List Token)
  shorter : ∀ {tokens value rest}, run tokens = .ok (value, rest) → rest.length < tokens.length

namespace Token

/-- The next token; a text without tokens ends where it starts. -/
def front : List Token → Token
  | [] => ⟨.finish, 1, 1, ""⟩
  | token :: _ => token

/-- A fault at a token. -/
def fault (token : Token) (reason : SyntaxReason) : QueryTextFault :=
  .misread token.line token.column reason

/-- The tokens after one of a given kind. -/
def take? (kind : TokenKind) : List Token → Option (List Token)
  | [] => none
  | token :: rest => if token.kind = kind then some rest else none

theorem take?_length {kind : TokenKind} {tokens rest : List Token}
    (h : take? kind tokens = some rest) : rest.length < tokens.length := by
  cases tokens with
  | nil => simp [take?] at h
  | cons token tail =>
      simp only [take?] at h
      split at h <;> simp_all

/-- The tokens after one of a given kind, which has to be next. -/
def expect (kind : TokenKind) (reason : Found → SyntaxReason) (tokens : List Token) :
    Except QueryTextFault (List Token) :=
  match take? kind tokens with
  | some rest => .ok rest
  | none => .error ((front tokens).fault (reason (front tokens).found))

theorem expect_length {kind : TokenKind} {reason : Found → SyntaxReason}
    {tokens rest : List Token} (h : expect kind reason tokens = .ok rest) :
    rest.length < tokens.length := by
  unfold expect at h
  split at h
  · rename_i found hfound
    obtain rfl := Except.ok.inj h
    exact take?_length hfound
  · simp at h

def expectMark (mark : Mark) : List Token → Except QueryTextFault (List Token) :=
  expect (.mark mark) (.expectedMark mark)

def expectKeyword (keyword : Keyword) : List Token → Except QueryTextFault (List Token) :=
  expect (.keyword keyword) (.expectedKeyword keyword)

/-- Reads a bracketed name in a role. -/
def readName (role : String) : TokenReader String where
  run
    | [] => .error ((front []).fault (.expectedName role (front []).found))
    | token :: rest =>
        match token.kind with
        | .name name => .ok (name, rest)
        | _ => .error (token.fault (.expectedName role token.found))
  shorter {tokens value rest} h := by
    cases tokens with
    | nil => simp at h
    | cons token tail =>
        simp only at h
        split at h <;> simp_all

/-- Reads a literal value. -/
def readLiteral : TokenReader Value where
  run
    | [] => .error ((front []).fault (.expectedLiteral (front []).found))
    | token :: rest =>
        match token.kind with
        | .string content => .ok (.text content, rest)
        | .integer n => .ok (.int n, rest)
        | .real x => .ok (.float x, rest)
        | .keyword .true => .ok (.bool true, rest)
        | .keyword .false => .ok (.bool false, rest)
        | _ => .error (token.fault (.expectedLiteral token.found))
  shorter {tokens value rest} h := by
    cases tokens with
    | nil => simp at h
    | cons token tail =>
        simp only at h
        split at h <;> simp_all

/-- Reads the name of a cube, bracketed or not. -/
def readCube : TokenReader String where
  run
    | [] => .error ((front []).fault (.expectedCube (front []).found))
    | token :: rest =>
        match token.kind with
        | .name name => .ok (name, rest)
        | .word word => .ok (word, rest)
        | _ => .error (token.fault (.expectedCube token.found))
  shorter {tokens value rest} h := by
    cases tokens with
    | nil => simp at h
    | cons token tail =>
        simp only at h
        split at h <;> simp_all

end Token

namespace TokenReader

variable {α : Type}

/-- Reads one value or more, with a separator between each two. -/
def separatedRun (reader : TokenReader α) (separator : TokenKind) (tokens : List Token) :
    Except QueryTextFault (List α × List Token) :=
  match hfirst : reader.run tokens with
  | .error fault => .error fault
  | .ok (first, rest) =>
      match hmore : Token.take? separator rest with
      | none => .ok ([first], rest)
      | some more =>
          have : more.length < tokens.length :=
            Nat.lt_trans (Token.take?_length hmore) (reader.shorter hfirst)
          match separatedRun reader separator more with
          | .error fault => .error fault
          | .ok (others, rest) => .ok (first :: others, rest)
termination_by tokens.length

theorem separatedRun_shorter {reader : TokenReader α} {separator : TokenKind}
    {tokens rest : List Token} {values : List α}
    (h : separatedRun reader separator tokens = .ok (values, rest)) :
    rest.length < tokens.length := by
  fun_induction separatedRun reader separator tokens generalizing values with
  | case1 => simp at h
  | case2 tokens first after hfirst =>
      obtain ⟨-, rfl⟩ := Prod.mk.inj (Except.ok.inj h)
      exact reader.shorter hfirst
  | case3 => simp at h
  | case4 tokens first after hfirst more hmore hless others last hothers ih =>
      obtain ⟨-, rfl⟩ := Prod.mk.inj (Except.ok.inj h)
      exact Nat.lt_trans (ih hothers) hless

def separated (reader : TokenReader α) (separator : TokenKind) : TokenReader (List α) :=
  ⟨separatedRun reader separator, separatedRun_shorter⟩

end TokenReader

/-- A reference as it is written: two names or three, with the token of the first. -/
structure MemberPath where
  first : Token
  dimension : String
  second : String
  third : Option String
deriving Repr

namespace MemberPath

/-- Reads a reference. -/
def read : TokenReader MemberPath where
  run tokens :=
    match (Token.readName "dimension or [Measures]").run tokens with
    | .error fault => .error fault
    | .ok (dimension, afterFirst) =>
        match Token.expectMark .point afterFirst with
        | .error fault => .error fault
        | .ok afterPoint =>
            match (Token.readName "member name").run afterPoint with
            | .error fault => .error fault
            | .ok (second, afterSecond) =>
                let path := ⟨Token.front tokens, dimension, second, none⟩
                match Token.take? (.mark .point) afterSecond with
                | none => .ok (path, afterSecond)
                | some more =>
                    match (Token.readName "level name").run more with
                    | .error fault => .error fault
                    | .ok (third, rest) => .ok ({ path with third := some third }, rest)
  shorter {tokens value rest} h := by
    simp only at h
    split at h
    · simp at h
    rename_i hfirst
    split at h
    · simp at h
    rename_i hpoint
    split at h
    · simp at h
    rename_i hsecond
    have h1 := (Token.readName _).shorter hfirst
    have h2 := Token.expect_length hpoint
    have h3 := (Token.readName _).shorter hsecond
    split at h
    · obtain ⟨-, rfl⟩ := Prod.mk.inj (Except.ok.inj h)
      omega
    · rename_i hmore
      have h4 := Token.take?_length hmore
      split at h
      · simp at h
      · rename_i hthird
        have h5 := (Token.readName _).shorter hthird
        obtain ⟨-, rfl⟩ := Prod.mk.inj (Except.ok.inj h)
        omega

/-- The reference is to the measures of the cube. -/
def isMeasure (path : MemberPath) : Bool :=
  path.dimension.toList.map Char.toLower == "measures".toList

/-- The level that a reference names. -/
def levelRef (path : MemberPath) : LevelRef :=
  match path.third with
  | none => ⟨path.dimension, path.second, none⟩
  | some level => ⟨path.dimension, level, some path.second⟩

/-- The item that a reference selects. -/
def selectItem (path : MemberPath) : Except QueryTextFault SelectItem :=
  if path.isMeasure then
    match path.third with
    | none => .ok (.measure path.second)
    | some _ => .error (path.first.fault .measureParts)
  else .ok (.level path.levelRef)

end MemberPath

namespace SelectItem

/-- Reads an item of a select list. -/
def read : TokenReader SelectItem where
  run tokens :=
    match MemberPath.read.run tokens with
    | .error fault => .error fault
    | .ok (path, rest) =>
        match path.selectItem with
        | .error fault => .error fault
        | .ok item => .ok (item, rest)
  shorter {tokens value rest} h := by
    split at h
    · simp at h
    · rename_i hpath
      split at h
      · simp at h
      · obtain ⟨-, rfl⟩ := Prod.mk.inj (Except.ok.inj h)
        exact MemberPath.read.shorter hpath

end SelectItem

namespace Predicate

/-- Reads what a condition compares a level with. -/
def readComparison (ref : LevelRef) : TokenReader Predicate where
  run tokens :=
    match Token.take? (.mark .equals) tokens with
    | some rest =>
        match Token.readLiteral.run rest with
        | .error fault => .error fault
        | .ok (value, rest) => .ok (.equals ref value, rest)
    | none =>
        match Token.take? (.keyword .in) tokens with
        | none =>
            .error ((Token.front tokens).fault (.expectedComparison (Token.front tokens).found))
        | some rest =>
            match Token.expectMark .openParenthesis rest with
            | .error fault => .error fault
            | .ok rest =>
                match (Token.readLiteral.separated (.mark .comma)).run rest with
                | .error fault => .error fault
                | .ok (values, rest) =>
                    match Token.expectMark .closeParenthesis rest with
                    | .error fault => .error fault
                    | .ok rest => .ok (.among ref values, rest)
  shorter {tokens value rest} h := by
    split at h
    · rename_i hequals
      split at h
      · simp at h
      · rename_i hliteral
        have h1 := Token.take?_length hequals
        have h2 := Token.readLiteral.shorter hliteral
        obtain ⟨-, rfl⟩ := Prod.mk.inj (Except.ok.inj h)
        omega
    · split at h
      · simp at h
      rename_i hin
      split at h
      · simp at h
      rename_i hopen
      split at h
      · simp at h
      rename_i hvalues
      split at h
      · simp at h
      rename_i hclose
      have h1 := Token.take?_length hin
      have h2 := Token.expect_length hopen
      have h3 := (Token.readLiteral.separated _).shorter hvalues
      have h4 := Token.expect_length hclose
      obtain ⟨-, rfl⟩ := Prod.mk.inj (Except.ok.inj h)
      omega

/-- Reads a condition. -/
def read : TokenReader Predicate where
  run tokens :=
    match MemberPath.read.run tokens with
    | .error fault => .error fault
    | .ok (path, rest) =>
        if path.isMeasure then .error (path.first.fault .measurePredicate)
        else (readComparison path.levelRef).run rest
  shorter {tokens value rest} h := by
    split at h
    · simp at h
    · rename_i hpath
      split at h
      · simp at h
      · exact Nat.lt_trans ((readComparison _).shorter h) (MemberPath.read.shorter hpath)

end Predicate

namespace Query

/-- Reads the conditions, if there are any. -/
def readConditions (tokens : List Token) : Except QueryTextFault (List Predicate × List Token) :=
  match Token.take? (.keyword .where) tokens with
  | none => .ok ([], tokens)
  | some rest => (Predicate.read.separated (.keyword .and)).run rest

/-- Reads a query from all tokens of a text; a semicolon may end it. -/
def ofTokens (tokens : List Token) : Except QueryTextFault Query := do
  let tokens ← Token.expectKeyword .select tokens
  let (select, tokens) ← (SelectItem.read.separated (.mark .comma)).run tokens
  let tokens ← Token.expectKeyword .from tokens
  let (cube, tokens) ← Token.readCube.run tokens
  let (conditions, tokens) ← readConditions tokens
  let last := Token.front ((Token.take? (.mark .semicolon) tokens).getD tokens)
  if last.kind = .finish then return ⟨select, cube, conditions⟩
  else throw (last.fault (.trailing last.found))

/-- Reads a query text. -/
def parse (text : String) : Except QueryTextFault Query :=
  (Token.scan text).bind ofTokens

end Query

end StarCube
