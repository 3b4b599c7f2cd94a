import StarCube.Document

/-!
Reading of documents. A reader gives a result or all issues of the document, in the order of the
parts read; readers of several parts are joined with `<*>`, which keeps the issues of both.
-/

namespace StarCube

/-- A result, or the issues that prevent it. -/
inductive Reading (α : Type) where
  | ok (value : α)
  | issues (found : List Issue)
deriving Repr

namespace Reading

variable {α β : Type}

def map (f : α → β) : Reading α → Reading β
  | .ok value => .ok (f value)
  | .issues found => .issues found

/-- Joins two readings; the issues of both are kept. -/
def both (f : Reading (α → β)) (x : Reading α) : Reading β :=
  match f, x with
  | .ok f, .ok value => .ok (f value)
  | .ok _, .issues found => .issues found
  | .issues found, .ok _ => .issues found
  | .issues first, .issues second => .issues (first ++ second)

instance : Applicative Reading where
  pure := .ok
  map := map
  seq f x := both f (x ())

/-- A single issue at the part itself. -/
def issue (kind : IssueKind) : Reading α :=
  .issues [⟨[], kind⟩]

/-- A reading of a part, located in the whole. -/
def within (part : String) : Reading α → Reading α
  | .ok value => .ok value
  | .issues found =>
      .issues (found.map fun issue => { issue with location := part :: issue.location })

end Reading

namespace Document

variable {α : Type}

/-- The field of a name in a record. -/
def field? (fields : List (String × Document)) (name : String) : Option Document :=
  fields.lookup name

/-- Reads a field that has to be there. -/
def required (read : Document → Reading α) (name : String) (fields : List (String × Document)) :
    Reading α :=
  match field? fields name with
  | some document => (read document).within name
  | none => (Reading.issue .missing).within name

/-- Reads a field that may be missing. -/
def defaulted (read : Document → Reading α) (default : α) (name : String)
    (fields : List (String × Document)) : Reading α :=
  match field? fields name with
  | some document => (read document).within name
  | none => .ok default

/-- Reads a record. -/
def asRecord (read : List (String × Document) → Reading α) : Document → Reading α
  | .record fields => read fields
  | _ => Reading.issue .notRecord

/-- Reads the items of a list, located from the `index`-th on. -/
def items (read : Document → Reading α) (index : Nat) : List Document → Reading (List α)
  | [] => .ok []
  | item :: rest =>
      List.cons <$> (read item).within (toString index) <*> items read (index + 1) rest

/-- Reads a list. -/
def asList (read : Document → Reading α) : Document → Reading (List α)
  | .list documents => items read 0 documents
  | _ => Reading.issue .notList

/-- Reads a text. -/
def asText : Document → Reading String
  | .value (.text content) => .ok content
  | _ => Reading.issue .notText

/-- Reads a text or its absence. -/
def asOptionalText : Document → Reading (Option String)
  | .value .null => .ok none
  | document => some <$> asText document

/-- Reads one of several choices by its name. -/
def asChoice (choices : List α) (nameOf : α → String) : Document → Reading α
  | .value (.text content) =>
      match choices.find? fun choice => nameOf choice == content with
      | some choice => .ok choice
      | none => Reading.issue .notChoice
  | _ => Reading.issue .notChoice

/-- Reads a record whose field `kind` says what else it holds. -/
def asTagged (branch? : String → Option (List (String × Document) → Reading α)) :
    Document → Reading α
  | .record fields =>
      match field? fields "kind" with
      | none => Reading.issue .noTag
      | some (.value (.text tag)) =>
          match branch? tag with
          | some read => (read fields).within tag
          | none => Reading.issue .unknownTag
      | some _ => Reading.issue .unknownTag
  | _ => Reading.issue .untaggable

end Document

end StarCube
