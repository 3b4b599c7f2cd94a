import StarCube.Value

/-!
Documents: nested data in which cubes and queries are described, and which log records carry.
-/

namespace StarCube

inductive Document where
  | value (value : Value)
  | list (items : List Document)
  | record (fields : List (String × Document))
deriving Repr

namespace Document

instance : Inhabited Document := ⟨.value .null⟩

end Document

/-- What is wrong with a part of a document. -/
inductive IssueKind where
  | missing
  | notText
  | notList
  | notRecord
  | notChoice
  /-- An item of a tagged kind that is no record. -/
  | untaggable
  | noTag
  | unknownTag
  | notWhole
  | unreadableWhole
  | fractional
  | notFinite
  | notNumber
  | unreadableNumber
  | notFlag
  | unreadableFlag
  | tooSmall
  /-- A number with more digits than are read. -/
  | tooLong
  | garbledText
deriving DecidableEq, Repr

namespace IssueKind

/-- The code by which an issue is reported. -/
def code : IssueKind → String
  | .missing => "missing"
  | .notText => "string_type"
  | .notList => "list_type"
  | .notRecord => "model_type"
  | .notChoice => "enum"
  | .untaggable => "model_attributes_type"
  | .noTag => "union_tag_not_found"
  | .unknownTag => "union_tag_invalid"
  | .notWhole => "int_type"
  | .unreadableWhole => "int_parsing"
  | .fractional => "int_from_float"
  | .notFinite => "finite_number"
  | .notNumber => "float_type"
  | .unreadableNumber => "float_parsing"
  | .notFlag => "bool_type"
  | .unreadableFlag => "bool_parsing"
  | .tooSmall => "greater_than_equal"
  | .tooLong => "int_parsing_size"
  | .garbledText => "string_unicode"

end IssueKind

/-- An issue and the path of names and indices to the part that has it. -/
structure Issue where
  location : List String
  kind : IssueKind
deriving DecidableEq, Repr

end StarCube
