import StarCube.Document.Reader
import StarCube.Query

/-!
Queries described by documents, in place of query text. Items of the select list and conditions say
by their field `kind` what they are.
-/

namespace StarCube

open Document

namespace LevelRef

def ofFields (fields : List (String × Document)) : Reading LevelRef :=
  LevelRef.mk <$> required asText "dimension" fields <*> required asText "level" fields <*>
    defaulted asOptionalText none "hierarchy" fields

end LevelRef

namespace SelectItem

/-- What the fields of an item are read as. -/
def branch? : String → Option (List (String × Document) → Reading SelectItem)
  | "measure" => some fun fields => .measure <$> required asText "name" fields
  | "dimension_level" => some fun fields => .level <$> LevelRef.ofFields fields
  | _ => none

end SelectItem

namespace Predicate

/-- A value of any kind. A document that is more than a value stands for none. -/
def anyValue : Document → Reading Value
  | .value content => .ok content
  | _ => .ok .null

/-- What the fields of a condition are read as. -/
def branch? : String → Option (List (String × Document) → Reading Predicate)
  | "equals" => some fun fields =>
      .equals <$> LevelRef.ofFields fields <*> required anyValue "value" fields
  | "in" => some fun fields =>
      .among <$> LevelRef.ofFields fields <*> required (asList anyValue) "values" fields
  | _ => none

end Predicate

namespace Query

/-- Reads a query. -/
def ofDocument : Document → Reading Query :=
  asRecord fun fields =>
    Query.mk <$> required (asList (asTagged SelectItem.branch?)) "select" fields <*>
      required asText "cube" fields <*>
      defaulted (asList (asTagged Predicate.branch?)) [] "where" fields

end Query

end StarCube
