import StarCube.Failure
import StarCube.Query
import StarCube.Text.Bracketed
import StarCube.Text.Character

/-!
References to levels by text: one to three names, bracketed or joined by points. One name is a
dimension, of two the second is a level, and of three the second is a hierarchy and the third a
level of it.
-/

namespace StarCube

/-- A reference to a dimension or to a level of it. -/
structure MemberReference where
  dimension : String
  hierarchy : Option String
  level : Option String
deriving DecidableEq, Repr

namespace MemberReference

/-- The parts of a text between points. -/
def dotted : List Char → List (List Char)
  | [] => [[]]
  | c :: rest =>
      if c = '.' then [] :: dotted rest
      else
        match dotted rest with
        | [] => [[c]]
        | part :: parts => (c :: part) :: parts

/-- The names of a trimmed text: bracketed ones if it starts with a bracket. -/
def names (text : List Char) : List (List Char) :=
  (if text.head? = some '[' then Text.bracketedNames text else dotted text).map Text.trimmed

/-- The reference that names make. -/
def ofNames? : List (List Char) → Option MemberReference
  | [dimension] => some ⟨String.ofList dimension, none, none⟩
  | [dimension, level] => some ⟨String.ofList dimension, none, some (String.ofList level)⟩
  | [dimension, hierarchy, level] =>
      some ⟨String.ofList dimension, some (String.ofList hierarchy), some (String.ofList level)⟩
  | _ => none

/-- Reads a reference. -/
def parse (text : String) : Except Failure MemberReference :=
  let trimmed := Text.trimmed text.toList
  let found := names trimmed
  match if found.any List.isEmpty then none else ofNames? found with
  | some reference => .ok reference
  | none => .error (.memberReference (String.ofList trimmed))

end MemberReference

namespace Dimension

/-- The first hierarchy. -/
def firstHierarchy (dimension : Dimension) : Except Failure Hierarchy :=
  match dimension.hierarchies.head? with
  | some hierarchy => .ok hierarchy
  | none => .error .noneToTake

/-- The finest level of the first hierarchy. -/
def finestLevel (dimension : Dimension) : Except Failure Level := do
  let hierarchy ← dimension.firstHierarchy
  match hierarchy.levels.getLast? with
  | some level => return level
  | none => throw .noneToTake

end Dimension

namespace Cube

/-- The level that a text refers to. A dimension by itself stands for its finest level. -/
def levelRef (cube : Cube) (text : String) : Except Failure LevelRef := do
  let reference ← MemberReference.parse text
  match reference.level with
  | some level => return ⟨reference.dimension, level, reference.hierarchy⟩
  | none =>
      let dimension ← (cube.requireDimension reference.dimension).mapError Failure.reference
      let finest ← dimension.finestLevel
      return ⟨reference.dimension, finest.name, none⟩

end Cube

end StarCube
