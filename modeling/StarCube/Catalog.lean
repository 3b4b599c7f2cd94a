import StarCube.Failure
import StarCube.Keyed

/-!
The catalog of cubes, in the order of first registration. A cube is kept as it was registered and
as it is published; the two differ once a refresh has published snapshots of its tables. A change
either happens as a whole or fails and changes nothing.
-/

namespace StarCube

/-- A moment at which a catalog reads the clock, known by how often it has read it before. -/
structure Instant where
  reading : Nat
deriving DecidableEq, Repr

/-- A registered cube. -/
structure CatalogEntry where
  source : Cube
  published : Cube
  version : Int
  /-- When the published definition took the place of the registered one. -/
  refreshedAt : Option Instant
deriving DecidableEq, Repr

/-- The published definition has taken the place of the registered one. -/
def CatalogEntry.refreshed (entry : CatalogEntry) : Bool :=
  entry.refreshedAt.isSome

/-- The registered cubes by name, and how often the clock has been read. -/
structure Catalog where
  entries : Keyed CatalogEntry
  readings : Nat
deriving DecidableEq, Repr

namespace Catalog

def empty : Catalog := ⟨[], 0⟩

def entry? (catalog : Catalog) (name : String) : Option CatalogEntry :=
  catalog.entries.get? name

/-- The entry of a cube. -/
def entry (catalog : Catalog) (name : String) : Except Failure CatalogEntry :=
  match catalog.entry? name with
  | some entry => .ok entry
  | none => .error (.reference (.unknownCube name))

/-- The published definition of a cube. -/
def require (catalog : Catalog) (name : String) : Except Failure Cube :=
  (catalog.entry name).map CatalogEntry.published

/-- The names of the cubes. -/
def names (catalog : Catalog) : List String :=
  catalog.entries.map fun entry => entry.2.published.name

/-- Registers a consistent cube. A cube of the same name is only replaced on demand; its version
goes on, so that no later snapshot takes the name of an earlier one. -/
def register (catalog : Catalog) (cube : Cube) (replace : Bool) : Except Failure Catalog :=
  match cube.check with
  | .error reason => .error (.schema cube.name reason)
  | .ok _ =>
      match catalog.entry? cube.name with
      | none =>
          .ok { catalog with entries := catalog.entries.put cube.name ⟨cube, cube, 0, none⟩ }
      | some previous =>
          if replace then
            .ok { catalog with
              entries := catalog.entries.put cube.name ⟨cube, cube, previous.version, none⟩ }
          else .error (.duplicateCube cube.name)

/-- Registers cubes one after the other. -/
def registerAll (catalog : Catalog) (cubes : List Cube) : Except Failure Catalog :=
  cubes.foldlM (fun catalog cube => catalog.register cube false) catalog

/-- Removes a cube. -/
def unregister (catalog : Catalog) (name : String) : Except Failure Catalog := do
  discard (catalog.entry name)
  return { catalog with entries := catalog.entries.remove name }

/-- Publishes a definition at this moment, under a version that is newer than the current one. -/
def publish (catalog : Catalog) (name : String) (published : Cube) (version : Int) :
    Except Failure Catalog := do
  let current ← catalog.entry name
  if version ≤ current.version then throw (.staleVersion name version current.version)
  return {
    entries := catalog.entries.put name
      { current with
        published := published
        version := version
        refreshedAt := some ⟨catalog.readings⟩ }
    readings := catalog.readings + 1 }

end Catalog

end StarCube
