import StarCube.Proofs.Query.Denotation
import StarCube.Proofs.Query.Resolution
import StarCube.Proofs.Query.RoundTrip

/-!
Slices that query text can express. Text writes names between brackets and values as literals; a
slice of such names and values has a query that can be written, and every text that writes it is
read as that query.
-/

namespace StarCube

/-- A value for which a literal of query text stands. -/
structure Value.Literal (value : Value) : Prop where
  writable : value.Writable
  digits : ∀ n, value = .int n → (Nat.toDigits 10 n.natAbs).length ≤ ConversionFault.digitLimit

namespace Cube

/-- A reference whose level can be written in query text. -/
def Expresses (cube : Cube) (reference : String) : Prop :=
  ∃ ref, cube.Denotes reference ref ∧ ref.Writable

/-- A reference denotes no other level. -/
theorem Denotes.unique {cube : Cube} {reference : String} {ref other : LevelRef}
    (h : cube.Denotes reference ref) (hother : cube.Denotes reference other) : ref = other :=
  Except.ok.inj ((levelRef_eq_ok_iff.2 h).symm.trans (levelRef_eq_ok_iff.2 hother))

theorem Expresses.writable {cube : Cube} {reference : String} {ref : LevelRef}
    (h : cube.Expresses reference) (hdenotes : cube.Denotes reference ref) : ref.Writable := by
  obtain ⟨other, hother, hwritable⟩ := h
  rwa [hdenotes.unique hother]

/-- A slice of a cube that query text can express: something is selected, names can stand between
brackets, and every filter admits some values, each of them a literal. -/
structure ExpressesSlice (cube : Cube) (name : String) (dimensions measures : List String)
    (filters : Keyed Value) : Prop where
  name : Enclosable name
  nonempty : dimensions ≠ [] ∨ measures ≠ []
  dimensions : ∀ reference ∈ dimensions, cube.Expresses reference
  measures : ∀ measure ∈ measures, Enclosable measure
  filters : ∀ filter ∈ filters, cube.Expresses filter.1 ∧ Query.filterValues filter.2 ≠ [] ∧
    ∀ value ∈ Query.filterValues filter.2, value.Literal

end Cube

namespace Query

variable {cube : Cube} {name : String} {dimensions measures : List String} {filters : Keyed Value}
  {query : Query}

theorem exists_ofSlice (h : cube.ExpressesSlice name dimensions measures filters) :
    ∃ query : Query, query.OfSlice cube name dimensions measures filters := by
  have hresolves : ∀ reference, cube.Expresses reference →
      ∃ ref, cube.levelRef reference = .ok ref :=
    fun _ hreference => hreference.imp fun _ href => Cube.levelRef_eq_ok_iff.2 href.1
  obtain ⟨levels, hlevels⟩ := Except.exists_mapM_eq_ok fun reference hmem =>
    hresolves reference (h.dimensions reference hmem)
  have hrestricts : ∀ filter ∈ filters, ∃ predicate,
      (do return Predicate.among (← cube.levelRef filter.1) (filterValues filter.2)) =
        Except.ok (ε := Failure) predicate := by
    intro filter hmem
    obtain ⟨ref, href⟩ := hresolves filter.1 (h.filters filter hmem).1
    exact ⟨_, Except.bind_eq_ok_iff.2 ⟨ref, href, rfl⟩⟩
  obtain ⟨conditions, hconditions⟩ := Except.exists_mapM_eq_ok hrestricts
  refine ⟨⟨levels.map SelectItem.level ++ measures.map SelectItem.measure, name, conditions⟩,
    ofSlice_eq_ok_iff.1 ?_⟩
  exact Except.bind_eq_ok_iff.2 ⟨levels, hlevels, Except.bind_eq_ok_iff.2
    ⟨conditions, hconditions, rfl⟩⟩

namespace OfSlice

variable (hslice : query.OfSlice cube name dimensions measures filters)
  (h : cube.ExpressesSlice name dimensions measures filters)
include hslice h

theorem writable : query.Writable := by
  obtain ⟨levels, hlevels, hselect⟩ := hslice.select
  constructor
  · rw [hselect]
    rcases h.nonempty with hsome | hsome
    · have hlength := hlevels.length_eq
      have hpos := List.length_pos_iff.2 hsome
      exact List.append_ne_nil_of_left_ne_nil (List.ne_nil_of_length_pos (by simp; omega)) _
    · exact List.append_ne_nil_of_right_ne_nil _ (by simpa using hsome)
  · rw [hselect]
    refine List.forall_mem_append.2 ⟨List.forall_mem_map.2 ?_, List.forall_mem_map.2 ?_⟩
    · intro level hlevel
      obtain ⟨reference, hmem, hdenotes⟩ := exists_of_forall₂ hlevels.flip hlevel
      exact .level ((h.dimensions reference hmem).writable hdenotes)
    · exact fun measure hmem => .measure (h.measures measure hmem)
  · rw [hslice.cube]
    exact h.name
  · intro predicate hpredicate
    obtain ⟨filter, hmem, ref, hdenotes, rfl⟩ := exists_of_forall₂ hslice.conditions.flip hpredicate
    obtain ⟨hexpresses, hne, hvalues⟩ := h.filters filter hmem
    exact ⟨hexpresses.writable hdenotes, hne, fun value hvalue => (hvalues value hvalue).writable⟩

theorem legible : query.Legible := by
  intro predicate hpredicate n hn
  obtain ⟨filter, hmem, ref, -, rfl⟩ := exists_of_forall₂ hslice.conditions.flip hpredicate
  exact ((h.filters filter hmem).2.2 _ hn).digits n rfl

/-- The query of a slice that text can express is written by some text, and read from each that
writes it. -/
theorem readable : (∃ text, query.WrittenAs text) ∧
    ∀ text, query.WrittenAs text → parse text = .ok query :=
  ⟨(hslice.writable h).exists_writtenAs, fun _ htext => htext.parse_eq_ok (hslice.legible h)⟩

end OfSlice

end Query

end StarCube
