import Mathlib.Data.List.Nodup
import StarCube.Proofs.Query.Clauses
import StarCube.Proofs.Query.Aliases

/-!
What a cube is checked for. The check says which fault is found first; here stands what a cube has
when none is found: names that are told apart, and identifiers that may be written as they are.
-/

namespace StarCube

/-- A text that may be written into a statement and is not too long. -/
structure Acceptable (text : String) : Prop where
  identifier : IsIdentifier text
  length_le : text.length ≤ identifierLimit

section Text

variable {what text checked : String}

theorem checkIdentifier_eq_ok_iff :
    checkIdentifier what text = .ok checked ↔ Acceptable text ∧ checked = text := by
  constructor
  · intro h
    refine ⟨⟨isIdentifier_of_checkIdentifier h, ?_⟩, checkIdentifier_eq_ok h⟩
    unfold checkIdentifier at h
    split at h
    · simp at h
    split at h
    · simp at h
    · omega
  · rintro ⟨⟨hidentifier, hlength⟩, rfl⟩
    have hne : checked.isEmpty = false := by
      rw [String.isEmpty_eq_false_iff]
      rintro rfl
      simp [IsIdentifier, identifierStart] at hidentifier
    rw [IsIdentifier] at hidentifier
    simp [checkIdentifier, hne, Nat.not_lt.2 hlength, hidentifier]

theorem requireIdentifier_eq_ok_iff :
    requireIdentifier what text = .ok checked ↔ Acceptable text ∧ checked = text := by
  rw [requireIdentifier, Except.mapError_eq_ok_iff, checkIdentifier_eq_ok_iff]

theorem discard_requireIdentifier_eq_ok_iff {done : Unit} :
    discard (requireIdentifier what text) = .ok done ↔ Acceptable text := by
  simp [Except.discard_eq_ok_iff, requireIdentifier_eq_ok_iff]

theorem checkRole_eq_ok_iff : checkRole what text = .ok () ↔ Acceptable text := by
  unfold checkRole
  split
  · rename_i checked hchecked
    simp [(checkIdentifier_eq_ok_iff.1 hchecked).1]
  · rename_i fault hfault
    simp only [reduceCtorEq, false_iff]
    intro htext
    rw [checkIdentifier_eq_ok_iff.2 ⟨htext, rfl⟩] at hfault
    simp at hfault

end Text

section Names

/-- No name recurs where all are told apart, from each other and from those before. -/
theorem recurring_eq_nil_iff {seen names : List String} :
    recurring seen names = [] ↔ names.Nodup ∧ ∀ name ∈ names, name ∉ seen := by
  induction names generalizing seen with
  | nil => simp [recurring]
  | cons name rest ih =>
      rw [recurring]
      split
      · rename_i hseen
        simp_all
      · rename_i hseen
        have hnew : name ∉ seen := by simpa using hseen
        simp only [ih, List.nodup_cons, List.mem_cons, not_or, forall_eq_or_imp]
        constructor
        · rintro ⟨hrest, hother⟩
          exact ⟨⟨fun hmem => (hother name hmem).1 rfl, hrest⟩, hnew,
            fun other hmem => (hother other hmem).2⟩
        · rintro ⟨⟨hname, hrest⟩, -, hother⟩
          exact ⟨hrest, fun other hmem =>
            ⟨fun heq => hname (heq ▸ hmem), hother other hmem⟩⟩

theorem checkDistinct_eq_ok_iff {reason : List String → SchemaReason} {names : List String} :
    checkDistinct reason names = .ok () ↔ names.Nodup := by
  have hnone : duplicates names = [] ↔ names.Nodup := by
    rw [duplicates, (firsts_eraseDups _).eq_nil_iff, recurring_eq_nil_iff]
    simp
  rw [← hnone, checkDistinct]
  split <;> simp_all

end Names

/-- A level whose names may be written. -/
structure Level.Consistent (level : Level) : Prop where
  name : Acceptable level.name
  column : Acceptable level.column
  sortColumn : Acceptable level.sortColumn

/-- A hierarchy with levels that are told apart by name. -/
structure Hierarchy.Consistent (hierarchy : Hierarchy) : Prop where
  levels_ne_nil : hierarchy.levels ≠ []
  nodup_levels : (hierarchy.levels.map Level.name).Nodup
  levels : ∀ level ∈ hierarchy.levels, level.Consistent

/-- A dimension whose names may be written, with hierarchies. -/
structure Dimension.Consistent (dimension : Dimension) : Prop where
  name : Acceptable dimension.name
  table : Acceptable dimension.table
  keyColumn : Acceptable dimension.keyColumn
  nameColumn : Acceptable dimension.nameColumn
  attributes : ∀ described ∈ dimension.attributes, Acceptable described.column
  hierarchies_ne_nil : dimension.hierarchies ≠ []
  hierarchies : ∀ hierarchy ∈ dimension.hierarchies, hierarchy.Consistent

/-- A measure whose names may be written. -/
structure Measure.Consistent (measure : Measure) : Prop where
  name : Acceptable measure.name
  column : Acceptable measure.column

/-- A calculated member whose formula is one over known measures. -/
def CalculatedMember.Consistent (known : List String) (member : CalculatedMember) : Prop :=
  ∃ measures, member.measures = .ok measures ∧ ∀ measure ∈ measures, measure ∈ known

/-- What a cube has that is found consistent. Hierarchies are the one thing that is named and not
checked to be told apart by name. -/
structure Cube.Consistent (cube : Cube) : Prop where
  name_ne : cube.name ≠ ""
  nodup_dimensions : (cube.dimensions.map Dimension.name).Nodup
  nodup_measures : (cube.measures.map Measure.name).Nodup
  nodup_members :
    (cube.measures.map Measure.name ++ cube.calculatedMembers.map CalculatedMember.name).Nodup
  factTable : Acceptable cube.factTable
  measures : ∀ measure ∈ cube.measures, measure.Consistent
  dimensions : ∀ dimension ∈ cube.dimensions, dimension.Consistent
  members : ∀ member ∈ cube.calculatedMembers,
    member.Consistent (cube.measures.map Measure.name)

section Check

theorem Level.check_eq_ok_iff {level : Level} : level.check = .ok () ↔ level.Consistent := by
  simp only [check, Except.seq_eq_ok_iff, checkRole_eq_ok_iff]
  exact ⟨fun ⟨hname, hcolumn, hsort⟩ => ⟨hname, hcolumn, hsort⟩, fun h => ⟨h.1, h.2, h.3⟩⟩

theorem Hierarchy.check_eq_ok_iff {dimension : String} {hierarchy : Hierarchy} :
    hierarchy.check dimension = .ok () ↔ hierarchy.Consistent := by
  simp only [check, Except.refuse_eq_ok_iff, Except.seq_eq_ok_iff, checkDistinct_eq_ok_iff,
    Except.forM_eq_ok_iff, Level.check_eq_ok_iff]
  exact ⟨fun ⟨hsome, hnames, hlevels⟩ => ⟨hsome, hnames, hlevels⟩, fun h => ⟨h.1, h.2, h.3⟩⟩

theorem Dimension.check_eq_ok_iff {dimension : Dimension} :
    dimension.check = .ok () ↔ dimension.Consistent := by
  simp only [check, Except.refuse_eq_ok_iff, Except.seq_eq_ok_iff, checkRole_eq_ok_iff,
    Except.forM_eq_ok_iff, Hierarchy.check_eq_ok_iff]
  constructor
  · rintro ⟨hname, htable, hkey, hcolumn, hattributes, hsome, hhierarchies⟩
    exact ⟨hname, htable, hkey, hcolumn, hattributes, hsome, hhierarchies⟩
  · exact fun h => ⟨h.1, h.2, h.3, h.4, h.5, h.6, h.7⟩

theorem Measure.check_eq_ok_iff {measure : Measure} :
    measure.check = .ok () ↔ measure.Consistent := by
  simp only [check, Except.seq_eq_ok_iff, checkRole_eq_ok_iff]
  exact ⟨fun ⟨hname, hcolumn⟩ => ⟨hname, hcolumn⟩, fun h => ⟨h.1, h.2⟩⟩

theorem CalculatedMember.check_eq_ok_iff {known : List String} {member : CalculatedMember} :
    member.check known = .ok () ↔ member.Consistent known := by
  unfold check Consistent
  split
  · simp_all
  · rename_i measures hmeasures
    simp [hmeasures]

theorem Cube.check_eq_ok_iff {cube : Cube} : cube.check = .ok () ↔ cube.Consistent := by
  simp only [check, Except.refuse_eq_ok_iff, Except.seq_eq_ok_iff, checkDistinct_eq_ok_iff,
    checkRole_eq_ok_iff, Except.forM_eq_ok_iff, Measure.check_eq_ok_iff,
    Dimension.check_eq_ok_iff, CalculatedMember.check_eq_ok_iff, String.isEmpty_iff]
  constructor
  · rintro ⟨hname, hdimensions, hmeasures, hmembers, htable, heach, hall, hformulas⟩
    exact ⟨hname, hdimensions, hmeasures, hmembers, htable, heach, hall, hformulas⟩
  · exact fun h => ⟨h.1, h.2, h.3, h.4, h.5, h.6, h.7, h.8⟩

end Check

namespace Cube.Consistent

variable {cube : Cube}

/-- An element that is told apart by name is found by its name. -/
theorem find?_of_nodup {α : Type} {name : α → String} {list : List α}
    (h : (list.map name).Nodup) {a : α} (ha : a ∈ list) :
    list.find? (name · == name a) = some a := by
  induction list with
  | nil => simp at ha
  | cons first rest ih =>
      rw [List.map_cons, List.nodup_cons] at h
      rcases List.mem_cons.1 ha with rfl | ha
      · exact List.find?_cons_of_pos (by simp)
      · have hne : name first ≠ name a := fun heq => h.1 (heq ▸ List.mem_map_of_mem ha)
        rw [List.find?_cons_of_neg (by simpa using hne)]
        exact ih h.2 ha

theorem dimension?_eq_some (h : cube.Consistent) {dimension : Dimension}
    (hdimension : dimension ∈ cube.dimensions) :
    cube.dimension? dimension.name = some dimension :=
  find?_of_nodup h.nodup_dimensions hdimension

theorem measure?_eq_some (h : cube.Consistent) {measure : Measure}
    (hmeasure : measure ∈ cube.measures) : cube.measure? measure.name = some measure :=
  find?_of_nodup h.nodup_measures hmeasure

end Cube.Consistent

end StarCube
