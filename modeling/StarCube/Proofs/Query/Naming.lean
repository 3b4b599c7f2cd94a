import StarCube.Proofs.Foreign
import StarCube.Proofs.Query.Reachability

/-!
Queries that are refused for a name. Of all names that a statement over a consistent cube is written
with, the key of a dimension and the label of a level are the only ones that may fail to be
identifiers, and no other failure to compile a query is none of the engine's own.
-/

namespace StarCube

variable {cube : Cube}

/-- The dimension of a level is found, but its key in the facts may not be written. -/
def Cube.Miskeyed (cube : Cube) (ref : LevelRef) : Prop :=
  ∃ dimension, cube.dimension? ref.dimension = some dimension ∧ ¬ Acceptable dimension.factKey

/-- A level is found, but its label may not be written. -/
def Cube.Mislabeled (cube : Cube) (ref : LevelRef) : Prop :=
  (∃ found, cube.level? ref = some found) ∧ ¬ Acceptable ref.label

namespace Cube.Consistent

theorem foreign_checkJoin_iff (h : cube.Consistent) {dimension : Dimension}
    (hdimension : dimension ∈ cube.dimensions) :
    Foreign dimension.checkJoin ↔ ¬ Acceptable dimension.factKey := by
  have hnames := h.dimensions dimension hdimension
  simp only [Dimension.checkJoin, foreign_bind_iff, foreign_discard_iff,
    foreign_requireIdentifier_iff, discard_requireIdentifier_eq_ok_iff, hnames.table,
    hnames.keyColumn, not_true_eq_false, false_or, true_and, exists_const, and_false, or_false]

/-- Of the names of a level, the one that may fail to be an identifier is the key of its
dimension. -/
theorem foreign_resolveLevel_iff (h : cube.Consistent) {ref : LevelRef} :
    Foreign (cube.resolveLevel ref) ↔ cube.Miskeyed ref := by
  have hjoinable : Foreign (cube.joinable ref.dimension) ↔ cube.Miskeyed ref := by
    simp only [joinable, foreign_bind_iff, not_foreign_reference, false_or,
      Except.mapError_eq_ok_iff, requireDimension_eq_ok_iff]
    refine exists_congr fun dimension => and_congr_right fun hfound => ?_
    rw [h.foreign_checkJoin_iff (mem_of_dimension? hfound)]
    exact or_iff_left (by rintro ⟨_, -, hpure⟩; exact not_foreign_ok _ hpure)
  rw [resolveLevel, foreign_bind_iff, hjoinable]
  refine or_iff_left ?_
  rintro ⟨dimension, hdimension, hforeign⟩
  rw [foreign_bind_iff, or_iff_right not_foreign_reference] at hforeign
  obtain ⟨level, hlevel, hforeign⟩ := hforeign
  rw [foreign_bind_iff, foreign_discard_iff, foreign_requireIdentifier_iff] at hforeign
  have hlevel := Dimension.resolveLevel_eq_ok_iff.1 (Except.mapError_eq_ok_iff.1 hlevel)
  have hfound := level?_eq_some_iff.2 ⟨(joinable_eq_ok hdimension).1, hlevel⟩
  obtain ⟨hmem, -, -, hierarchy, hhierarchy, hmemLevel⟩ := mem_of_level? hfound
  have hnames :=
    ((h.dimensions dimension hmem).hierarchies hierarchy hhierarchy).levels level hmemLevel
  rcases hforeign with hcolumn | ⟨_, -, hpure⟩
  · exact hcolumn hnames.column
  · exact not_foreign_ok _ hpure

theorem not_foreign_resolveMeasure (h : cube.Consistent) {name : String} :
    ¬ Foreign (cube.resolveMeasure name) := by
  apply not_foreign_bind not_foreign_reference
  intro measure hmeasure hforeign
  have hfound := requireMeasure_eq_ok_iff.1 (Except.mapError_eq_ok_iff.1 hmeasure)
  have hnames := h.measures measure (List.mem_of_find?_eq_some hfound)
  simp only [foreign_bind_iff, foreign_discard_iff, foreign_requireIdentifier_iff, hnames.name,
    hnames.column, not_true_eq_false, false_or] at hforeign
  obtain ⟨_, -, _, -, hpure⟩ := hforeign
  exact not_foreign_ok _ hpure

/-- And of a level that is selected it may be the label as well. -/
theorem foreign_resolveItem_iff (h : cube.Consistent) {item : SelectItem} :
    Foreign (cube.resolveItem item) ↔
      ∃ ref, item = .level ref ∧ (cube.Miskeyed ref ∨ cube.Mislabeled ref) := by
  cases item with
  | measure name => simpa [resolveItem] using h.not_foreign_resolveMeasure
  | level ref =>
      simp only [SelectItem.level.injEq, exists_eq_left']
      rw [resolveItem, foreign_bind_iff, h.foreign_resolveLevel_iff]
      constructor
      · rintro (hkey | ⟨⟨dimension, level⟩, hlevel, hforeign⟩)
        · exact .inl hkey
        · obtain ⟨hfound, -⟩ := h.resolveLevel_eq_ok_iff.1 hlevel
          obtain ⟨hmem, -, -, hierarchy, hhierarchy, hmemLevel⟩ := mem_of_level? hfound
          have hnames :=
            ((h.dimensions dimension hmem).hierarchies hierarchy hhierarchy).levels level
            hmemLevel
          simp only [foreign_bind_iff, foreign_discard_iff, foreign_requireIdentifier_iff,
            hnames.sortColumn, not_true_eq_false, false_or] at hforeign
          obtain ⟨_, -, hlabel | ⟨label, -, hpure⟩⟩ := hforeign
          · exact .inr ⟨⟨_, hfound⟩, hlabel⟩
          · exact absurd hpure (not_foreign_ok _)
      · rintro (hkey | ⟨⟨⟨dimension, level⟩, hfound⟩, hlabel⟩)
        · exact .inl hkey
        · by_cases hkey : Acceptable dimension.factKey
          · obtain ⟨hmem, -, -, hierarchy, hhierarchy, hmemLevel⟩ := mem_of_level? hfound
            have hnames :=
              ((h.dimensions dimension hmem).hierarchies hierarchy hhierarchy).levels level
              hmemLevel
            refine .inr ⟨(dimension, level), h.resolveLevel_eq_ok_iff.2 ⟨hfound, hkey⟩, ?_⟩
            simp only [foreign_bind_iff, foreign_requireIdentifier_iff,
              discard_requireIdentifier_eq_ok_iff, hnames.sortColumn]
            exact .inr ⟨(), trivial, .inl hlabel⟩
          · exact .inl ⟨dimension, (level?_eq_some_iff.1 hfound).1, hkey⟩

end Cube.Consistent

/-- The first item or condition of a query that its cube refuses is refused for a name that may not
be written: no other reason to refuse it comes before. -/
inductive Query.Misnamed (query : Query) (cube : Cube) : Prop
  | item {front back : List SelectItem} {ref : LevelRef}
      (hselect : query.select = front ++ .level ref :: back)
      (hfront : ∃ resolved, cube.resolveItems [] front = .ok resolved)
      (hlabel : ref.label ∉ front.map SelectItem.label)
      (h : cube.Miskeyed ref ∨ cube.Mislabeled ref)
  | condition {front back : List Predicate} {predicate : Predicate}
      (hselect : ∃ resolved, cube.resolveItems [] query.select = .ok resolved)
      (hconditions : query.conditions = front ++ predicate :: back)
      (hfront : ∀ other ∈ front, ∃ resolved, cube.resolveCondition other = .ok resolved)
      (h : cube.Miskeyed predicate.ref)

/-- Items are refused for a name by the first of them that is refused at all. -/
theorem Cube.Consistent.foreign_resolveItems_iff (h : cube.Consistent) {seen : List String}
    {items : List SelectItem} :
    Foreign (cube.resolveItems seen items) ↔ ∃ front ref back, items = front ++ .level ref :: back ∧
      (∃ resolved, cube.resolveItems seen front = .ok resolved) ∧
        ref.label ∉ seen ∧ ref.label ∉ front.map SelectItem.label ∧
          (cube.Miskeyed ref ∨ cube.Mislabeled ref) := by
  induction items generalizing seen with
  | nil => simp [resolveItems]
  | cons item rest ih =>
      have hstep : Foreign (cube.resolveItems seen (item :: rest)) ↔ item.label ∉ seen ∧
          (Foreign (cube.resolveItem item) ∨ ∃ first, cube.resolveItem item = .ok first ∧
            Foreign (cube.resolveItems (item.label :: seen) rest)) := by
        have hpure (first : ResolvedItem) (others : List ResolvedItem) :
            ¬ Foreign (pure (first :: others) : Except Failure (List ResolvedItem)) :=
          not_foreign_ok _
        rw [resolveItems, foreign_refuse_iff rfl]
        simp only [foreign_bind_iff, hpure, and_false, exists_false, or_false,
          List.contains_iff_mem]
      rw [hstep, ih, h.foreign_resolveItem_iff]
      constructor
      · rintro ⟨hnew, ⟨ref, rfl, href⟩ | ⟨first, hfirst, front, ref, back, rfl, ⟨resolved, hfront⟩,
          hseen, hlabel, href⟩⟩
        · exact ⟨[], ref, rest, rfl, ⟨[], rfl⟩, hnew, by simp, href⟩
        · rw [List.mem_cons, not_or] at hseen
          refine ⟨item :: front, ref, back, rfl, ⟨first :: resolved, ?_⟩, hseen.2, ?_, href⟩
          · exact resolveItems_cons_eq_ok_iff.2 ⟨hnew, first, hfirst, resolved, hfront, rfl⟩
          · rw [List.map_cons, List.mem_cons, not_or]
            exact ⟨hseen.1, hlabel⟩
      · rintro ⟨front, ref, back, heq, ⟨resolved, hfront⟩, hseen, hlabel, href⟩
        cases front with
        | nil =>
            obtain ⟨rfl, rfl⟩ := List.cons.inj heq
            exact ⟨hseen, .inl ⟨ref, rfl, href⟩⟩
        | cons other front =>
            obtain ⟨rfl, rfl⟩ := List.cons.inj heq
            rw [List.map_cons, List.mem_cons, not_or] at hlabel
            obtain ⟨hnew, first, hfirst, others, hothers, -⟩ := resolveItems_cons_eq_ok_iff.1 hfront
            refine ⟨hnew, .inr ⟨first, hfirst, front, ref, back, rfl, ⟨others, hothers⟩, ?_,
              hlabel.2, href⟩⟩
            rw [List.mem_cons, not_or]
            exact ⟨hlabel.1, hseen⟩

theorem Cube.Consistent.foreign_resolveCondition_iff (h : cube.Consistent) {predicate : Predicate} :
    Foreign (cube.resolveCondition predicate) ↔ cube.Miskeyed predicate.ref := by
  rw [resolveCondition, foreign_bind_iff, h.foreign_resolveLevel_iff]
  refine or_iff_left ?_
  rintro ⟨⟨dimension, level⟩, -, hpure⟩
  exact not_foreign_ok _ hpure

/-- A query over a consistent cube is refused for a name or for a reason of the engine's own. -/
theorem Cube.Consistent.foreign_statement_iff (h : cube.Consistent) {query : Query} :
    Foreign (query.statement cube) ↔ query.Misnamed cube := by
  have htable (items : List ResolvedItem) (conditions : List ResolvedCondition) :
      ¬ Foreign (do
        let factTable ← requireIdentifier "table name" cube.factTable
        return Statement.ofResolved items conditions factTable) :=
    not_foreign_bind (fun hforeign => foreign_requireIdentifier_iff.1 hforeign h.factTable)
      fun _ _ => not_foreign_ok _
  rw [Query.statement, foreign_bind_iff, h.foreign_resolveItems_iff]
  simp only [foreign_bind_iff, htable, and_false, exists_false, or_false, foreign_mapM_iff,
    h.foreign_resolveCondition_iff]
  constructor
  · rintro (⟨front, ref, back, hselect, hfront, -, hlabel, href⟩ |
      ⟨resolved, hselect, front, predicate, back, hconditions, hfront, hpredicate⟩)
    · exact .item hselect hfront hlabel href
    · exact .condition ⟨resolved, hselect⟩ hconditions hfront hpredicate
  · rintro (⟨hselect, hfront, hlabel, href⟩ |
      ⟨⟨resolved, hselect⟩, hconditions, hfront, hpredicate⟩)
    · exact .inl ⟨_, _, _, hselect, hfront, by simp, hlabel, href⟩
    · exact .inr ⟨resolved, hselect, _, _, _, hconditions, hfront, hpredicate⟩

end StarCube
