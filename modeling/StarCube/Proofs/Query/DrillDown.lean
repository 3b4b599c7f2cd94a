import StarCube.Proofs.Query.Columns
import StarCube.Proofs.Query.Denotation
import StarCube.Proofs.Query.Reachability

/-!
Drilling down. The levels of a path go in front of the select list, one for each label that is not
selected yet. A level is told by its label alone, so a path leads where it names only as far as
levels of one label are the same; and a level has no place beside a measure of the name of its
label.
-/

namespace StarCube

namespace Query

variable {cube : Cube} {query : Query} {selected path : List String} {refs added : List LevelRef}

/-- The levels that a path adds to those of the labels that are selected: of its other levels the
first of each label, in the order of the path. -/
structure Adds (selected : List String) (refs added : List LevelRef) : Prop where
  sublist : added.Sublist refs
  nodup : (added.map LevelRef.label).Nodup
  fresh : ∀ ref ∈ added, ref.label ∉ selected
  first : ∀ ref ∈ added, refs.find? (·.label == ref.label) = some ref
  covered : ∀ ref ∈ refs, ref.label ∈ selected ∨ ref.label ∈ added.map LevelRef.label

namespace Adds

theorem nil : Adds selected [] [] :=
  ⟨.slnil, .nil, by simp, by simp, by simp⟩

/-- A level whose label is selected adds nothing. -/
theorem skip {ref : LevelRef} (h : Adds selected refs added) (href : ref.label ∈ selected) :
    Adds selected (ref :: refs) added where
  sublist := h.sublist.cons ref
  nodup := h.nodup
  fresh := h.fresh
  first other hother := by
    have hne : ref.label ≠ other.label := fun heq => h.fresh other hother (heq ▸ href)
    rw [List.find?_cons_of_neg (by simpa using hne), h.first other hother]
  covered := List.forall_mem_cons.2 ⟨.inl href, h.covered⟩

/-- Any other level is added, and its label is selected from then on. -/
theorem add {ref : LevelRef} (h : Adds (ref.label :: selected) refs added)
    (href : ref.label ∉ selected) : Adds selected (ref :: refs) (ref :: added) where
  sublist := h.sublist.cons_cons ref
  nodup := by
    rw [List.map_cons, List.nodup_cons]
    refine ⟨fun hmem => ?_, h.nodup⟩
    obtain ⟨other, hother, heq⟩ := List.mem_map.1 hmem
    exact h.fresh other hother (heq ▸ List.mem_cons_self)
  fresh := List.forall_mem_cons.2 ⟨href, fun other hother hmem =>
    h.fresh other hother (List.mem_cons_of_mem _ hmem)⟩
  first := by
    refine List.forall_mem_cons.2
      ⟨List.find?_cons_of_pos (beq_self_eq_true _), fun other hother => ?_⟩
    have hne : ref.label ≠ other.label := fun heq =>
      h.fresh other hother (heq ▸ List.mem_cons_self)
    rw [List.find?_cons_of_neg (by simpa using hne), h.first other hother]
  covered := by
    refine List.forall_mem_cons.2 ⟨.inr List.mem_cons_self, fun other hother => ?_⟩
    obtain hmem | hmem := h.covered other hother
    · obtain heq | hmem := List.mem_cons.1 hmem
      · exact .inr (heq ▸ List.mem_cons_self)
      · exact .inl hmem
    · exact .inr (List.mem_cons_of_mem _ hmem)

end Adds

theorem pathLevels_eq_ok (hpath : List.Forall₂ cube.Denotes path refs) (selected : List String) :
    ∃ added, pathLevels cube selected path = .ok added ∧ Adds selected refs added := by
  induction hpath generalizing selected with
  | nil => exact ⟨[], rfl, .nil⟩
  | @cons text ref path refs hdenotes _ ih =>
      have hlevel := Cube.levelRef_eq_ok_iff.2 hdenotes
      by_cases href : ref.label ∈ selected
      · obtain ⟨added, hadded, hadds⟩ := ih selected
        refine ⟨added, Except.bind_eq_ok_iff.2 ⟨ref, hlevel, ?_⟩, hadds.skip href⟩
        rw [if_pos (by simpa using href), hadded]
      · obtain ⟨added, hadded, hadds⟩ := ih (ref.label :: selected)
        refine ⟨ref :: added, Except.bind_eq_ok_iff.2 ⟨ref, hlevel, ?_⟩, hadds.add href⟩
        rw [if_neg (by simpa using href), hadded]
        rfl

/-- The query with levels in front of its select list. -/
def withLevels (query : Query) (added : List LevelRef) : Query :=
  ⟨added.map SelectItem.level ++ query.select, query.cube, query.conditions⟩

theorem levels_withLevels (query : Query) (added : List LevelRef) :
    (query.withLevels added).levels = added ++ query.levels := by
  rw [withLevels, levels, List.filterMap_append, List.filterMap_map]
  congr 1
  exact List.filterMap_some

theorem drilled_eq_ok (query : Query) (hpath : List.Forall₂ cube.Denotes path refs) :
    ∃ added, query.drilled cube path = .ok (query.withLevels added) ∧
      Adds (query.levels.map LevelRef.label) refs added := by
  obtain ⟨added, hadded, hadds⟩ := pathLevels_eq_ok hpath (query.levels.map LevelRef.label)
  exact ⟨added, Except.bind_eq_ok_iff.2 ⟨added, hadded, rfl⟩, hadds⟩

end Query

/-- A level of a cube that can be selected: the names that are put together for it may be
written. -/
def Cube.Offers (cube : Cube) (ref : LevelRef) : Prop :=
  ∃ dimension level, cube.level? ref = some (dimension, level) ∧ Acceptable dimension.factKey ∧
    Acceptable ref.label

/-- Some levels present a column of a dimension: one of them has it that is the first of its
label. -/
def Cube.Presents (cube : Cube) (levels : List LevelRef) (dimension : Dimension)
    (column : String) : Prop :=
  ∃ first level, levels.find? (·.label == first.label) = some first ∧
    cube.level? first = some (dimension, level) ∧ level.column = column

/-- The first level of a label presents its column. -/
theorem Cube.presents_of_find? {cube : Cube} {levels : List LevelRef} {label : String}
    {first : LevelRef} (hfirst : levels.find? (·.label == label) = some first)
    {dimension : Dimension} {level : Level} (hlevel : cube.level? first = some (dimension, level)) :
    cube.Presents levels dimension level.column := by
  obtain rfl : first.label = label := by simpa using List.find?_some hfirst
  exact ⟨first, level, hfirst, hlevel, rfl⟩

/-- A level of the query has a column of a dimension, and its statement selects it from the table of
that dimension. -/
def Query.Shows (query : Query) (cube : Cube) (statement : Statement) (dimension : Dimension)
    (column : String) : Prop :=
  dimension.join ∈ statement.joins ∧
    ∃ ref ∈ query.levels, ∃ level, cube.level? ref = some (dimension, level) ∧
      level.column = column ∧
      .plain (dimension.ref column) ref.label ∈ statement.columns

section Compiled

variable {cube : Cube} {query : Query} {statement : Statement}

/-- The column of each level of a query is selected from the table of its dimension. -/
theorem Query.shows_of_level (h : query.statement cube = .ok statement) {ref : LevelRef}
    (href : ref ∈ query.levels) {dimension : Dimension} {level : Level}
    (hlevel : cube.level? ref = some (dimension, level)) :
    query.Shows cube statement dimension level.column := by
  obtain ⟨items, conditions, hresolves, rfl⟩ := resolves_of_statement h
  obtain ⟨item, hitem, hitemLevel⟩ := List.mem_filterMap.1 href
  obtain ⟨found, hfound, hitemResolves⟩ := exists_of_forall₂ hresolves.items hitem
  cases hitemResolves with
  | measure hmeasure column label => cases hitemLevel
  | @level other foundDimension foundLevel hother joinable column sortColumn label =>
      obtain rfl := Option.some.inj hitemLevel
      obtain ⟨rfl, rfl⟩ := Prod.mk.inj (Option.some.inj (hother.symm.trans hlevel))
      refine ⟨List.mem_map_of_mem ?_, other, href, foundLevel, hlevel, rfl,
        List.mem_map.2 ⟨_, hfound, rfl⟩⟩
      rw [Statement.mentioned, List.mem_eraseDups]
      exact List.mem_append_left _ (List.mem_filterMap.2 ⟨_, hfound, rfl⟩)

/-- Items that can each be selected are selected together, or a label is selected twice. -/
theorem Cube.resolveItems_of_forall {items : List SelectItem}
    (h : ∀ item ∈ items, ∃ found, cube.resolveItem item = .ok found) (seen : List String) :
    (∃ resolved, cube.resolveItems seen items = .ok resolved) ∨
      ∃ label, cube.resolveItems seen items = .error (.semantic (.repeatedLabel label)) := by
  induction items generalizing seen with
  | nil => exact .inl ⟨[], rfl⟩
  | cons item rest ih =>
      rw [List.forall_mem_cons] at h
      by_cases hseen : seen.contains item.label = true
      · refine .inr ⟨item.label, ?_⟩
        rw [resolveItems, if_pos hseen]
        rfl
      · obtain ⟨first, hfirst⟩ := h.1
        have hcons : cube.resolveItems seen (item :: rest) =
            (cube.resolveItems (item.label :: seen) rest).map (first :: ·) := by
          rw [resolveItems, if_neg hseen, hfirst]
          cases cube.resolveItems (item.label :: seen) rest <;> rfl
        rw [hcons]
        obtain ⟨others, hothers⟩ | ⟨label, hlabel⟩ := ih h.2 (item.label :: seen)
        · exact .inl ⟨first :: others, by rw [hothers]; rfl⟩
        · exact .inr ⟨label, by rw [hlabel]; rfl⟩

theorem Cube.exists_resolveItems_iff {items : List SelectItem} :
    (∃ resolved, cube.resolveItems [] items = .ok resolved) ↔
      (∀ item ∈ items, ∃ found, cube.resolveItem item = .ok found) ∧
        (items.map SelectItem.label).Nodup := by
  constructor
  · rintro ⟨resolved, hresolved⟩
    obtain ⟨hitems, hnodup, -⟩ := resolveItems_eq_ok_iff.1 hresolved
    refine ⟨fun item hitem => ?_, hnodup⟩
    obtain ⟨found, -, hfound⟩ := exists_of_forall₂ hitems hitem
    exact ⟨found, hfound⟩
  · rintro ⟨hitems, hnodup⟩
    obtain ⟨resolved, hresolved⟩ := Except.exists_mapM_eq_ok hitems
    exact ⟨resolved, resolveItems_eq_ok_iff.2 ⟨Except.forall₂_of_mapM hresolved, hnodup, by simp⟩⟩

theorem Cube.Consistent.offers_iff (hcube : cube.Consistent) {ref : LevelRef} :
    cube.Offers ref ↔ ∃ found, cube.resolveItem (.level ref) = .ok found := by
  simp only [Cube.Offers, hcube.resolveItem_level_eq_ok_iff]
  constructor
  · rintro ⟨dimension, level, hlevel, hkey, hlabel⟩
    exact ⟨_, dimension, level, hlevel, hkey, hlabel, rfl⟩
  · rintro ⟨_, dimension, level, hlevel, hkey, hlabel, -⟩
    exact ⟨dimension, level, hlevel, hkey, hlabel⟩

end Compiled

namespace Query

variable {cube : Cube} {query : Query} {statement : Statement} {refs added : List LevelRef}

theorem forall_withLevels_iff (h : query.statement cube = .ok statement) (hcube : cube.Consistent) :
    (∀ item ∈ (query.withLevels added).select, ∃ found, cube.resolveItem item = .ok found) ↔
      ∀ ref ∈ added, cube.Offers ref := by
  obtain ⟨items, hitems, -⟩ := Except.bind_eq_ok_iff.1 h
  have hselect := (Cube.exists_resolveItems_iff.1 ⟨items, hitems⟩).1
  rw [withLevels, List.forall_mem_append, List.forall_mem_map]
  simp only [hcube.offers_iff]
  exact and_iff_left hselect

/-- Further levels change what the select list of a query resolves to, and nothing else. -/
theorem statement_withLevels_eq (h : query.statement cube = .ok statement) (added : List LevelRef) :
    ∃ finish, (query.withLevels added).statement cube =
      (cube.resolveItems [] (query.withLevels added).select).map finish := by
  obtain ⟨items, hitems, h⟩ := Except.bind_eq_ok_iff.1 h
  obtain ⟨conditions, hconditions, h⟩ := Except.bind_eq_ok_iff.1 h
  obtain ⟨factTable, htable, -⟩ := Except.bind_eq_ok_iff.1 h
  refine ⟨fun items => .ofResolved items conditions factTable, ?_⟩
  have hstatement : (query.withLevels added).statement cube =
      cube.resolveItems [] (query.withLevels added).select >>= fun items =>
        query.conditions.mapM cube.resolveCondition >>= fun conditions =>
          requireIdentifier "table name" cube.factTable >>= fun factTable =>
            .ok (.ofResolved items conditions factTable) := rfl
  rw [hstatement, hconditions, htable]
  cases cube.resolveItems [] (query.withLevels added).select <;> rfl

/-- The labels that a path adds are different from each other and from those of the levels that are
selected, so that measures alone may have one of them. -/
theorem Adds.nodup_labels_iff (hadds : Adds (query.levels.map LevelRef.label) refs added)
    (hnodup : (query.select.map SelectItem.label).Nodup) :
    ((query.withLevels added).select.map SelectItem.label).Nodup ↔
      ∀ ref ∈ refs, ref.label ∉ query.measures := by
  have hlabels : (query.withLevels added).select.map SelectItem.label =
      added.map LevelRef.label ++ query.select.map SelectItem.label := by
    rw [withLevels, List.map_append, List.map_map]
    rfl
  rw [hlabels, List.nodup_append]
  constructor
  · rintro ⟨-, -, happart⟩ ref href hmeasure
    obtain ⟨item, hitem, hname⟩ := List.mem_filterMap.1 hmeasure
    have hlabel : item.label = ref.label := by
      cases item with
      | measure name => exact Option.some.inj hname
      | level other => cases hname
    obtain hselected | hadded := hadds.covered ref href
    · obtain ⟨other, hother, heq⟩ := List.mem_map.1 hselected
      obtain rfl :=
        List.inj_on_of_nodup_map hnodup hitem (mem_levels.1 hother) (hlabel.trans heq.symm)
      cases hname
    · exact happart _ hadded _ (List.mem_map_of_mem hitem) hlabel.symm
  · intro hmeasures
    refine ⟨hadds.nodup, hnodup, ?_⟩
    rintro label hadded _ hselected rfl
    obtain ⟨ref, href, hlabel⟩ := List.mem_map.1 hadded
    obtain ⟨item, hitem, heq⟩ := List.mem_map.1 hselected
    rw [← hlabel] at heq
    cases item with
    | measure name =>
        refine hmeasures ref (hadds.sublist.subset href) (List.mem_filterMap.2 ⟨_, hitem, ?_⟩)
        exact congrArg some heq
    | level other => exact hadds.fresh ref href (List.mem_map.2 ⟨other, mem_levels.2 hitem, heq⟩)

/-- With the levels that a path adds a query is compiled if these can be selected and no measure
that it selects has the name of the label of a level of the path. -/
theorem Adds.compiles_iff (hadds : Adds (query.levels.map LevelRef.label) refs added)
    (hcube : cube.Consistent) (h : query.statement cube = .ok statement) :
    (∃ drilled, (query.withLevels added).statement cube = .ok drilled) ↔
      (∀ ref ∈ added, cube.Offers ref) ∧ ∀ ref ∈ refs, ref.label ∉ query.measures := by
  obtain ⟨items, hitems, -⟩ := Except.bind_eq_ok_iff.1 h
  have hnodup := (Cube.exists_resolveItems_iff.1 ⟨items, hitems⟩).2
  obtain ⟨finish, hfinish⟩ := statement_withLevels_eq h added
  have hmap : (∃ drilled, (query.withLevels added).statement cube = .ok drilled) ↔
      ∃ resolved, cube.resolveItems [] (query.withLevels added).select = .ok resolved := by
    rw [hfinish]
    cases cube.resolveItems [] (query.withLevels added).select <;> simp [Except.map]
  rw [hmap, Cube.exists_resolveItems_iff, forall_withLevels_iff h hcube,
    hadds.nodup_labels_iff hnodup]

/-- If a measure has such a name and nothing else is amiss, the query is refused for a label that is
selected twice. -/
theorem Adds.refused (hadds : Adds (query.levels.map LevelRef.label) refs added)
    (hcube : cube.Consistent) (h : query.statement cube = .ok statement)
    (hoffers : ∀ ref ∈ added, cube.Offers ref) {ref : LevelRef} (href : ref ∈ refs)
    (hmeasure : ref.label ∈ query.measures) :
    ∃ label, (query.withLevels added).statement cube =
      .error (.semantic (.repeatedLabel label)) := by
  obtain ⟨finish, hfinish⟩ := statement_withLevels_eq h added
  obtain ⟨resolved, hresolved⟩ | ⟨label, hlabel⟩ :=
    Cube.resolveItems_of_forall ((forall_withLevels_iff h hcube).2 hoffers) []
  · have hdrilled : (query.withLevels added).statement cube = .ok (finish resolved) := by
      rw [hfinish, hresolved]
      rfl
    exact absurd hmeasure (((hadds.compiles_iff hcube h).1 ⟨_, hdrilled⟩).2 ref href)
  · exact ⟨label, by rw [hfinish, hlabel]; rfl⟩

/-- The levels of a compiled query that is drilled down are those of the query and of the path that
are the first of their labels. -/
theorem Adds.mem_levels_iff (hadds : Adds (query.levels.map LevelRef.label) refs added)
    (h : (query.withLevels added).statement cube = .ok statement) {ref : LevelRef} :
    ref ∈ (query.withLevels added).levels ↔
      (query.levels ++ refs).find? (·.label == ref.label) = some ref := by
  obtain ⟨items, hitems, -⟩ := Except.bind_eq_ok_iff.1 h
  have hnodup := (Cube.exists_resolveItems_iff.1 ⟨items, hitems⟩).2
  rw [levels_withLevels, List.mem_append, List.find?_append]
  cases hselected : query.levels.find? (·.label == ref.label) with
  | none =>
      have hnew : ref.label ∉ query.levels.map LevelRef.label := by
        simpa [List.find?_eq_none] using hselected
      rw [Option.none_or]
      refine ⟨?_, fun hfirst => .inl ?_⟩
      · rintro (hmem | hmem)
        · exact hadds.first ref hmem
        · exact absurd (List.mem_map_of_mem hmem) hnew
      · have hmem := List.mem_of_find?_eq_some hfirst
        obtain ⟨other, hother, hlabel⟩ :=
          List.mem_map.1 ((hadds.covered ref hmem).resolve_left hnew)
        rw [← hlabel, hadds.first other hother] at hfirst
        exact Option.some.inj hfirst ▸ hother
  | some one =>
      have hone := List.mem_of_find?_eq_some hselected
      have hlabel : one.label = ref.label := by simpa using List.find?_some hselected
      rw [Option.some_or, Option.some_inj]
      refine ⟨?_, fun heq => .inr (heq ▸ hone)⟩
      rintro (hmem | hmem)
      · exact absurd (List.mem_map.2 ⟨one, hone, hlabel⟩) (hadds.fresh ref hmem)
      · have hselect : (query.select.map SelectItem.label).Nodup := by
          rw [withLevels, List.map_append] at hnodup
          exact hnodup.of_append_right
        have hitem :=
          List.inj_on_of_nodup_map hselect (mem_levels.1 hone) (mem_levels.1 hmem) hlabel
        exact SelectItem.level.inj hitem

/-- A query that is drilled down shows just what the levels of the query and of the path present. -/
theorem Adds.shows_iff_presents (hadds : Adds (query.levels.map LevelRef.label) refs added)
    (h : (query.withLevels added).statement cube = .ok statement) {dimension : Dimension}
    {column : String} :
    (query.withLevels added).Shows cube statement dimension column ↔
      cube.Presents (query.levels ++ refs) dimension column := by
  constructor
  · rintro ⟨-, ref, href, level, hlevel, hcolumn, -⟩
    exact ⟨ref, level, (hadds.mem_levels_iff h).1 href, hlevel, hcolumn⟩
  · rintro ⟨first, level, hfirst, hlevel, rfl⟩
    exact shows_of_level h ((hadds.mem_levels_iff h).2 hfirst) hlevel

end Query

end StarCube
