import StarCube.Proofs.Query.Clauses

/-!
The columns that a statement writes, each as `alias.column`, and what the query has them for. A
column is that of a measure or of a key among the facts, the key of a dimension that is mentioned,
the column of a level or the one that sorts it.
-/

namespace StarCube

/-- The statement of a query over a cube has a column of a table to write. -/
inductive Query.Writes (query : Query) (cube : Cube) : ColumnRef → String → Prop where
  | measure {name : String} {measure : Measure} (hmem : .measure name ∈ query.select)
      (h : cube.measure? name = some measure) :
      Writes query cube ⟨Statement.factAlias, measure.column⟩ cube.factTable
  | factKey {name : String} {dimension : Dimension} (hmem : name ∈ query.mentions)
      (h : cube.dimension? name = some dimension) :
      Writes query cube ⟨Statement.factAlias, dimension.factKey⟩ cube.factTable
  | key {name : String} {dimension : Dimension} (hmem : name ∈ query.mentions)
      (h : cube.dimension? name = some dimension) :
      Writes query cube (dimension.ref dimension.keyColumn) dimension.table
  | level {ref : LevelRef} {dimension : Dimension} {level : Level} (hmem : ref ∈ query.levels)
      (h : cube.level? ref = some (dimension, level)) :
      Writes query cube (dimension.ref level.column) dimension.table
  | sort {ref : LevelRef} {dimension : Dimension} {level : Level} (hmem : ref ∈ query.levels)
      (h : cube.level? ref = some (dimension, level)) :
      Writes query cube (dimension.ref level.sortColumn) dimension.table
  | condition {predicate : Predicate} {dimension : Dimension} {level : Level}
      (hmem : predicate ∈ query.conditions) (hvalues : predicate.values ≠ [])
      (h : cube.level? predicate.ref = some (dimension, level)) :
      Writes query cube (dimension.ref level.column) dimension.table

theorem Query.mem_levels {query : Query} {ref : LevelRef} :
    ref ∈ query.levels ↔ .level ref ∈ query.select := by
  rw [levels, List.mem_filterMap]
  constructor
  · rintro ⟨item, hitem, heq⟩
    cases item with
    | measure name => simp [SelectItem.level?] at heq
    | level other =>
        obtain rfl : other = ref := by simpa [SelectItem.level?] using heq
        exact hitem
  · exact fun hitem => ⟨_, hitem, rfl⟩

/-- A condition writes its column if it has a value to compare it with. -/
theorem ResolvedCondition.mem_refs_iff {resolved : ResolvedCondition} {ref : ColumnRef} :
    ref ∈ resolved.condition.refs ↔
      resolved.predicate.values ≠ [] ∧ ref = resolved.dimension.ref resolved.level.column := by
  obtain ⟨dimension, level, predicate⟩ := resolved
  cases predicate with
  | equals ref value => simp [condition, Condition.refs, Predicate.values]
  | among ref values => cases values <;> simp [condition, Condition.refs, Predicate.values]

namespace Query.Resolves

variable {query : Query} {cube : Cube} {items : List ResolvedItem}
  {conditions : List ResolvedCondition}

/-- The column, groups and order of an item are those of its measure or level. -/
theorem writes_of_item (h : query.Resolves cube items conditions) {item : ResolvedItem}
    (hitem : item ∈ items) {ref : ColumnRef}
    (href : ref = item.column.ref ∨ ref ∈ item.groups ∨ item.order? = some ref) :
    ∃ table, query.Writes cube ref table := by
  obtain ⟨selected, hselected, hresolves⟩ := exists_of_forall₂ h.items.flip hitem
  cases hresolves with
  | measure hmeasure column label =>
      rcases href with rfl | href | href
      · exact ⟨_, .measure hselected hmeasure⟩
      · simp [ResolvedItem.groups] at href
      · simp [ResolvedItem.order?] at href
  | level hlevel joinable column sortColumn label =>
      have hmem := mem_levels.2 hselected
      rcases href with rfl | href | href
      · exact ⟨_, .level hmem hlevel⟩
      · rcases List.mem_pair.1 href with rfl | rfl
        · exact ⟨_, .level hmem hlevel⟩
        · exact ⟨_, .sort hmem hlevel⟩
      · obtain rfl := Option.some.inj href
        exact ⟨_, .sort hmem hlevel⟩

/-- The names of the joined dimensions are mentioned. -/
theorem mem_mentions (h : query.Resolves cube items conditions) {dimension : Dimension}
    (hdimension : dimension ∈ Statement.mentioned items conditions) :
    dimension.name ∈ query.mentions ∧ cube.dimension? dimension.name = some dimension := by
  obtain ⟨hfirsts, hnames⟩ := h.firsts_mentioned
  exact ⟨(hfirsts.mem_iff _).1 (List.mem_map_of_mem hdimension), hnames dimension hdimension⟩

theorem mem_mentioned (h : query.Resolves cube items conditions) {name : String}
    {dimension : Dimension} (hname : name ∈ query.mentions)
    (hdimension : cube.dimension? name = some dimension) :
    dimension ∈ Statement.mentioned items conditions := by
  obtain ⟨hfirsts, hnames⟩ := h.firsts_mentioned
  obtain ⟨found, hfound, rfl⟩ := List.mem_map.1 ((hfirsts.mem_iff name).2 hname)
  rw [hnames found hfound] at hdimension
  exact Option.some.inj hdimension ▸ hfound

/-- A statement writes the columns that the query has for it. -/
theorem writes_of_mem_refs (h : query.Resolves cube items conditions) {ref : ColumnRef}
    (href : ref ∈ (Statement.ofResolved items conditions cube.factTable).refs) :
    ∃ table, query.Writes cube ref table := by
  simp only [Statement.refs, Statement.ofResolved, List.mem_append] at href
  rcases href with (((hcolumn | hjoin) | hcondition) | hgroup) | horder
  · obtain ⟨item, hitem, rfl⟩ : ∃ item ∈ items, item.column.ref = ref := by simpa using hcolumn
    exact h.writes_of_item hitem (.inl rfl)
  · obtain ⟨dimension, hdimension, href⟩ :
        ∃ dimension ∈ Statement.mentioned items conditions,
          ref = dimension.join.factKey ∨ ref = dimension.join.keyColumn := by simpa using hjoin
    obtain ⟨hname, hfound⟩ := h.mem_mentions hdimension
    rcases href with rfl | rfl
    · exact ⟨_, .factKey hname hfound⟩
    · exact ⟨_, .key hname hfound⟩
  · obtain ⟨resolved, hresolved, href⟩ :
        ∃ resolved ∈ conditions, ref ∈ resolved.condition.refs := by
      simpa using hcondition
    obtain ⟨hvalues, rfl⟩ := ResolvedCondition.mem_refs_iff.1 href
    obtain ⟨predicate, hpredicate, hof⟩ := exists_of_forall₂ h.conditions.flip hresolved
    rw [hof.predicate_eq] at hvalues
    exact ⟨_, .condition hpredicate hvalues hof.level⟩
  · obtain ⟨item, hitem, href⟩ := List.mem_flatMap.1 (Statement.mem_of_mem_distinctColumns hgroup)
    exact h.writes_of_item hitem (.inr (.inl href))
  · obtain ⟨item, hitem, href⟩ := List.mem_filterMap.1 (Statement.mem_of_mem_distinctColumns horder)
    exact h.writes_of_item hitem (.inr (.inr href))

/-- A column that the query has for its statement is written there, up to where the alias ends. -/
theorem exists_mem_refs_of_writes (h : query.Resolves cube items conditions) {ref : ColumnRef}
    {table : String} (hwrites : query.Writes cube ref table) :
    ∃ written ∈ (Statement.ofResolved items conditions cube.factTable).refs,
      written.text = ref.text := by
  simp only [Statement.refs, Statement.ofResolved, List.mem_append]
  cases hwrites with
  | @measure name measure hmem hmeasure =>
      obtain ⟨item, hitem, hresolves⟩ := exists_of_forall₂ h.items hmem
      cases hresolves with
      | measure hother column label =>
          obtain rfl := Option.some.inj (hmeasure.symm.trans hother)
          exact ⟨_, .inl (.inl (.inl (.inl (by simpa using ⟨_, hitem, rfl⟩)))), rfl⟩
  | factKey hmem hdimension =>
      have hmentioned := h.mem_mentioned hmem hdimension
      exact ⟨_, .inl (.inl (.inl (.inr (by simpa using ⟨_, hmentioned, .inl rfl⟩)))), rfl⟩
  | key hmem hdimension =>
      have hmentioned := h.mem_mentioned hmem hdimension
      exact ⟨_, .inl (.inl (.inl (.inr (by simpa using ⟨_, hmentioned, .inr rfl⟩)))), rfl⟩
  | level hmem hlevel =>
      obtain ⟨item, hitem, hresolves⟩ := exists_of_forall₂ h.items (mem_levels.1 hmem)
      cases hresolves with
      | level hother joinable column sortColumn label =>
          obtain ⟨rfl, rfl⟩ := Prod.mk.inj (Option.some.inj (hlevel.symm.trans hother))
          exact ⟨_, .inl (.inl (.inl (.inl (by simpa using ⟨_, hitem, rfl⟩)))), rfl⟩
  | @sort ref dimension level hmem hlevel =>
      obtain ⟨item, hitem, hresolves⟩ := exists_of_forall₂ h.items (mem_levels.1 hmem)
      cases hresolves with
      | level hother joinable column sortColumn label =>
          obtain ⟨rfl, rfl⟩ := Prod.mk.inj (Option.some.inj (hlevel.symm.trans hother))
          have horder : dimension.ref level.sortColumn ∈ items.filterMap ResolvedItem.order? :=
            List.mem_filterMap.2 ⟨_, hitem, rfl⟩
          have htext := (Statement.firsts_distinctColumns _).mem_iff _ |>.2
            (List.mem_map_of_mem (f := ColumnRef.text) horder)
          obtain ⟨written, hwritten, heq⟩ := List.mem_map.1 htext
          exact ⟨written, .inr hwritten, heq⟩
  | condition hmem hvalues hlevel =>
      obtain ⟨resolved, hresolved, hof⟩ := exists_of_forall₂ h.conditions hmem
      obtain ⟨rfl, rfl⟩ := Prod.mk.inj (Option.some.inj (hlevel.symm.trans hof.level))
      rw [← hof.predicate_eq] at hvalues
      have href := ResolvedCondition.mem_refs_iff.2 ⟨hvalues, rfl⟩
      exact ⟨_, .inl (.inl (.inr (by simpa using ⟨_, hresolved, href⟩))), rfl⟩

end Query.Resolves

end StarCube
