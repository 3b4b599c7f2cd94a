import StarCube.Proofs.Query.Columns
import StarCube.Proofs.Sql.Sentence

/-!
Which queries have statements that are sentences of the grammar. All names of a consistent cube are
identifiers, but an identifier may have points, which the grammar has for tables only.
-/

namespace StarCube

/-- The names of the dimensions of a cube are identifiers. -/
def Cube.Identified (cube : Cube) : Prop :=
  ∀ dimension ∈ cube.dimensions, IsIdentifier dimension.name

theorem Cube.Identified.renameTables {cube : Cube} (h : cube.Identified)
    (rename : String → String) : (cube.renameTables rename).Identified := by
  intro dimension hdimension
  obtain ⟨before, hbefore, rfl⟩ := List.mem_map.1 hdimension
  exact h before hbefore

/-- No label of a query and no column that it has for its statement has points. -/
structure Query.Undotted (query : Query) (cube : Cube) : Prop where
  labels : ∀ item ∈ query.select, StarCube.Undotted item.label
  columns : ∀ ref table, query.Writes cube ref table → ref.Undotted

/-- Whether a column has points is seen from its text, which has one more than the names in it. -/
theorem ColumnRef.undotted_iff {ref : ColumnRef} :
    ref.Undotted ↔ ref.text.toList.count '.' = 1 := by
  have hcount : ref.text.toList.count '.' =
      ref.tableAlias.toList.count '.' + 1 + ref.column.toList.count '.' := by
    simp [ColumnRef.text, Nat.add_assoc, Nat.add_comm 1]
  have hboth : ref.Undotted ↔
      ref.tableAlias.toList.count '.' = 0 ∧ ref.column.toList.count '.' = 0 := by
    rw [List.count_eq_zero, List.count_eq_zero]
    exact ⟨fun h => ⟨h.tableAlias, h.column⟩, fun h => ⟨h.1, h.2⟩⟩
  rw [hcount, hboth]
  omega

namespace Query.Resolves

variable {query : Query} {cube : Cube} {items : List ResolvedItem}
  {conditions : List ResolvedCondition}

/-- A dimension that is mentioned can be joined. -/
theorem joinable_of_mem_mentioned (h : query.Resolves cube items conditions) {dimension : Dimension}
    (hdimension : dimension ∈ Statement.mentioned items conditions) : dimension.Joinable := by
  rcases List.mem_append.1 (List.mem_eraseDups.1 hdimension) with hitem | hcondition
  · obtain ⟨item, hitem, hdimension⟩ := List.mem_filterMap.1 hitem
    obtain ⟨selected, -, hresolves⟩ := exists_of_forall₂ h.items.flip hitem
    cases hresolves with
    | measure hmeasure column label => simp [ResolvedItem.dimension?] at hdimension
    | level hlevel joinable column sortColumn label =>
        obtain rfl := Option.some.inj hdimension
        exact joinable
  · obtain ⟨resolved, hresolved, rfl⟩ := List.mem_map.1 hcondition
    obtain ⟨predicate, -, hof⟩ := exists_of_forall₂ h.conditions.flip hresolved
    exact hof.joinable

/-- The names of a resolved item are identifiers. -/
theorem identified_of_mem (h : query.Resolves cube items conditions) (hcube : cube.Identified)
    {item : ResolvedItem} (hitem : item ∈ items) :
    item.column.Identified ∧ (∀ ref ∈ item.groups, ref.Identified) ∧
      ∀ ref, item.order? = some ref → ref.Identified := by
  obtain ⟨selected, -, hresolves⟩ := exists_of_forall₂ h.items.flip hitem
  cases hresolves with
  | measure hmeasure column label =>
      have hfact : IsIdentifier Statement.factAlias := by unfold IsIdentifier; decide
      exact ⟨⟨⟨hfact, column⟩, label⟩, by simp [ResolvedItem.groups], by simp [ResolvedItem.order?]⟩
  | level hlevel joinable column sortColumn label =>
      have halias := Dimension.isIdentifier_tableAlias
        (hcube _ (Cube.mem_of_dimension? (Cube.level?_eq_some_iff.1 hlevel).1))
      refine ⟨⟨⟨halias, column⟩, label⟩, ?_, ?_⟩
      · intro ref href
        rcases List.mem_pair.1 href with rfl | rfl
        · exact ⟨halias, column⟩
        · exact ⟨halias, sortColumn⟩
      · intro ref href
        obtain rfl := Option.some.inj href
        exact ⟨halias, sortColumn⟩

theorem identified_condition (h : query.Resolves cube items conditions) (hcube : cube.Identified)
    {resolved : ResolvedCondition} (hresolved : resolved ∈ conditions) :
    resolved.condition.ref.Identified := by
  obtain ⟨predicate, -, hof⟩ := exists_of_forall₂ h.conditions.flip hresolved
  have href : resolved.condition.ref = resolved.dimension.ref resolved.level.column := by
    unfold ResolvedCondition.condition
    cases resolved.predicate <;> rfl
  rw [href]
  exact ⟨Dimension.isIdentifier_tableAlias
    (hcube _ (Cube.mem_of_dimension? (Cube.level?_eq_some_iff.1 hof.level).1)), hof.column⟩

/-- Items have an order just if they have groups: both are those of levels. -/
theorem orders_eq_nil_iff (items : List ResolvedItem) :
    Statement.distinctColumns (items.filterMap ResolvedItem.order?) = [] ↔
      Statement.distinctColumns (items.flatMap ResolvedItem.groups) = [] := by
  have hdistinct (refs : List ColumnRef) : Statement.distinctColumns refs = [] ↔ refs = [] := by
    simpa using (Statement.firsts_distinctColumns refs).eq_nil_iff
  rw [hdistinct, hdistinct, List.filterMap_eq_nil_iff, List.flatMap_eq_nil_iff]
  refine forall₂_congr fun item _ => ?_
  cases item <;> simp [ResolvedItem.order?, ResolvedItem.groups]

theorem identified (h : query.Resolves cube items conditions) (hcube : cube.Identified) :
    (Statement.ofResolved items conditions cube.factTable).Identified where
  columns := by
    intro column hcolumn
    obtain ⟨item, hitem, rfl⟩ := List.mem_map.1 hcolumn
    exact (h.identified_of_mem hcube hitem).1
  factTable := h.factTable
  joins := by
    intro join hjoin
    obtain ⟨dimension, hdimension, rfl⟩ := List.mem_map.1 hjoin
    have hjoinable := h.joinable_of_mem_mentioned hdimension
    have halias := Dimension.isIdentifier_tableAlias
      (hcube _ (Cube.mem_of_dimension? (h.mem_mentions hdimension).2))
    exact ⟨hjoinable.table, halias, rfl, hjoinable.factKey, rfl, hjoinable.keyColumn⟩
  conditions := by
    intro condition hcondition
    obtain ⟨resolved, hresolved, rfl⟩ := List.mem_map.1 hcondition
    exact h.identified_condition hcube hresolved
  groups := by
    intro ref href
    obtain ⟨item, hitem, href⟩ := List.mem_flatMap.1 (Statement.mem_of_mem_distinctColumns href)
    exact (h.identified_of_mem hcube hitem).2.1 ref href
  orders := by
    intro ref href
    obtain ⟨item, hitem, href⟩ := List.mem_filterMap.1 (Statement.mem_of_mem_distinctColumns href)
    exact (h.identified_of_mem hcube hitem).2.2 ref href
  orders_eq_nil_iff := orders_eq_nil_iff items

/-- The labels of a statement are those of the items that are selected. -/
theorem map_label_eq (h : query.Resolves cube items conditions) :
    items.map (fun item => item.column.label) = query.select.map SelectItem.label := by
  have hlabels : List.Forall₂ Eq (items.map fun item => item.column.label)
      (query.select.map SelectItem.label) := by
    rw [List.forall₂_map_left_iff, List.forall₂_map_right_iff]
    refine h.items.flip.imp fun item selected hresolves => ?_
    cases hresolves with
    | @measure name measure hmeasure column label =>
        have hname : measure.name = name := by simpa using List.find?_some hmeasure
        exact hname
    | level hlevel joinable column sortColumn label => rfl
  rwa [List.forall₂_eq_eq_eq] at hlabels

end Query.Resolves

/-- The statement of a query is a sentence just if the query selects something and nothing that it
names has points. -/
theorem Query.isSentence_iff {query : Query} {cube : Cube} {statement : Statement}
    (hcube : cube.Identified) (h : query.statement cube = .ok statement) :
    IsSentence statement.text ↔ query.select ≠ [] ∧ query.Undotted cube := by
  obtain ⟨items, conditions, hresolves, rfl⟩ := resolves_of_statement h
  have hlabels := hresolves.map_label_eq
  have hcolumns : (Statement.ofResolved items conditions cube.factTable).columns =
      items.map ResolvedItem.column := rfl
  have hempty : items.map ResolvedItem.column = [] ↔ query.select = [] := by
    rw [List.map_eq_nil_iff]
    simpa using congrArg (· = []) hlabels
  have hundotted : (∀ column ∈ items.map ResolvedItem.column, StarCube.Undotted column.label) ↔
      ∀ item ∈ query.select, StarCube.Undotted item.label := by
    simpa only [List.forall_mem_map, eq_iff_iff] using
      congrArg (fun labels => ∀ label ∈ labels, StarCube.Undotted label) hlabels
  have hrefs : (∀ ref ∈ (Statement.ofResolved items conditions cube.factTable).refs, ref.Undotted) ↔
      ∀ ref table, query.Writes cube ref table → ref.Undotted := by
    constructor
    · intro hall ref table hwrites
      obtain ⟨written, hwritten, htext⟩ := hresolves.exists_mem_refs_of_writes hwrites
      rw [ColumnRef.undotted_iff, ← htext, ← ColumnRef.undotted_iff]
      exact hall written hwritten
    · intro hall ref href
      obtain ⟨table, hwrites⟩ := hresolves.writes_of_mem_refs href
      exact hall ref table hwrites
  rw [(hresolves.identified hcube).isSentence_iff, hcolumns, hundotted, hrefs]
  refine and_congr (not_congr hempty) ⟨fun h => ⟨h.1, h.2⟩, fun h => ⟨h.labels, h.columns⟩⟩

/-- No name of a cube has points but those of its tables. -/
structure Cube.Undotted (cube : Cube) : Prop where
  measures : ∀ measure ∈ cube.measures,
    StarCube.Undotted measure.name ∧ StarCube.Undotted measure.column
  dimensions : ∀ dimension ∈ cube.dimensions,
    StarCube.Undotted dimension.name ∧ StarCube.Undotted dimension.keyColumn
  levels : ∀ dimension ∈ cube.dimensions, ∀ hierarchy ∈ dimension.hierarchies,
    ∀ level ∈ hierarchy.levels, StarCube.Undotted level.name ∧
      StarCube.Undotted level.column ∧ StarCube.Undotted level.sortColumn

instance (cube : Cube) : Decidable cube.Undotted :=
  decidable_of_iff
    ((∀ measure ∈ cube.measures, StarCube.Undotted measure.name ∧
      StarCube.Undotted measure.column) ∧
      (∀ dimension ∈ cube.dimensions,
        StarCube.Undotted dimension.name ∧ StarCube.Undotted dimension.keyColumn) ∧
      ∀ dimension ∈ cube.dimensions, ∀ hierarchy ∈ dimension.hierarchies,
        ∀ level ∈ hierarchy.levels, StarCube.Undotted level.name ∧
          StarCube.Undotted level.column ∧ StarCube.Undotted level.sortColumn)
    ⟨fun ⟨h1, h2, h3⟩ => ⟨h1, h2, h3⟩, fun ⟨h1, h2, h3⟩ => ⟨h1, h2, h3⟩⟩

theorem Cube.Undotted.renameTables {cube : Cube} (h : cube.Undotted) (rename : String → String) :
    (cube.renameTables rename).Undotted where
  measures := h.measures
  dimensions := by
    intro dimension hdimension
    obtain ⟨before, hbefore, rfl⟩ := List.mem_map.1 hdimension
    exact h.dimensions before hbefore
  levels := by
    intro dimension hdimension
    obtain ⟨before, hbefore, rfl⟩ := List.mem_map.1 hdimension
    exact h.levels before hbefore

theorem undotted_append {left right : String} (hleft : Undotted left) (hright : Undotted right) :
    Undotted (left ++ right) := by
  rw [Undotted, String.toList_append, List.mem_append, not_or]
  exact ⟨hleft, hright⟩

theorem IsIdentifier.undotted_lowerCase {text : String} (h : IsIdentifier text)
    (hdots : Undotted text) : Undotted (Text.lowerCase text) := by
  have hpoint : ∀ n < 128, (Char.ofNat n).toLower = '.' → Char.ofNat n = '.' := by decide +kernel
  rw [Undotted, h.toList_lowerCase, List.mem_map]
  rintro ⟨c, hc, hlower⟩
  have hc' := hpoint c.toNat (h.ascii c hc)
  rw [Char.ofNat_toNat] at hc'
  exact hdots (hc' hlower ▸ hc)

/-- A level that is found is one of its dimension, by its name. -/
theorem Cube.mem_of_level? {cube : Cube} {ref : LevelRef} {dimension : Dimension} {level : Level}
    (h : cube.level? ref = some (dimension, level)) :
    dimension ∈ cube.dimensions ∧ dimension.name = ref.dimension ∧ level.name = ref.level ∧
      ∃ hierarchy ∈ dimension.hierarchies, level ∈ hierarchy.levels := by
  obtain ⟨hdimension, hlevel⟩ := level?_eq_some_iff.1 h
  have hfound : ∃ hierarchy ∈ dimension.hierarchies, hierarchy.level? ref.level = some level := by
    unfold Dimension.levelIn? at hlevel
    split at hlevel
    · exact List.exists_of_findSome?_eq_some hlevel
    · obtain ⟨hierarchy, hhierarchy, hlevel⟩ := Option.bind_eq_some_iff.1 hlevel
      exact ⟨hierarchy, List.mem_of_find?_eq_some hhierarchy, hlevel⟩
  obtain ⟨hierarchy, hhierarchy, hlevel⟩ := hfound
  have hname : level.name = ref.level := by simpa using List.find?_some hlevel
  exact ⟨mem_of_dimension? hdimension, name_of_dimension? hdimension, hname, hierarchy, hhierarchy,
    List.mem_of_find?_eq_some hlevel⟩

section Cubes

variable {query : Query} {cube : Cube}

theorem Cube.Undotted.measure (hcube : cube.Undotted) {name : String} {measure : Measure}
    (hfound : cube.measure? name = some measure) :
    StarCube.Undotted measure.name ∧ StarCube.Undotted measure.column :=
  hcube.measures measure (List.mem_of_find?_eq_some hfound)

theorem Cube.Undotted.tableAlias (hcube : cube.Undotted) (hnames : cube.Identified)
    {dimension : Dimension} (hmem : dimension ∈ cube.dimensions) :
    StarCube.Undotted dimension.tableAlias :=
  undotted_append (by decide)
    ((hnames dimension hmem).undotted_lowerCase (hcube.dimensions dimension hmem).1)

theorem Cube.Undotted.label (hcube : cube.Undotted) {item : SelectItem} {resolved : ResolvedItem}
    (h : item.Resolves cube resolved) : StarCube.Undotted item.label := by
  cases h with
  | @measure name measure hfound column label =>
      have hname : measure.name = name := by simpa using List.find?_some hfound
      exact hname ▸ (hcube.measure hfound).1
  | @level ref dimension level hfound joinable column sortColumn label =>
      obtain ⟨hdimension, hname, hlevelName, hierarchy, hhierarchy, hlevel⟩ :=
        Cube.mem_of_level? hfound
      have hlabel : ref.label = dimension.name ++ "_" ++ level.name := by
        rw [hname, hlevelName]
        rfl
      rw [SelectItem.label, hlabel]
      exact undotted_append (undotted_append (hcube.dimensions dimension hdimension).1 (by decide))
        (hcube.levels dimension hdimension hierarchy hhierarchy level hlevel).1

theorem Cube.Undotted.ref (hcube : cube.Undotted) (hnames : cube.Identified) {ref : ColumnRef}
    {table : String} (h : query.Writes cube ref table) : ref.Undotted := by
  have hfact : StarCube.Undotted Statement.factAlias := by decide
  cases h with
  | measure hmem hfound => exact ⟨hfact, (hcube.measure hfound).2⟩
  | @factKey name dimension hmem hfound =>
      have hdimension := Cube.mem_of_dimension? hfound
      exact ⟨hfact, undotted_append ((hnames dimension hdimension).undotted_lowerCase
        (hcube.dimensions dimension hdimension).1) (by decide)⟩
  | @key name dimension hmem hfound =>
      have hdimension := Cube.mem_of_dimension? hfound
      exact ⟨hcube.tableAlias hnames hdimension, (hcube.dimensions dimension hdimension).2⟩
  | level hmem hfound =>
      obtain ⟨hdimension, -, -, hierarchy, hhierarchy, hlevel⟩ := Cube.mem_of_level? hfound
      exact ⟨hcube.tableAlias hnames hdimension,
        (hcube.levels _ hdimension hierarchy hhierarchy _ hlevel).2.1⟩
  | sort hmem hfound =>
      obtain ⟨hdimension, -, -, hierarchy, hhierarchy, hlevel⟩ := Cube.mem_of_level? hfound
      exact ⟨hcube.tableAlias hnames hdimension,
        (hcube.levels _ hdimension hierarchy hhierarchy _ hlevel).2.2⟩
  | condition hmem hvalues hfound =>
      obtain ⟨hdimension, -, -, hierarchy, hhierarchy, hlevel⟩ := Cube.mem_of_level? hfound
      exact ⟨hcube.tableAlias hnames hdimension,
        (hcube.levels _ hdimension hierarchy hhierarchy _ hlevel).2.1⟩

/-- Where no name of a cube has points but those of its tables, no name of a statement has. -/
theorem Query.undotted_of_cube {statement : Statement} (hcube : cube.Undotted)
    (hnames : cube.Identified) (h : query.statement cube = .ok statement) :
    query.Undotted cube := by
  obtain ⟨items, conditions, hresolves, -⟩ := resolves_of_statement h
  constructor
  · intro item hitem
    obtain ⟨resolved, -, hresolved⟩ := exists_of_forall₂ hresolves.items hitem
    exact hcube.label hresolved
  · intro ref table hwrites
    exact hcube.ref hnames hwrites

end Cubes

end StarCube
