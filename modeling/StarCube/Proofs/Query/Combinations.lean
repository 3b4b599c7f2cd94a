import Mathlib.Algebra.BigOperators.Group.Multiset.Defs
import Mathlib.Algebra.Group.Int.Defs
import Mathlib.Data.Finset.Max
import StarCube.Keyed
import StarCube.Proofs.Query.Meaning
import StarCube.Proofs.Query.Sentences

/-!
What a query asks of the facts of a cube, and that its statement answers it. Each fact has at most
one member of each dimension; the facts that the predicates admit are sorted by the values of the
selected levels and of the columns that sort these, and each combination that occurs is a row, with
the measures of its facts.
-/

namespace StarCube

namespace Dimension

/-- The member of a dimension that a fact refers to, a row of nulls if it refers to none. -/
def member (dimension : Dimension) (warehouse : Warehouse) (fact : Record) : Record :=
  ((warehouse.rows dimension.table).find? fun record =>
    warehouse.equal (fact dimension.factKey) (record dimension.keyColumn)).getD fun _ => .null

/-- No two rows of the table of a dimension have the same key. -/
def HasKey (dimension : Dimension) (warehouse : Warehouse) : Prop :=
  (warehouse.rows dimension.table).Pairwise fun left right =>
    warehouse.equal (left dimension.keyColumn) (right dimension.keyColumn) = false

instance (dimension : Dimension) (warehouse : Warehouse) : Decidable (dimension.HasKey warehouse) :=
  inferInstanceAs (Decidable ((warehouse.rows dimension.table).Pairwise _))

end Dimension

namespace Cube

/-- The value of a level for a fact. -/
def levelValue (cube : Cube) (warehouse : Warehouse) (ref : LevelRef) (fact : Record) : Value :=
  match cube.level? ref with
  | none => .null
  | some (dimension, level) => dimension.member warehouse fact level.column

/-- The value that sorts the members of a level, for a fact. -/
def sortValue (cube : Cube) (warehouse : Warehouse) (ref : LevelRef) (fact : Record) : Value :=
  match cube.level? ref with
  | none => .null
  | some (dimension, level) => dimension.member warehouse fact level.sortColumn

/-- The names of the dimensions differ in more than letter case. -/
def DistinctNames (cube : Cube) : Prop :=
  cube.dimensions.Pairwise fun left right => ¬ SameLetters left.name right.name

instance (cube : Cube) : Decidable cube.DistinctNames :=
  inferInstanceAs (Decidable (cube.dimensions.Pairwise _))

end Cube

/-- Whether a predicate is known to be true of a fact. -/
def Predicate.admits (cube : Cube) (warehouse : Warehouse) (fact : Record) : Predicate → Bool
  | .equals ref value => warehouse.equal (cube.levelValue warehouse ref fact) value
  | .among ref values => values.any (warehouse.equal (cube.levelValue warehouse ref fact))

/-- What an item of a select list is among facts of one combination: the aggregate of the measure
over all of these, or the value of the level for one of them. -/
inductive SelectItem.Describes (cube : Cube) (warehouse : Warehouse) (facts : List Record) :
    SelectItem → Value → Prop where
  | measure {name : String} {measure : Measure} (h : cube.measure? name = some measure) :
      Describes cube warehouse facts (.measure name)
        (warehouse.aggregate measure.aggregation (facts.map fun fact => fact measure.column))
  | level {fact : Record} (hfact : fact ∈ facts) (ref : LevelRef) :
      Describes cube warehouse facts (.level ref) (cube.levelValue warehouse ref fact)

namespace Query

/-- The facts that satisfy all predicates of a query. -/
def admitted (query : Query) (cube : Cube) (warehouse : Warehouse) : List Record :=
  (warehouse.rows cube.factTable).filter fun fact =>
    query.conditions.all (Predicate.admits cube warehouse fact)

/-- The combination of the values of the selected levels for a fact, as far as a store tells them
apart. -/
def combination (query : Query) (cube : Cube) (warehouse : Warehouse) (fact : Record) :
    List (Option warehouse.Key) :=
  query.levels.map fun ref => warehouse.key (cube.levelValue warehouse ref fact)

/-- The combination of the values that sort the selected levels. -/
def sortCombination (query : Query) (cube : Cube) (warehouse : Warehouse) (fact : Record) :
    List (Option warehouse.Key) :=
  query.levels.map fun ref => warehouse.key (cube.sortValue warehouse ref fact)

/-- The values of the selected levels and those that sort them. -/
def sortedCombination (query : Query) (cube : Cube) (warehouse : Warehouse) (fact : Record) :
    List (Option warehouse.Key) × List (Option warehouse.Key) :=
  (query.combination cube warehouse fact, query.sortCombination cube warehouse fact)

/-- There is one row for each combination that occurs among the admitted facts, and it describes all
facts of its combination. -/
def Combines (query : Query) (cube : Cube) (warehouse : Warehouse) {κ : Type} [DecidableEq κ]
    (combined : Record → κ) (rows : List (List Value)) : Prop :=
  ∃ combinations : List κ, combinations.Nodup ∧
    (∀ found, found ∈ combinations ↔ ∃ fact ∈ query.admitted cube warehouse,
      combined fact = found) ∧
    List.Forall₂ (fun found => List.Forall₂ (SelectItem.Describes cube warehouse
      ((query.admitted cube warehouse).filter fun fact => combined fact = found)) query.select)
      combinations rows

/-- Columns that are written alike are the same. -/
def DistinctTexts (query : Query) (cube : Cube) : Prop :=
  ∀ ref ∈ query.groupColumns cube, ∀ other ∈ query.groupColumns cube, ref.text = other.text →
    ref = other

instance (query : Query) (cube : Cube) : Decidable (query.DistinctTexts cube) :=
  inferInstanceAs (Decidable (∀ ref ∈ query.groupColumns cube, ∀ other ∈ query.groupColumns cube,
    ref.text = other.text → ref = other))

end Query

/-- A column without points is known by its text. -/
theorem ColumnRef.eq_of_text_eq {ref other : ColumnRef} (href : ref.Undotted)
    (h : ref.text = other.text) : ref = other := by
  have hlist : ref.tableAlias.toList ++ '.' :: ref.column.toList =
      other.tableAlias.toList ++ '.' :: other.column.toList := by
    simpa [ColumnRef.text] using congrArg String.toList h
  obtain ⟨halias, -, hcolumn⟩ :=
    (List.append_cons_inj_of_notMem href.tableAlias href.column).1 hlist
  rw [ColumnRef.mk.injEq]
  exact ⟨String.toList_inj.1 halias, String.toList_inj.1 hcolumn⟩

/-- Only names with points make columns that are written alike. -/
theorem Query.Undotted.distinctTexts {query : Query} {cube : Cube} (h : query.Undotted cube) :
    query.DistinctTexts cube := by
  intro ref href other _ htext
  apply ColumnRef.eq_of_text_eq ?_ htext
  obtain ⟨level, hlevel, dimension, found, hfound, hcolumn⟩ := Query.mem_groupColumns_iff.1 href
  rcases hcolumn with rfl | rfl
  · exact h.columns _ _ (.level hlevel hfound)
  · exact h.columns _ _ (.sort hlevel hfound)

section Join

variable {warehouse : Warehouse}

/-- What is joined to a fact from some dimensions. -/
def scopeOf (warehouse : Warehouse) (dimensions : List Dimension) (fact : Record) : Scope :=
  (Statement.factAlias, fact) :: dimensions.map fun dimension =>
    (dimension.tableAlias, dimension.member warehouse fact)

/-- The dimensions have different aliases. -/
def DistinctAliases (dimensions : List Dimension) : Prop :=
  dimensions.Pairwise fun left right => ¬ SameLetters left.tableAlias right.tableAlias

theorem apart_scopeOf {dimensions : List Dimension} (h : DistinctAliases dimensions)
    (fact : Record) : (scopeOf warehouse dimensions fact).Apart := by
  simp only [Scope.Apart, scopeOf, List.map_cons, List.map_map, List.pairwise_cons,
    List.pairwise_map, List.forall_mem_map]
  exact ⟨fun dimension _ => dimension.not_sameLetters_factAlias, h⟩

theorem value_scopeOf_fact {dimensions : List Dimension} (h : DistinctAliases dimensions)
    (fact : Record) (column : String) :
    (scopeOf warehouse dimensions fact).value ⟨Statement.factAlias, column⟩ = fact column :=
  Scope.value_of_mem (apart_scopeOf h fact) List.mem_cons_self

theorem value_scopeOf_ref {dimensions : List Dimension} (h : DistinctAliases dimensions)
    {dimension : Dimension} (hdimension : dimension ∈ dimensions) (fact : Record)
    (column : String) :
    (scopeOf warehouse dimensions fact).value (dimension.ref column) =
      dimension.member warehouse fact column := by
  apply Scope.value_of_mem (apart_scopeOf h fact)
  exact List.mem_cons_of_mem _ (List.mem_map_of_mem hdimension)

/-- Of elements that exclude each other only the first that is looked for is found. -/
theorem filter_eq_toList_find? {α : Type} {p : α → Bool} {list : List α}
    (h : list.Pairwise fun left right => ¬ (p left = true ∧ p right = true)) :
    list.filter p = (list.find? p).toList := by
  induction list with
  | nil => rfl
  | cons first rest ih =>
      rw [List.pairwise_cons] at h
      by_cases hfirst : p first = true
      · have hrest : rest.filter p = [] :=
          List.filter_eq_nil_iff.2 fun other hother hp => h.1 other hother ⟨hfirst, hp⟩
        rw [List.filter_cons_of_pos hfirst, List.find?_cons_of_pos hfirst, hrest]
        rfl
      · rw [List.filter_cons_of_neg hfirst, List.find?_cons_of_neg hfirst, ih h.2]

/-- A dimension adds its member to what is joined to a fact, and neither repeats nor loses it. -/
theorem extend_scopeOf {before : List Dimension} {dimension : Dimension}
    (h : DistinctAliases (before ++ [dimension])) (hkey : dimension.HasKey warehouse)
    (fact : Record) :
    dimension.join.extend warehouse (scopeOf warehouse before fact) =
      [scopeOf warehouse (before ++ [dimension]) fact] := by
  have hextended (record : Record) :
      (scopeOf warehouse before fact ++ [(dimension.join.tableAlias, record)]).Apart := by
    have hapart : (scopeOf warehouse (before ++ [dimension]) fact).Apart := apart_scopeOf h fact
    simpa [Scope.Apart, scopeOf, Dimension.join] using hapart
  have hfactKey (record : Record) :
      (scopeOf warehouse before fact ++ [(dimension.join.tableAlias, record)]).value
        dimension.join.factKey = fact dimension.factKey :=
    Scope.value_of_mem (hextended record) (by simp [scopeOf, Dimension.join])
  have hkeyColumn (record : Record) :
      (scopeOf warehouse before fact ++ [(dimension.join.tableAlias, record)]).value
        dimension.join.keyColumn = record dimension.keyColumn :=
    Scope.value_of_mem (hextended record) (by simp [Dimension.join])
  have hfound : (warehouse.rows dimension.join.table).filter (fun record =>
        warehouse.equal (fact dimension.factKey) (record dimension.keyColumn)) =
      ((warehouse.rows dimension.table).find? fun record =>
        warehouse.equal (fact dimension.factKey) (record dimension.keyColumn)).toList := by
    refine filter_eq_toList_find? (hkey.imp fun {left right} hne hboth => ?_)
    exact Bool.false_ne_true (hne.symm.trans (Dialect.equal_of_equal hboth.1 hboth.2))
  have hscope : scopeOf warehouse (before ++ [dimension]) fact =
      scopeOf warehouse before fact ++
        [(dimension.tableAlias, dimension.member warehouse fact)] := by
    simp [scopeOf]
  rw [hscope, Join.extend, List.filter_map]
  simp only [Function.comp_def, hfactKey, hkeyColumn, hfound]
  rw [Dimension.member]
  cases (warehouse.rows dimension.table).find? fun record =>
      warehouse.equal (fact dimension.factKey) (record dimension.keyColumn) with
  | none => rfl
  | some record => rfl

/-- The joins neither repeat nor lose a fact. -/
theorem foldl_extend_eq {dimensions : List Dimension} (h : DistinctAliases dimensions)
    (hkeys : ∀ dimension ∈ dimensions, dimension.HasKey warehouse) (facts : List Record) :
    (dimensions.map Dimension.join).foldl
        (fun scopes join => scopes.flatMap (join.extend warehouse))
        (facts.map (scopeOf warehouse [])) =
      facts.map (scopeOf warehouse dimensions) := by
  induction dimensions using List.reverseRecOn with
  | nil => rfl
  | append_singleton before dimension ih =>
      have hbefore : DistinctAliases before := (List.pairwise_append.1 h).1
      rw [List.map_append, List.foldl_append,
        ih hbefore fun other hother => hkeys other (List.mem_append_left _ hother)]
      have hkey : dimension.HasKey warehouse := hkeys dimension (by simp)
      simp only [List.map_singleton, List.foldl_cons, List.foldl_nil, List.flatMap_map,
        extend_scopeOf h hkey]
      exact (List.map_eq_flatMap ..).symm

end Join

section Combinations

variable {query : Query} {cube : Cube} {warehouse : Warehouse} {rows : List (List Value)}

namespace Query

/-- The rows may come in any order. -/
theorem Combines.perm {κ : Type} [DecidableEq κ] {combined : Record → κ}
    {others : List (List Value)}
    (h : query.Combines cube warehouse combined rows) (hperm : rows.Perm others) :
    query.Combines cube warehouse combined others := by
  obtain ⟨combinations, hnodup, hmem, hrows⟩ := h
  obtain ⟨arranged, hothers, harranged⟩ := List.perm_comp_forall₂ hperm.symm hrows.flip
  refine ⟨arranged, harranged.nodup_iff.2 hnodup, fun found => ?_, hothers.flip⟩
  rw [harranged.mem_iff, hmem]

/-- Only which facts are combined counts, not by what. -/
theorem Combines.congr {κ ι : Type} [DecidableEq κ] [DecidableEq ι] {combined : Record → κ}
    {other : Record → ι} (h : query.Combines cube warehouse combined rows)
    (hsame : ∀ left ∈ query.admitted cube warehouse, ∀ right ∈ query.admitted cube warehouse,
      combined left = combined right ↔ other left = other right) :
    query.Combines cube warehouse other rows := by
  obtain ⟨combinations, hnodup, hmem, hrows⟩ := h
  -- Each combination is named by a fact that has it, whatever it is told apart by.
  obtain ⟨leaders, rfl⟩ : combinations ∈ Set.range
      (List.map fun leader : {fact // fact ∈ query.admitted cube warehouse} =>
        combined leader) := by
    rw [Set.range_list_map]
    intro found hfound
    obtain ⟨fact, hfact, heq⟩ := (hmem found).1 hfound
    exact ⟨⟨fact, hfact⟩, heq⟩
  refine ⟨leaders.map fun leader => other leader.1, ?_, ?_, ?_⟩
  · rw [List.Nodup, List.pairwise_map] at hnodup ⊢
    exact hnodup.imp fun {left right} hne heq => hne ((hsame _ left.2 _ right.2).2 heq)
  · intro found
    constructor
    · intro hfound
      obtain ⟨leader, -, rfl⟩ := List.mem_map.1 hfound
      exact ⟨leader, leader.2, rfl⟩
    · rintro ⟨fact, hfact, rfl⟩
      obtain ⟨leader, hleader, heq⟩ := List.mem_map.1 ((hmem _).2 ⟨fact, hfact, rfl⟩)
      exact List.mem_map.2 ⟨leader, hleader, (hsame _ leader.2 _ hfact).1 heq⟩
  · rw [List.forall₂_map_left_iff] at hrows ⊢
    refine hrows.imp fun leader row hrow => ?_
    have hfacts :
        (query.admitted cube warehouse).filter (fun fact => combined fact = combined leader) =
        (query.admitted cube warehouse).filter (fun fact => other fact = other leader) := by
      refine List.filter_congr fun fact hfact => ?_
      rw [decide_eq_decide]
      exact hsame _ hfact _ leader.2
    rwa [hfacts] at hrow

/-- Among the admitted facts, the values of the selected levels determine those that sort them. -/
def DeterminesSorts (query : Query) (cube : Cube) (warehouse : Warehouse) : Prop :=
  ∀ fact ∈ query.admitted cube warehouse, ∀ other ∈ query.admitted cube warehouse,
    query.combination cube warehouse fact = query.combination cube warehouse other →
      query.sortCombination cube warehouse fact = query.sortCombination cube warehouse other

instance (query : Query) (cube : Cube) (warehouse : Warehouse) :
    Decidable (query.DeterminesSorts cube warehouse) :=
  inferInstanceAs (Decidable (∀ fact ∈ query.admitted cube warehouse,
    ∀ other ∈ query.admitted cube warehouse, _ = _ → _ = _))

/-- Levels that are sorted by their own column determine what sorts them. -/
theorem determinesSorts_of_sortColumn_eq
    (h : ∀ ref ∈ query.levels, ∀ dimension level, cube.level? ref = some (dimension, level) →
      level.sortColumn = level.column) : query.DeterminesSorts cube warehouse := by
  have hsame (fact : Record) :
      query.sortCombination cube warehouse fact = query.combination cube warehouse fact := by
    apply List.map_congr_left
    intro ref href
    rw [Cube.sortValue, Cube.levelValue]
    cases hlevel : cube.level? ref with
    | none => rfl
    | some found => exact congrArg _ (congrArg _ (h ref href _ _ hlevel))
  intro fact _ other _ heq
  rw [hsame, hsame, heq]

/-- The rows of sorted combinations are one for each combination of levels just if the levels
determine what sorts them. -/
theorem Combines.combination_iff
    (h : query.Combines cube warehouse (query.sortedCombination cube warehouse) rows) :
    query.Combines cube warehouse (query.combination cube warehouse) rows ↔
      query.DeterminesSorts cube warehouse := by
  constructor
  · rintro ⟨combinations, hnodup, hmem, hrows⟩
    obtain ⟨sorted, -, hsorted, hsortedRows⟩ := h
    -- There are as many sorted combinations as combinations of levels, so none of these is
    -- repeated.
    have hsubset : combinations ⊆ sorted.map Prod.fst := by
      intro found hfound
      obtain ⟨fact, hfact, rfl⟩ := (hmem found).1 hfound
      exact List.mem_map.2 ⟨_, (hsorted _).2 ⟨fact, hfact, rfl⟩, rfl⟩
    have hlength : (sorted.map Prod.fst).length ≤ combinations.length := by
      rw [List.length_map, hsortedRows.length_eq, hrows.length_eq]
    have hperm : combinations.Perm (sorted.map Prod.fst) :=
      (List.subperm_of_subset hnodup hsubset).perm_of_length_le hlength
    have hinjective := List.inj_on_of_nodup_map (hperm.nodup_iff.1 hnodup)
    intro fact hfact other hother heq
    exact congrArg Prod.snd (hinjective ((hsorted _).2 ⟨fact, hfact, rfl⟩)
      ((hsorted _).2 ⟨other, hother, rfl⟩) heq)
  · intro hdetermines
    refine h.congr fun left hleft right hright => ?_
    constructor
    · exact fun heq => congrArg Prod.fst heq
    · exact fun heq => Prod.ext heq (hdetermines left hleft right hright heq)

end Query

end Combinations

section Statement

variable {cube : Cube} {warehouse : Warehouse} {dimensions : List Dimension}

/-- The columns of a level have the values that the cube has for a fact. -/
theorem Cube.value_scopeOf {ref : LevelRef} {dimension : Dimension} {level : Level}
    (haliases : DistinctAliases dimensions) (hdimension : dimension ∈ dimensions)
    (hlevel : cube.level? ref = some (dimension, level)) (warehouse : Warehouse) (fact : Record) :
    (scopeOf warehouse dimensions fact).value (dimension.ref level.column) =
        cube.levelValue warehouse ref fact ∧
      (scopeOf warehouse dimensions fact).value (dimension.ref level.sortColumn) =
        cube.sortValue warehouse ref fact := by
  rw [value_scopeOf_ref haliases hdimension, value_scopeOf_ref haliases hdimension]
  simp [Cube.levelValue, Cube.sortValue, hlevel]

/-- A condition holds of what is joined to a fact just if its predicate admits the fact. -/
theorem ResolvedCondition.Of.holds_eq {predicate : Predicate} {resolved : ResolvedCondition}
    (h : ResolvedCondition.Of cube predicate resolved) (haliases : DistinctAliases dimensions)
    (hdimension : resolved.dimension ∈ dimensions) (fact : Record) :
    resolved.condition.holds warehouse.toDialect (scopeOf warehouse dimensions fact) =
      predicate.admits cube warehouse fact := by
  have hvalue := (Cube.value_scopeOf haliases hdimension h.level warehouse fact).1
  rw [ResolvedCondition.condition, h.predicate_eq]
  cases predicate with
  | equals ref value => rw [Condition.holds, hvalue]; rfl
  | among ref values => rw [Condition.holds, hvalue]; rfl

theorem ResolvedCondition.all_holds_eq {predicates : List Predicate}
    {conditions : List ResolvedCondition} (haliases : DistinctAliases dimensions)
    (h : List.Forall₂ (ResolvedCondition.Of cube) predicates conditions)
    (hdimensions : ∀ resolved ∈ conditions, resolved.dimension ∈ dimensions) (fact : Record) :
    (conditions.map ResolvedCondition.condition).all
        (Condition.holds warehouse.toDialect (scopeOf warehouse dimensions fact)) =
      predicates.all (Predicate.admits cube warehouse fact) := by
  induction h with
  | nil => rfl
  | cons hfirst _ ih =>
      rw [List.forall_mem_cons] at hdimensions
      rw [List.map_cons, List.all_cons, List.all_cons, hfirst.holds_eq haliases hdimensions.1,
        ih hdimensions.2]

/-- A cell over what is joined to facts describes these facts. -/
theorem SelectItem.Resolves.describes {item : SelectItem} {resolved : ResolvedItem}
    (h : item.Resolves cube resolved) (haliases : DistinctAliases dimensions)
    (hdimension : ∀ dimension, resolved.dimension? = some dimension → dimension ∈ dimensions)
    {facts : List Record} {value : Value}
    (hcell : resolved.column.Cell warehouse.toDialect (facts.map (scopeOf warehouse dimensions))
      value) :
    item.Describes cube warehouse facts value := by
  cases h with
  | @measure name measure hmeasure column label =>
      rw [ResolvedItem.column] at hcell
      cases hcell
      have hvalues : (facts.map (scopeOf warehouse dimensions)).map
            (fun scope => scope.value ⟨Statement.factAlias, measure.column⟩) =
          facts.map fun fact => fact measure.column := by
        rw [List.map_map]
        exact List.map_congr_left fun fact _ => value_scopeOf_fact haliases fact _
      rw [hvalues]
      exact .measure hmeasure
  | @level ref dimension level hlevel joinable column sortColumn label =>
      rw [ResolvedItem.column] at hcell
      cases hcell with
      | plain hscope =>
          obtain ⟨fact, hfact, rfl⟩ := List.mem_map.1 hscope
          rw [(Cube.value_scopeOf haliases (hdimension _ rfl) hlevel warehouse fact).1]
          exact .level hfact ref

theorem SelectItem.forall₂_describes {select : List SelectItem} {items : List ResolvedItem}
    {facts : List Record} {row : List Value} (haliases : DistinctAliases dimensions)
    (h : List.Forall₂ (SelectItem.Resolves cube) select items)
    (hdimensions : ∀ dimension ∈ items.filterMap ResolvedItem.dimension?, dimension ∈ dimensions)
    (hrow : List.Forall₂ (OutputColumn.Cell warehouse.toDialect
      (facts.map (scopeOf warehouse dimensions))) (items.map ResolvedItem.column) row) :
    List.Forall₂ (SelectItem.Describes cube warehouse facts) select row := by
  induction h generalizing row with
  | nil =>
      cases hrow
      exact .nil
  | @cons item resolved select items hitem _ ih =>
      cases hrow with
      | cons hcell hcells =>
          constructor
          · apply hitem.describes haliases ?_ hcell
            intro dimension hdimension
            exact hdimensions dimension (List.mem_filterMap.2 ⟨resolved, by simp, hdimension⟩)
          · apply ih ?_ hcells
            intro dimension hdimension
            obtain ⟨other, hother, heq⟩ := List.mem_filterMap.1 hdimension
            exact hdimensions dimension
              (List.mem_filterMap.2 ⟨other, List.mem_cons_of_mem _ hother, heq⟩)

end Statement

namespace Query

variable {query : Query} {cube : Cube} {warehouse : Warehouse} {items : List ResolvedItem}
  {conditions : List ResolvedCondition}

theorem distinctMentions_of_distinctNames (h : query.Resolves cube items conditions)
    (hnames : cube.DistinctNames) : query.DistinctMentions := by
  have hsymm : Std.Symm fun left right : Dimension => ¬ SameLetters left.name right.name :=
    ⟨fun _ _ hne hsame => hne hsame.symm⟩
  obtain ⟨-, hfound⟩ := h.firsts_mentioned
  apply h.distinctMentions_of_names
  intro left hleft right hright hdifferent
  exact hnames.forall (Cube.mem_of_dimension? (hfound left hleft))
    (Cube.mem_of_dimension? (hfound right hright)) hdifferent

namespace Resolves

/-- The dimensions that are joined have different aliases if those of all tables are different. -/
theorem distinctAliases
    (haliases : (Statement.ofResolved items conditions cube.factTable).sources.Pairwise
      fun left right => ¬ SameLetters left.1 right.1) :
    DistinctAliases (Statement.mentioned items conditions) := by
  simp only [Statement.sources, Statement.ofResolved, List.map_map, List.pairwise_cons,
    List.pairwise_map] at haliases
  exact haliases.2

/-- A statement groups by the columns of its query, if no two of these are written alike. -/
theorem mem_groups_iff (h : query.Resolves cube items conditions)
    (htexts : query.DistinctTexts cube)
    {ref : ColumnRef} : ref ∈ (Statement.ofResolved items conditions cube.factTable).groups ↔
      ref ∈ query.groupColumns cube := by
  rw [Statement.ofResolved, h.columns_eq.2.1]
  constructor
  · exact Statement.mem_of_mem_distinctColumns
  · intro href
    obtain ⟨other, hother, heq⟩ := List.mem_map.1
      (((Statement.firsts_distinctColumns _).mem_iff _).2 (List.mem_map_of_mem href))
    rwa [← htexts other (Statement.mem_of_mem_distinctColumns hother) ref href heq]

theorem meaningful (h : query.Resolves cube items conditions)
    (haliases : (Statement.ofResolved items conditions cube.factTable).sources.Pairwise
      fun left right => ¬ SameLetters left.1 right.1)
    (htexts : query.DistinctTexts cube) :
    (Statement.ofResolved items conditions cube.factTable).Meaningful where
  aliases := haliases
  located := by
    intro ref href
    obtain ⟨table, hwrites⟩ := h.writes_of_mem_refs href
    exact ⟨table, Statement.denoted_of_mem haliases (h.mem_sources hwrites)⟩
  columns := by
    intro ref label hcolumn
    obtain ⟨item, hitem, heq⟩ := List.mem_map.1 hcolumn
    rw [h.mem_groups_iff htexts, ← h.columns_eq.2.1]
    exact List.mem_flatMap.2 ⟨item, hitem, ResolvedItem.mem_groups_of_column heq.symm⟩
  orders := by
    intro ref href
    rw [h.mem_groups_iff htexts]
    apply sortColumns_subset
    rw [← h.columns_eq.2.2]
    exact Statement.mem_of_mem_distinctColumns href

/-- What a statement keeps are the facts that its query admits, each once and with its members. -/
theorem kept_eq (h : query.Resolves cube items conditions)
    (haliases : DistinctAliases (Statement.mentioned items conditions))
    (hkeys : ∀ dimension ∈ cube.dimensions, dimension.HasKey warehouse) :
    (Statement.ofResolved items conditions cube.factTable).kept warehouse =
      (query.admitted cube warehouse).map
        (scopeOf warehouse (Statement.mentioned items conditions)) := by
  have hjoined : (Statement.ofResolved items conditions cube.factTable).joined warehouse =
      (warehouse.rows cube.factTable).map
        (scopeOf warehouse (Statement.mentioned items conditions)) := by
    apply foldl_extend_eq haliases
    intro dimension hdimension
    exact hkeys dimension (Cube.mem_of_dimension? (h.mem_mentions hdimension).2)
  have hdimensions : ∀ resolved ∈ conditions,
      resolved.dimension ∈ Statement.mentioned items conditions := by
    intro resolved hresolved
    rw [Statement.mentioned, List.mem_eraseDups]
    exact List.mem_append_right _ (List.mem_map_of_mem hresolved)
  rw [Statement.kept, hjoined, List.filter_map, admitted]
  congr 1
  apply List.filter_congr
  intro fact _
  exact ResolvedCondition.all_holds_eq haliases h.conditions hdimensions fact

/-- Two facts are of one group just if they have the same sorted combination. -/
theorem groupKey_eq_iff (h : query.Resolves cube items conditions)
    (haliases : DistinctAliases (Statement.mentioned items conditions))
    (htexts : query.DistinctTexts cube) (left right : Record) :
    (Statement.ofResolved items conditions cube.factTable).groupKey warehouse.toDialect
        (scopeOf warehouse (Statement.mentioned items conditions) left) =
      (Statement.ofResolved items conditions cube.factTable).groupKey warehouse.toDialect
        (scopeOf warehouse (Statement.mentioned items conditions) right) ↔
      query.sortedCombination cube warehouse left =
        query.sortedCombination cube warehouse right := by
  have hvalue {ref : LevelRef} {dimension : Dimension} {level : Level} (href : ref ∈ query.levels)
      (hfound : cube.level? ref = some (dimension, level)) :=
    Cube.value_scopeOf haliases
      (h.mem_mentioned (mem_mentions_of_level href) (Cube.level?_eq_some_iff.1 hfound).1) hfound
        warehouse
  simp only [Statement.groupKey, sortedCombination, combination, sortCombination, Prod.mk.injEq,
    List.map_inj_left, h.mem_groups_iff htexts]
  constructor
  · intro hgroups
    rw [← forall₂_and]
    intro ref href
    obtain ⟨⟨dimension, level⟩, hfound⟩ := Option.isSome_iff_exists.1 (h.columns_eq.1 ref href)
    have hcolumn :=
      hgroups _ (mem_groupColumns_iff.2 ⟨ref, href, dimension, level, hfound, .inl rfl⟩)
    have hsort := hgroups _ (mem_groupColumns_iff.2 ⟨ref, href, dimension, level, hfound, .inr rfl⟩)
    rw [(hvalue href hfound left).1, (hvalue href hfound right).1] at hcolumn
    rw [(hvalue href hfound left).2, (hvalue href hfound right).2] at hsort
    exact ⟨hcolumn, hsort⟩
  · rintro ⟨hlevels, hsorts⟩ column hcolumn
    obtain ⟨ref, href, dimension, level, hfound, hcolumn⟩ := mem_groupColumns_iff.1 hcolumn
    rcases hcolumn with rfl | rfl
    · rw [(hvalue href hfound left).1, (hvalue href hfound right).1]
      exact hlevels ref href
    · rw [(hvalue href hfound left).2, (hvalue href hfound right).2]
      exact hsorts ref href

/-- A result of a statement has one row for each sorted combination of the facts that its query
admits. -/
theorem combines (h : query.Resolves cube items conditions)
    (haliases : DistinctAliases (Statement.mentioned items conditions))
    (hkeys : ∀ dimension ∈ cube.dimensions, dimension.HasKey warehouse)
    (hlevels : query.levels ≠ []) (htexts : query.DistinctTexts cube) {rows : List (List Value)}
    (hrows : (Statement.ofResolved items conditions cube.factTable).Yields warehouse rows) :
    query.Combines cube warehouse (query.sortedCombination cube warehouse) rows := by
  obtain ⟨-, unordered, hunordered, hperm⟩ := hrows
  have hgroups : (Statement.ofResolved items conditions cube.factTable).groups ≠ [] := by
    intro hnone
    have hempty : query.groupColumns cube = [] :=
      List.eq_nil_iff_forall_not_mem.2 fun ref href => by
      simpa [hnone] using (h.mem_groups_iff htexts).2 href
    exact hlevels ((groupColumns_eq_nil_iff h.columns_eq.1).1 hempty)
  have hdimensions : ∀ dimension ∈ items.filterMap ResolvedItem.dimension?,
      dimension ∈ Statement.mentioned items conditions := by
    intro dimension hdimension
    rw [Statement.mentioned, List.mem_eraseDups]
    exact List.mem_append_left _ hdimension
  rw [Statement.grouped, if_neg hgroups, h.kept_eq haliases hkeys, classes_map,
    List.forall₂_map_left_iff, classes, List.forall₂_map_left_iff] at hunordered
  apply Combines.perm ?_ hperm
  apply Combines.congr ?_ fun left _ right _ => h.groupKey_eq_iff haliases htexts left right
  refine ⟨_, (firsts_eraseDups _).nodup, fun found => ?_, hunordered.imp fun found row hrow => ?_⟩
  · rw [(firsts_eraseDups _).mem_iff, List.mem_map]
  · exact SelectItem.forall₂_describes haliases h.items hdimensions hrow

end Resolves

theorem exists_yields_of_statement {statement : Statement} (hcube : cube.check = .ok ())
    (hnames : cube.DistinctNames) (htexts : query.DistinctTexts cube)
    (h : query.statement cube = .ok statement) (warehouse : Warehouse) :
    ∃ rows, statement.Yields warehouse rows := by
  obtain ⟨items, conditions, hresolves, rfl⟩ := resolves_of_statement h
  have haliases := hresolves.pairwise_sources (Cube.isIdentifier_name_of_check hcube)
    (distinctMentions_of_distinctNames hresolves hnames)
  exact (hresolves.meaningful haliases htexts).exists_yields warehouse

theorem combines_of_yields {statement : Statement} (hcube : cube.check = .ok ())
    (hnames : cube.DistinctNames)
    (hkeys : ∀ dimension ∈ cube.dimensions, dimension.HasKey warehouse)
    (hlevels : query.levels ≠ []) (htexts : query.DistinctTexts cube)
    (h : query.statement cube = .ok statement) {rows : List (List Value)}
    (hrows : statement.Yields warehouse rows) :
    query.Combines cube warehouse (query.sortedCombination cube warehouse) rows := by
  obtain ⟨items, conditions, hresolves, rfl⟩ := resolves_of_statement h
  have haliases := hresolves.pairwise_sources (Cube.isIdentifier_name_of_check hcube)
    (distinctMentions_of_distinctNames hresolves hnames)
  exact hresolves.combines (Resolves.distinctAliases haliases) hkeys hlevels htexts hrows

/-- Over tables in which each dimension has its key, the statement of a query with levels has a
result, and each result has one row for each combination of the selected levels and of what sorts
them that occurs among the facts which satisfy all predicates, with the measures of exactly these
facts. It has one row for each combination of the selected levels just if these determine what sorts
them. -/
theorem combines_of_statement {statement : Statement} (hcube : cube.check = .ok ())
    (hnames : cube.DistinctNames)
    (hkeys : ∀ dimension ∈ cube.dimensions, dimension.HasKey warehouse)
    (hlevels : query.levels ≠ []) (htexts : query.DistinctTexts cube)
    (h : query.statement cube = .ok statement) :
    (∃ rows, statement.Yields warehouse rows) ∧
      ∀ rows, statement.Yields warehouse rows →
        query.Combines cube warehouse (query.sortedCombination cube warehouse) rows ∧
          (query.Combines cube warehouse (query.combination cube warehouse) rows ↔
            query.DeterminesSorts cube warehouse) := by
  constructor
  · exact exists_yields_of_statement hcube hnames htexts h warehouse
  · intro rows hrows
    have hcombines := combines_of_yields hcube hnames hkeys hlevels htexts h hrows
    exact ⟨hcombines, hcombines.combination_iff⟩

/-- Where no name has points and the levels of a query are sorted by their own columns, it has one
row for each combination of these. -/
theorem combines_of_undotted {statement : Statement} (hcube : cube.check = .ok ())
    (hnames : cube.DistinctNames)
    (hkeys : ∀ dimension ∈ cube.dimensions, dimension.HasKey warehouse)
    (hlevels : query.levels ≠ []) (hundotted : query.Undotted cube)
    (hsorts : ∀ ref ∈ query.levels, ∀ dimension level, cube.level? ref = some (dimension, level) →
      level.sortColumn = level.column)
    (h : query.statement cube = .ok statement) {rows : List (List Value)}
    (hrows : statement.Yields warehouse rows) :
    query.Combines cube warehouse (query.combination cube warehouse) rows := by
  have hcombines :=
    combines_of_yields hcube hnames hkeys hlevels hundotted.distinctTexts h hrows
  exact hcombines.combination_iff.2 (determinesSorts_of_sortColumn_eq hsorts)

end Query

/-- A store of whole numbers and of texts, which does not tell other values apart. -/
def Dialect.whole : Dialect where
  Key := Int ⊕ String ⊕ Unit
  decidableKey := inferInstance
  key
    | .null => none
    | .int n => some (.inl n)
    | .text content => some (.inr (.inl content))
    | _ => some (.inr (.inr ()))
  key_eq_none_iff value := by cases value <;> simp [Value.isNull]
  sum values := .int (values.map number).sum
  average values := .int ((values.map number).sum / values.card)
  least values := .int ((values.map number).toFinset.min.untopD 0)
  greatest values := .int ((values.map number).toFinset.max.unbotD 0)
where
  number : Value → Int
    | .int n => n
    | _ => 0

/-- Sales by the day, of which the months are selected by name and sorted by when they start. -/
def Cube.sales : Cube where
  name := "Sales"
  description := ""
  factTable := "sales"
  dimensions :=
    [⟨"Time", "days", "day_key", "day",
      [⟨"Calendar", [⟨"Month", "month_name", some "month_start"⟩]⟩], []⟩]
  measures := [⟨"Amount", "amount", .sum, .number, none⟩]
  calculatedMembers := []

/-- The amount of each month. -/
def Query.amountByMonth : Query :=
  ⟨[.level ⟨"Time", "Month", none⟩, .measure "Amount"], "Sales", []⟩

/-- A day in May, and one in a May that has a given start, each with sales, and a sale on no day. -/
def Warehouse.sales (start : Int) : Warehouse where
  toDialect := .whole
  rows
    | "days" =>
        [record [("day_key", .int 1), ("month_name", .text "May"), ("month_start", .int 202405)],
          record [("day_key", .int 2), ("month_name", .text "May"), ("month_start", .int start)]]
    | "sales" =>
        [record [("time_key", .int 1), ("amount", .int 3)],
          record [("time_key", .int 2), ("amount", .int 4)],
          record [("time_key", .int 1), ("amount", .int 3)],
          record [("time_key", .null), ("amount", .int 5)]]
    | _ => []
where
  record (row : Keyed Value) : Record := fun column => (row.get? column).getD .null

/-- Of one May there is one row. -/
theorem Query.amountByMonth_combines :
    Cube.sales.check = .ok () ∧ Cube.sales.DistinctNames ∧
      (∀ dimension ∈ Cube.sales.dimensions, dimension.HasKey (Warehouse.sales 202405)) ∧
      amountByMonth.levels ≠ [] ∧ amountByMonth.DistinctTexts Cube.sales ∧
      amountByMonth.DeterminesSorts Cube.sales (Warehouse.sales 202405) ∧
      ∃ statement, amountByMonth.statement Cube.sales = .ok statement ∧
        ∃ rows, statement.Yields (Warehouse.sales 202405) rows ∧
          amountByMonth.Combines Cube.sales (Warehouse.sales 202405)
            (amountByMonth.combination Cube.sales (Warehouse.sales 202405)) rows := by
  have hcheck : Cube.sales.check = .ok () := by decide +kernel
  have hnames : Cube.sales.DistinctNames := by decide +kernel
  have hkeys : ∀ dimension ∈ Cube.sales.dimensions, dimension.HasKey (Warehouse.sales 202405) := by
    decide +kernel
  have hlevels : amountByMonth.levels ≠ [] := by decide
  have htexts : amountByMonth.DistinctTexts Cube.sales := by decide +kernel
  have hdetermines : amountByMonth.DeterminesSorts Cube.sales (Warehouse.sales 202405) := by
    decide +kernel
  have hsome : (amountByMonth.statement Cube.sales).toOption.isSome = true := by decide +kernel
  refine ⟨hcheck, hnames, hkeys, hlevels, htexts, hdetermines, ?_⟩
  cases hstatement : amountByMonth.statement Cube.sales with
  | error failure => simp [hstatement, Except.toOption] at hsome
  | ok statement =>
      obtain ⟨⟨rows, hrows⟩, hcombines⟩ :=
        combines_of_statement hcheck hnames hkeys hlevels htexts hstatement
      exact ⟨statement, rfl, rows, hrows, (hcombines rows hrows).2.2 hdetermines⟩

/-- Of the Mays of two years there are two rows, under one name. -/
theorem Query.amountByMonth_not_combines :
    Cube.sales.check = .ok () ∧ Cube.sales.DistinctNames ∧
      (∀ dimension ∈ Cube.sales.dimensions, dimension.HasKey (Warehouse.sales 202505)) ∧
      amountByMonth.levels ≠ [] ∧
      ∃ statement, amountByMonth.statement Cube.sales = .ok statement ∧
        (∃ rows, statement.Yields (Warehouse.sales 202505) rows) ∧
        ∀ rows, statement.Yields (Warehouse.sales 202505) rows →
          ¬ amountByMonth.Combines Cube.sales (Warehouse.sales 202505)
            (amountByMonth.combination Cube.sales (Warehouse.sales 202505)) rows := by
  have hcheck : Cube.sales.check = .ok () := by decide +kernel
  have hnames : Cube.sales.DistinctNames := by decide +kernel
  have hkeys : ∀ dimension ∈ Cube.sales.dimensions, dimension.HasKey (Warehouse.sales 202505) := by
    decide +kernel
  have hlevels : amountByMonth.levels ≠ [] := by decide
  have htexts : amountByMonth.DistinctTexts Cube.sales := by decide +kernel
  have hnot : ¬ amountByMonth.DeterminesSorts Cube.sales (Warehouse.sales 202505) := by
    decide +kernel
  have hsome : (amountByMonth.statement Cube.sales).toOption.isSome = true := by decide +kernel
  refine ⟨hcheck, hnames, hkeys, hlevels, ?_⟩
  cases hstatement : amountByMonth.statement Cube.sales with
  | error failure => simp [hstatement, Except.toOption] at hsome
  | ok statement =>
      refine ⟨statement, rfl, exists_yields_of_statement hcheck hnames htexts hstatement _, ?_⟩
      intro rows hrows hcombines
      have hsorted := combines_of_yields hcheck hnames hkeys hlevels htexts hstatement hrows
      exact hnot (hsorted.combination_iff.1 hcombines)

end StarCube
