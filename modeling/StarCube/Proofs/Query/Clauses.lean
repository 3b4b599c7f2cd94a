import Mathlib.Data.List.Induction
import Mathlib.Data.List.Nodup
import StarCube.Cube.BuiltIn
import StarCube.Proofs.Query.Resolution

/-!
The clauses of a statement. Its joins, groups and orders are gathered item by item and without
repetition; they come out as the dimensions and columns that the query mentions, each at the place
of its first mention.
-/

namespace StarCube

/-- `firsts` has the elements of `all`, each once and in the order in which they occur first. -/
structure Firsts {α : Type} [DecidableEq α] (all firsts : List α) : Prop where
  mem_iff : ∀ a, a ∈ firsts ↔ a ∈ all
  nodup : firsts.Nodup
  ordered : firsts.Pairwise fun a b => all.idxOf a < all.idxOf b

namespace Firsts

variable {α : Type} [DecidableEq α] {all firsts : List α}

theorem nil : Firsts ([] : List α) [] :=
  ⟨by simp, .nil, .nil⟩

/-- An element that occurred before adds nothing. -/
theorem seen (h : Firsts all firsts) {a : α} (ha : a ∈ all) : Firsts (all ++ [a]) firsts where
  mem_iff b := by
    rw [h.mem_iff, List.mem_append, List.mem_singleton]
    constructor
    · exact .inl
    · rintro (hb | rfl)
      · exact hb
      · exact ha
  nodup := h.nodup
  ordered := by
    refine h.ordered.imp_of_mem fun {b c} hb hc hlt => ?_
    rwa [List.idxOf_append_of_mem ((h.mem_iff b).1 hb),
      List.idxOf_append_of_mem ((h.mem_iff c).1 hc)]

/-- An element that has not occurred comes last. -/
theorem fresh (h : Firsts all firsts) {a : α} (ha : a ∉ all) :
    Firsts (all ++ [a]) (firsts ++ [a]) where
  mem_iff b := by simp [h.mem_iff]
  nodup := by
    refine List.nodup_append.2 ⟨h.nodup, by simp, ?_⟩
    rintro b hb c hc rfl
    rw [List.mem_singleton.1 hc, h.mem_iff] at hb
    exact ha hb
  ordered := by
    rw [List.pairwise_append]
    refine ⟨?_, List.pairwise_singleton _ _, ?_⟩
    · refine h.ordered.imp_of_mem fun {b c} hb hc hlt => ?_
      rwa [List.idxOf_append_of_mem ((h.mem_iff b).1 hb),
        List.idxOf_append_of_mem ((h.mem_iff c).1 hc)]
    · intro b hb c hc
      rw [List.mem_singleton.1 hc, List.idxOf_append_of_mem ((h.mem_iff b).1 hb),
        List.idxOf_append_of_notMem ha]
      exact Nat.lt_of_lt_of_le (List.idxOf_lt_length_iff.2 ((h.mem_iff b).1 hb))
        (Nat.le_add_right _ _)

theorem eq_nil_iff (h : Firsts all firsts) : firsts = [] ↔ all = [] := by
  rw [List.eq_nil_iff_forall_not_mem, List.eq_nil_iff_forall_not_mem]
  exact forall_congr' fun a => not_congr (h.mem_iff a)

theorem idxOf_map {β : Type} [DecidableEq β] {f : α → β} {a : α}
    (h : ∀ b ∈ all, f b = f a → b = a) : (all.map f).idxOf (f a) = all.idxOf a := by
  induction all with
  | nil => rfl
  | cons b all ih =>
      rw [List.forall_mem_cons] at h
      rw [List.map_cons, List.idxOf_cons, List.idxOf_cons, ih h.2]
      by_cases hb : b = a
      · rw [hb, beq_self_eq_true, beq_self_eq_true]
      · have hne : f b ≠ f a := fun heq => hb (h.1 heq)
        rw [beq_false_of_ne hb, beq_false_of_ne hne]

/-- There is one list of first occurrences. -/
theorem unique (h : Firsts all firsts) {others : List α} (hothers : Firsts all others) :
    firsts = others := by
  have hperm : firsts.Perm others := (List.perm_ext_iff_of_nodup h.nodup hothers.nodup).2
    fun a => (h.mem_iff a).trans (hothers.mem_iff a).symm
  exact hperm.eq_of_pairwise (fun a b _ _ hab hba => absurd hab (Nat.lt_asymm hba)) h.ordered
    hothers.ordered

/-- Names of the elements occur as these do, if no two elements have the same name. -/
theorem map {β : Type} [DecidableEq β] {f : α → β} (h : Firsts all firsts)
    (hf : ∀ a ∈ all, ∀ b ∈ all, f a = f b → a = b) : Firsts (all.map f) (firsts.map f) where
  mem_iff b := by simp [h.mem_iff]
  nodup := by
    refine List.Nodup.map_on (fun a ha b hb heq => ?_) h.nodup
    exact hf a ((h.mem_iff a).1 ha) b ((h.mem_iff b).1 hb) heq
  ordered := by
    rw [List.pairwise_map]
    refine h.ordered.imp_of_mem fun {a b} ha hb hlt => ?_
    rwa [idxOf_map fun c hc => hf c hc a ((h.mem_iff a).1 ha),
      idxOf_map fun c hc => hf c hc b ((h.mem_iff b).1 hb)]

end Firsts

theorem firsts_eraseDups {α : Type} [DecidableEq α] (all : List α) : Firsts all all.eraseDups := by
  induction all using List.reverseRecOn with
  | nil => exact .nil
  | append_singleton all a ih =>
      by_cases ha : a ∈ all
      · have herase : (all ++ [a]).eraseDups = all.eraseDups := by
          simp [List.eraseDups_append, List.removeAll, ha]
        exact herase ▸ ih.seen ha
      · have herase : (all ++ [a]).eraseDups = all.eraseDups ++ [a] := by
          simp [List.eraseDups_append, List.eraseDups_cons, List.removeAll, ha]
        exact herase ▸ ih.fresh ha

/-- The columns of a clause are told apart by their texts. -/
theorem Statement.firsts_distinctColumns (refs : List ColumnRef) :
    Firsts (refs.map ColumnRef.text) ((distinctColumns refs).map ColumnRef.text) := by
  induction refs using List.reverseRecOn with
  | nil => exact .nil
  | append_singleton refs ref ih =>
      have hadd : distinctColumns (refs ++ [ref]) = addColumn (distinctColumns refs) ref := by
        rw [distinctColumns, List.foldl_append]
        rfl
      have hseen : (distinctColumns refs).any (·.text == ref.text) = true ↔
          ref.text ∈ refs.map ColumnRef.text := by
        rw [← ih.mem_iff, List.any_eq_true, List.mem_map]
        simp
      rw [hadd, addColumn, List.map_append, List.map_singleton]
      by_cases hany : (distinctColumns refs).any (·.text == ref.text) = true
      · rw [if_pos hany]
        exact ih.seen (hseen.1 hany)
      · rw [if_neg hany, List.map_append, List.map_singleton]
        exact ih.fresh fun hmem => hany (hseen.2 hmem)

namespace Query

/-- The dimensions that a query mentions, each time it does: those of its select list, then those of
its conditions. -/
def mentions (query : Query) : List String :=
  query.levels.map LevelRef.dimension ++ query.conditions.map (·.ref.dimension)

theorem mem_mentions_of_level {query : Query} {ref : LevelRef} (h : ref ∈ query.levels) :
    ref.dimension ∈ query.mentions :=
  List.mem_append_left _ (List.mem_map_of_mem h)

theorem mem_mentions_of_condition {query : Query} {predicate : Predicate}
    (h : predicate ∈ query.conditions) : predicate.ref.dimension ∈ query.mentions :=
  List.mem_append_right _ (List.mem_map.2 ⟨predicate, h, rfl⟩)

/-- The levels of the select list as they are found in a cube. -/
def selectedLevels (query : Query) (cube : Cube) : List (Dimension × Level) :=
  query.levels.filterMap cube.level?

/-- The columns of the selected levels, each with the column that sorts it. -/
def groupColumns (query : Query) (cube : Cube) : List ColumnRef :=
  (query.selectedLevels cube).flatMap fun found =>
    [found.1.ref found.2.column, found.1.ref found.2.sortColumn]

/-- The columns that sort the selected levels. -/
def sortColumns (query : Query) (cube : Cube) : List ColumnRef :=
  (query.selectedLevels cube).map fun found => found.1.ref found.2.sortColumn

end Query

namespace Statement

/-- The clauses of a statement are as a query over a cube asks for them. -/
structure ClausesOf (statement : Statement) (query : Query) (cube : Cube) : Prop where
  /-- Every selected level is one of the cube. -/
  levels : ∀ ref ∈ query.levels, (cube.level? ref).isSome
  /-- Each dimension that is mentioned is joined once, in the order of first mention, and no
  other. -/
  joins : ∃ names, Firsts query.mentions names ∧
    List.Forall₂
      (fun name join => ∃ dimension, cube.dimension? name = some dimension ∧ join = dimension.join)
      names statement.joins
  /-- The groups are the columns of the selected levels and those that sort them. -/
  groups :
    Firsts ((query.groupColumns cube).map ColumnRef.text) (statement.groups.map ColumnRef.text)
  /-- The order is that of the columns which sort the selected levels. -/
  orders :
    Firsts ((query.sortColumns cube).map ColumnRef.text) (statement.orders.map ColumnRef.text)
  /-- What is selected and not aggregated is grouped. -/
  columns_grouped : ∀ ref label, .plain ref label ∈ statement.columns →
    ref.text ∈ statement.groups.map ColumnRef.text
  orders_grouped : ∀ ref ∈ statement.orders, ref.text ∈ statement.groups.map ColumnRef.text
  /-- A column that only restricts the facts neither groups nor orders them. -/
  restricted : ∀ condition ∈ statement.conditions,
    condition.ref.text ∉ (query.groupColumns cube).map ColumnRef.text →
      condition.ref.text ∉ statement.groups.map ColumnRef.text ∧
        condition.ref.text ∉ statement.orders.map ColumnRef.text
  /-- The text has a group and an order just if a level is selected. -/
  text_eq : statement.text = String.intercalate "\n" (statement.opening ++ statement.restriction ++
    if query.levels = [] then []
    else
      ["GROUP BY " ++ listed (statement.groups.map ColumnRef.text),
        "ORDER BY " ++ listed (statement.orders.map ColumnRef.text)])

end Statement

/-- An item of a select list resolves to a measure, or to the level that it selects. -/
theorem SelectItem.Resolves.cases_level {cube : Cube} {item : SelectItem} {resolved : ResolvedItem}
    (h : item.Resolves cube resolved) :
    (item.level? = none ∧ ∃ measure, resolved = .aggregated measure) ∨
      ∃ ref dimension level, item.level? = some ref ∧ cube.level? ref = some (dimension, level) ∧
        resolved = .grouped dimension level ref.label := by
  cases h with
  | measure h column label => exact .inl ⟨rfl, _, rfl⟩
  | level h joinable column sortColumn label => exact .inr ⟨_, _, _, rfl, h, rfl⟩

theorem filterMap_eq_of_forall₂ {α β : Type} {f : α → Option β} {list : List α}
    {values : List β} (h : List.Forall₂ (fun a b => f a = some b) list values) :
    list.filterMap f = values := by
  induction h with
  | nil => rfl
  | cons hfirst _ ih => rw [List.filterMap_cons_some hfirst, ih]

/-- Resolved items hold the levels of a select list, in order. -/
theorem SelectItem.exists_selected {cube : Cube} {select : List SelectItem}
    {items : List ResolvedItem} (h : List.Forall₂ (SelectItem.Resolves cube) select items) :
    ∃ selected : List (Dimension × Level),
      List.Forall₂ (fun ref found => cube.level? ref = some found)
        (select.filterMap SelectItem.level?) selected ∧
      items.filterMap ResolvedItem.dimension? = selected.map Prod.fst ∧
      items.flatMap ResolvedItem.groups = selected.flatMap (fun found =>
        [found.1.ref found.2.column, found.1.ref found.2.sortColumn]) ∧
      items.filterMap ResolvedItem.order? =
        selected.map fun found => found.1.ref found.2.sortColumn := by
  induction h with
  | nil => exact ⟨[], .nil, rfl, rfl, rfl⟩
  | @cons item resolved select items hitem _ ih =>
      obtain ⟨selected, hselected, hdimensions, hgroups, horders⟩ := ih
      rcases hitem.cases_level with
        ⟨hnone, measure, rfl⟩ | ⟨ref, dimension, level, href, hlevel, rfl⟩
      · refine ⟨selected, ?_, hdimensions, hgroups, horders⟩
        rwa [List.filterMap_cons_none hnone]
      · refine ⟨(dimension, level) :: selected, ?_, ?_, ?_, ?_⟩
        · rw [List.filterMap_cons_some href]
          exact .cons hlevel hselected
        · exact congrArg (dimension :: ·) hdimensions
        · exact congrArg ([dimension.ref level.column, dimension.ref level.sortColumn] ++ ·) hgroups
        · exact congrArg (dimension.ref level.sortColumn :: ·) horders

/-- A name that is mentioned, with the dimension that it names. -/
def Cube.Names (cube : Cube) (name : String) (dimension : Dimension) : Prop :=
  cube.dimension? name = some dimension

theorem Cube.map_name_eq {cube : Cube} {names : List String} {dimensions : List Dimension}
    (h : List.Forall₂ cube.Names names dimensions) :
    dimensions.map Dimension.name = names ∧
      ∀ dimension ∈ dimensions, cube.Names dimension.name dimension := by
  induction h with
  | nil => simp
  | @cons name dimension names dimensions hfirst _ ih =>
      obtain rfl : dimension.name = name := Cube.name_of_dimension? hfirst
      exact ⟨congrArg (dimension.name :: ·) ih.1, List.forall_mem_cons.2 ⟨hfirst, ih.2⟩⟩

namespace Query

variable {query : Query} {cube : Cube}

/-- The dimensions of resolved items and conditions are those that the query mentions, in order. -/
theorem Resolves.names {items : List ResolvedItem} {conditions : List ResolvedCondition}
    (h : query.Resolves cube items conditions) :
    List.Forall₂ cube.Names query.mentions
      (items.filterMap ResolvedItem.dimension? ++ conditions.map ResolvedCondition.dimension) := by
  obtain ⟨selected, hselected, hdimensions, -, -⟩ := SelectItem.exists_selected h.items
  rw [mentions, hdimensions]
  apply List.rel_append
  · rw [List.forall₂_map_left_iff, List.forall₂_map_right_iff]
    exact hselected.imp fun _ _ hlevel => (Cube.level?_eq_some_iff.1 hlevel).1
  · rw [List.forall₂_map_left_iff, List.forall₂_map_right_iff]
    exact h.conditions.imp fun _ _ hcondition => (Cube.level?_eq_some_iff.1 hcondition.level).1

/-- The dimensions of resolved items and conditions are told apart by name. -/
theorem Resolves.eq_of_name_eq {items : List ResolvedItem} {conditions : List ResolvedCondition}
    (h : query.Resolves cube items conditions) {first second : Dimension}
    (hfirst : first ∈ items.filterMap ResolvedItem.dimension? ++
      conditions.map ResolvedCondition.dimension)
    (hsecond : second ∈ items.filterMap ResolvedItem.dimension? ++
      conditions.map ResolvedCondition.dimension) (heq : first.name = second.name) :
    first = second := by
  have hfound := (Cube.map_name_eq h.names).2
  have hsame := hfound first hfirst
  rw [Cube.Names, heq, hfound second hsecond] at hsame
  exact (Option.some.inj hsame).symm

/-- Each dimension that is mentioned is joined, at its first mention. -/
theorem Resolves.firsts_mentioned {items : List ResolvedItem}
    {conditions : List ResolvedCondition} (h : query.Resolves cube items conditions) :
    Firsts query.mentions ((Statement.mentioned items conditions).map Dimension.name) ∧
      ∀ dimension ∈ Statement.mentioned items conditions, cube.Names dimension.name dimension := by
  obtain ⟨hnames, hfound⟩ := Cube.map_name_eq h.names
  constructor
  · rw [← hnames]
    apply (firsts_eraseDups _).map
    exact fun first hfirst second hsecond heq => h.eq_of_name_eq hfirst hsecond heq
  · intro dimension hdimension
    exact hfound dimension (List.mem_eraseDups.1 hdimension)

/-- Resolved items hold the columns of the selected levels, which are levels of the cube. -/
theorem Resolves.columns_eq {items : List ResolvedItem} {conditions : List ResolvedCondition}
    (h : query.Resolves cube items conditions) :
    (∀ ref ∈ query.levels, (cube.level? ref).isSome) ∧
      items.flatMap ResolvedItem.groups = query.groupColumns cube ∧
      items.filterMap ResolvedItem.order? = query.sortColumns cube := by
  obtain ⟨selected, hselected, -, hgroups, horders⟩ := SelectItem.exists_selected h.items
  obtain rfl : query.selectedLevels cube = selected := filterMap_eq_of_forall₂ hselected
  refine ⟨fun ref href => ?_, hgroups, horders⟩
  obtain ⟨found, -, hlevel⟩ := exists_of_forall₂ hselected href
  exact Option.isSome_of_eq_some hlevel

/-- Groups and order are put together from the columns of the selected levels. -/
theorem Resolves.firsts_columns {items : List ResolvedItem} {conditions : List ResolvedCondition}
    (h : query.Resolves cube items conditions) :
    Firsts ((query.groupColumns cube).map ColumnRef.text)
        ((Statement.distinctColumns (items.flatMap ResolvedItem.groups)).map ColumnRef.text) ∧
      Firsts ((query.sortColumns cube).map ColumnRef.text)
        ((Statement.distinctColumns (items.filterMap ResolvedItem.order?)).map ColumnRef.text) := by
  obtain ⟨-, hgroups, horders⟩ := h.columns_eq
  rw [hgroups, horders]
  exact ⟨Statement.firsts_distinctColumns _, Statement.firsts_distinctColumns _⟩

theorem mem_groupColumns_iff {column : ColumnRef} :
    column ∈ query.groupColumns cube ↔
      ∃ ref ∈ query.levels, ∃ dimension level, cube.level? ref = some (dimension, level) ∧
        (column = dimension.ref level.column ∨ column = dimension.ref level.sortColumn) := by
  rw [groupColumns, List.mem_flatMap]
  constructor
  · rintro ⟨⟨dimension, level⟩, hfound, hcolumn⟩
    obtain ⟨ref, href, hlevel⟩ := List.mem_filterMap.1 hfound
    exact ⟨ref, href, dimension, level, hlevel, List.mem_pair.1 hcolumn⟩
  · rintro ⟨ref, href, dimension, level, hlevel, hcolumn⟩
    exact ⟨(dimension, level), List.mem_filterMap.2 ⟨ref, href, hlevel⟩, List.mem_pair.2 hcolumn⟩

theorem groupColumns_eq_nil_iff (hfound : ∀ ref ∈ query.levels, (cube.level? ref).isSome) :
    query.groupColumns cube = [] ↔ query.levels = [] := by
  constructor
  · intro h
    rw [List.eq_nil_iff_forall_not_mem]
    intro ref href
    obtain ⟨⟨dimension, level⟩, hlevel⟩ := Option.isSome_iff_exists.1 (hfound ref href)
    have hmem : dimension.ref level.column ∈ query.groupColumns cube :=
      mem_groupColumns_iff.2 ⟨ref, href, dimension, level, hlevel, .inl rfl⟩
    simp [h] at hmem
  · intro h
    simp [groupColumns, selectedLevels, h]

/-- What is sorted by is grouped by. -/
theorem sortColumns_subset :
    query.sortColumns cube ⊆ query.groupColumns cube := by
  intro ref href
  obtain ⟨found, hfound, rfl⟩ := List.mem_map.1 href
  exact List.mem_flatMap.2 ⟨found, hfound, by simp⟩

end Query

/-- A column that is not aggregated is that of a level, which is grouped. -/
theorem ResolvedItem.mem_groups_of_column {item : ResolvedItem} {ref : ColumnRef} {label : String}
    (h : .plain ref label = item.column) : ref ∈ item.groups := by
  cases item with
  | aggregated measure => simp [column] at h
  | grouped dimension level other =>
      obtain ⟨rfl, rfl⟩ : ref = dimension.ref level.column ∧ label = other := by
        simpa [column] using h
      simp [groups]

namespace Query

variable {query : Query} {cube : Cube}

/-- The clauses of a statement say what the query mentions, without repetition and in the order of
first mention. -/
theorem clauses_of_statement {statement : Statement} (h : query.statement cube = .ok statement) :
    statement.ClausesOf query cube := by
  obtain ⟨items, conditions, hresolves, rfl⟩ := resolves_of_statement h
  obtain ⟨hlevels, -, -⟩ := hresolves.columns_eq
  obtain ⟨hgroups, horders⟩ := hresolves.firsts_columns
  obtain ⟨hfirsts, hfound⟩ := hresolves.firsts_mentioned
  have hsorted : ∀ text ∈ (query.sortColumns cube).map ColumnRef.text,
      text ∈ (query.groupColumns cube).map ColumnRef.text :=
    fun _ htext => List.map_subset _ sortColumns_subset htext
  exact {
    levels := hlevels
    joins := by
      refine ⟨_, hfirsts, ?_⟩
      change List.Forall₂ _ _ ((Statement.mentioned items conditions).map Dimension.join)
      rw [List.forall₂_map_left_iff, List.forall₂_map_right_iff, List.forall₂_same]
      exact fun dimension hdimension => ⟨dimension, hfound dimension hdimension, rfl⟩
    groups := hgroups
    orders := horders
    columns_grouped := by
      intro ref label hcolumn
      obtain ⟨item, hitem, heq⟩ := List.mem_map.1 hcolumn
      have hmem : ref ∈ items.flatMap ResolvedItem.groups :=
        List.mem_flatMap.2 ⟨item, hitem, ResolvedItem.mem_groups_of_column heq.symm⟩
      exact (Statement.firsts_distinctColumns _).mem_iff _ |>.2 (List.mem_map_of_mem hmem)
    orders_grouped := by
      intro ref href
      apply (hgroups.mem_iff _).2
      apply hsorted
      exact (horders.mem_iff _).1 (List.mem_map_of_mem href)
    restricted := by
      intro condition _ hcolumn
      constructor
      · exact fun hgroup => hcolumn ((hgroups.mem_iff _).1 hgroup)
      · exact fun horder => hcolumn (hsorted _ ((horders.mem_iff _).1 horder))
    text_eq := by
      have hnone : Statement.distinctColumns (items.flatMap ResolvedItem.groups) = [] ↔
          query.levels = [] := by
        rw [← List.map_eq_nil_iff, hgroups.eq_nil_iff, List.map_eq_nil_iff,
          groupColumns_eq_nil_iff hlevels]
      rw [Statement.text, Statement.lines_eq]
      congr 2
      simp only [Statement.closing, List.isEmpty_iff]
      exact if_congr hnone rfl rfl }

end Query

/-- Orders by flag and month in a year, from one country. -/
def BuiltIn.ordersByFlagAndMonth : Query :=
  ⟨[.level ⟨"Vessel", "Flag", none⟩, .level ⟨"Time", "Month", some "Fiscal"⟩, .measure "POAmount",
    .level ⟨"Time", "Year", none⟩], "MaritimeProcurement",
    [.equals ⟨"Time", "Date", none⟩ (.text "2024-05-01"),
      .equals ⟨"Vendor", "Country", none⟩ .null]⟩

/-- The time is joined once, between the flag that is selected first and the vendor that is only
restricted; the country is in neither list. -/
theorem BuiltIn.ordersByFlagAndMonth_clauses :
    ∃ statement, ordersByFlagAndMonth.statement maritimeProcurement = .ok statement ∧
      statement.ClausesOf ordersByFlagAndMonth maritimeProcurement ∧
      statement.joins.map Join.tableAlias = ["d_vessel", "d_time", "d_vendor"] ∧
      statement.groups.map ColumnRef.text =
        ["d_vessel.flag", "d_time.month_name", "d_time.month", "d_time.year"] ∧
      statement.orders.map ColumnRef.text = ["d_vessel.flag", "d_time.month", "d_time.year"] := by
  have hclauses : (ordersByFlagAndMonth.statement maritimeProcurement).toOption.map
      (fun statement => (statement.joins.map Join.tableAlias, statement.groups.map ColumnRef.text,
        statement.orders.map ColumnRef.text)) =
      some (["d_vessel", "d_time", "d_vendor"],
        ["d_vessel.flag", "d_time.month_name", "d_time.month", "d_time.year"],
        ["d_vessel.flag", "d_time.month", "d_time.year"]) := by
    decide +kernel
  cases hstatement : ordersByFlagAndMonth.statement maritimeProcurement with
  | error failure => simp [hstatement, Except.toOption] at hclauses
  | ok statement =>
      obtain ⟨hjoins, hgroups, horders⟩ : statement.joins.map Join.tableAlias = _ ∧
          statement.groups.map ColumnRef.text = _ ∧ statement.orders.map ColumnRef.text = _ := by
        simpa [hstatement, Except.toOption] using hclauses
      exact ⟨statement, rfl, Query.clauses_of_statement hstatement, hjoins, hgroups, horders⟩

end StarCube
