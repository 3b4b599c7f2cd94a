import Mathlib.Data.List.Forall2
import Mathlib.Data.Multiset.Filter
import Mathlib.Data.Finset.Dedup
import StarCube.Proofs.Query.Aliases

/-!
What a statement means over tables with rows: the facts are joined to the dimensions, the conditions
select, the rest is grouped, and each group is one row of the result. How a store tells values apart
and what it makes of numbers is left open.
-/

namespace StarCube

/-- The values of a row, by the name of their column. -/
abbrev Record : Type := String → Value

/-- What a store does with values. -/
structure Dialect where
  /-- What equal values have in common. -/
  Key : Type
  decidableKey : DecidableEq Key
  /-- The key of a value. To be null is to have none, and so to be equal to nothing. -/
  key : Value → Option Key
  key_eq_none_iff : ∀ value, key value = none ↔ value.isNull = true
  /-- The sum, the average, the least and the greatest of values that are not null. -/
  sum : Multiset Value → Value
  average : Multiset Value → Value
  least : Multiset Value → Value
  greatest : Multiset Value → Value

attribute [instance] Dialect.decidableKey

namespace Dialect

/-- The truth of a comparison, which holds between no null and anything. -/
def equal (dialect : Dialect) (left right : Value) : Bool :=
  match dialect.key left with
  | none => false
  | some key => dialect.key right = some key

/-- The aggregate of values, each as often as it occurs. Nulls do not count, and the aggregate of no
other values is null unless it is their number. -/
def aggregate (dialect : Dialect) (aggregation : Aggregation) (values : Multiset Value) : Value :=
  let known := values.filter fun value => value.isNull = false
  match aggregation with
  | .count => .int known.card
  | .countDistinct => .int (known.filterMap dialect.key).dedup.card
  | .sum => if known.card = 0 then .null else dialect.sum known
  | .avg => if known.card = 0 then .null else dialect.average known
  | .min => if known.card = 0 then .null else dialect.least known
  | .max => if known.card = 0 then .null else dialect.greatest known

theorem equal_of_equal {dialect : Dialect} {value left right : Value}
    (hleft : dialect.equal value left = true) (hright : dialect.equal value right = true) :
    dialect.equal left right = true := by
  unfold equal at *
  cases hkey : dialect.key value with
  | none => simp [hkey] at hleft
  | some key =>
      simp only [hkey, decide_eq_true_eq] at hleft hright
      simp [hleft, hright]

end Dialect

/-- A store with the rows of its tables. -/
structure Warehouse extends Dialect where
  rows : String → List Record

/-- The rows that are joined at one place, each under the alias of its table. -/
abbrev Scope : Type := List (String × Record)

namespace Scope

/-- No alias is introduced twice. -/
def Apart (scope : Scope) : Prop :=
  (scope.map Prod.fst).Pairwise fun left right => ¬ SameLetters left right

/-- The value of a column, that of the first table under its alias. -/
def value (scope : Scope) (ref : ColumnRef) : Value :=
  match scope.find? (fun source => SameLetters source.1 ref.tableAlias) with
  | none => .null
  | some source => source.2 ref.column

theorem value_of_mem {scope : Scope} (h : scope.Apart) {ref : ColumnRef} {record : Record}
    (hmem : (ref.tableAlias, record) ∈ scope) : scope.value ref = record ref.column := by
  unfold value
  induction scope with
  | nil => simp at hmem
  | cons source scope ih =>
      rw [Apart, List.map_cons, List.pairwise_cons, List.forall_mem_map] at h
      rcases List.mem_cons.1 hmem with rfl | hmem
      · rw [List.find?_cons_of_pos (by simpa using SameLetters.refl _)]
      · have hother : ¬ SameLetters source.1 ref.tableAlias := h.1 _ hmem
        rw [List.find?_cons_of_neg (by simpa using hother)]
        exact ih h.2 hmem

end Scope

namespace Join

/-- The join of a table on the right of what is joined so far: each row of the table that meets the
condition, or a row of nulls if none does. -/
def extend (warehouse : Warehouse) (join : Join) (scope : Scope) : List Scope :=
  let matching := ((warehouse.rows join.table).map fun record =>
    scope ++ [(join.tableAlias, record)]).filter fun extended =>
      warehouse.equal (extended.value join.factKey) (extended.value join.keyColumn)
  if matching = [] then [scope ++ [(join.tableAlias, fun _ => .null)]] else matching

end Join

/-- What is in a list, sorted by a key: one class for each key that occurs, with all that have
it. -/
def classes {α κ : Type} [DecidableEq κ] (key : α → κ) (list : List α) : List (List α) :=
  (list.map key).eraseDups.map fun found => list.filter fun a => key a = found

theorem classes_map {α β κ : Type} [DecidableEq κ] (key : β → κ) (f : α → β) (list : List α) :
    classes key (list.map f) = (classes (fun a => key (f a)) list).map (List.map f) := by
  simp only [classes, List.map_map, List.filter_map]
  rfl

theorem ne_nil_of_mem_classes {α κ : Type} [DecidableEq κ] {key : α → κ} {list members : List α}
    (h : members ∈ classes key list) : members ≠ [] := by
  obtain ⟨found, hfound, rfl⟩ := List.mem_map.1 h
  obtain ⟨a, ha, rfl⟩ := List.mem_map.1 (List.mem_eraseDups.1 hfound)
  exact List.ne_nil_of_mem (List.mem_filter.2 ⟨ha, by simp⟩)

/-- Related values exist for a list if they do for each of its elements. -/
theorem exists_forall₂ {α β : Type} {related : α → β → Prop} {list : List α}
    (h : ∀ a ∈ list, ∃ b, related a b) : ∃ values, List.Forall₂ related list values := by
  induction list with
  | nil => exact ⟨[], .nil⟩
  | cons first rest ih =>
      rw [List.forall_mem_cons] at h
      obtain ⟨value, hvalue⟩ := h.1
      obtain ⟨values, hvalues⟩ := ih h.2
      exact ⟨value :: values, .cons hvalue hvalues⟩

/-- Whether a condition is known to be true of what is joined. -/
def Condition.holds (dialect : Dialect) (scope : Scope) : Condition → Bool
  | .equals ref value => dialect.equal (scope.value ref) value
  | .among ref values => values.any (dialect.equal (scope.value ref))

/-- A value that a group may have in a column of the result. -/
inductive OutputColumn.Cell (dialect : Dialect) (group : List Scope) :
    OutputColumn → Value → Prop where
  | aggregate (aggregation : Aggregation) (ref : ColumnRef) (label : String) :
      Cell dialect group (.aggregate aggregation ref label)
        (dialect.aggregate aggregation (group.map fun scope => scope.value ref))
  | plain {scope : Scope} (hscope : scope ∈ group) (ref : ColumnRef) (label : String) :
      Cell dialect group (.plain ref label) (scope.value ref)

namespace Statement

/-- The facts with all that is joined to them. -/
def joined (statement : Statement) (warehouse : Warehouse) : List Scope :=
  statement.joins.foldl (fun scopes join => scopes.flatMap (join.extend warehouse))
    ((warehouse.rows statement.factTable).map fun fact => [(factAlias, fact)])

/-- What meets all conditions. -/
def kept (statement : Statement) (warehouse : Warehouse) : List Scope :=
  (statement.joined warehouse).filter fun scope =>
    statement.conditions.all (Condition.holds warehouse.toDialect scope)

/-- What is the same in all members of a group. -/
def groupKey (statement : Statement) (dialect : Dialect) (scope : Scope) :
    List (Option dialect.Key) :=
  statement.groups.map fun ref => dialect.key (scope.value ref)

/-- The groups, which are one group of everything if the statement does not group. -/
def grouped (statement : Statement) (warehouse : Warehouse) : List (List Scope) :=
  if statement.groups = [] then [statement.kept warehouse]
  else classes (statement.groupKey warehouse.toDialect) (statement.kept warehouse)

/-- Each column is of one table, and what is selected or ordered by is grouped unless it is
aggregated. -/
structure Meaningful (statement : Statement) : Prop where
  aliases : statement.sources.Pairwise fun left right => ¬ SameLetters left.1 right.1
  located : ∀ ref ∈ statement.refs, ∃ table, statement.denoted ref = [table]
  columns : ∀ ref label, .plain ref label ∈ statement.columns → ref ∈ statement.groups
  orders : ∀ ref ∈ statement.orders, ref ∈ statement.groups

/-- A result of a statement, one row for each group. The order only arranges the rows. -/
structure Yields (statement : Statement) (warehouse : Warehouse) (rows : List (List Value)) :
    Prop where
  meaningful : statement.Meaningful
  rows : ∃ unordered, List.Forall₂ (fun group =>
      List.Forall₂ (OutputColumn.Cell warehouse.toDialect group) statement.columns)
    (statement.grouped warehouse) unordered ∧ unordered.Perm rows

variable {statement : Statement}

/-- A group of a meaningful statement has a value in each column. -/
theorem Meaningful.exists_cell (h : statement.Meaningful) {warehouse : Warehouse}
    {group : List Scope} (hgroup : group ∈ statement.grouped warehouse) {column : OutputColumn}
    (hcolumn : column ∈ statement.columns) :
    ∃ value, column.Cell warehouse.toDialect group value := by
  cases column with
  | aggregate aggregation ref label => exact ⟨_, .aggregate aggregation ref label⟩
  | plain ref label =>
      have hgroups : statement.groups ≠ [] := List.ne_nil_of_mem (h.columns ref label hcolumn)
      rw [grouped, if_neg hgroups] at hgroup
      obtain ⟨scope, hscope⟩ := List.exists_mem_of_ne_nil group (ne_nil_of_mem_classes hgroup)
      exact ⟨_, .plain hscope ref label⟩

/-- Every meaningful statement has a result. -/
theorem Meaningful.exists_yields (h : statement.Meaningful) (warehouse : Warehouse) :
    ∃ rows, statement.Yields warehouse rows := by
  obtain ⟨rows, hrows⟩ : ∃ rows, List.Forall₂ (fun group =>
      List.Forall₂ (OutputColumn.Cell warehouse.toDialect group) statement.columns)
      (statement.grouped warehouse) rows :=
    exists_forall₂ fun group hgroup => exists_forall₂ fun column hcolumn =>
      h.exists_cell hgroup hcolumn
  exact ⟨rows, h, rows, hrows, .refl rows⟩

end Statement

end StarCube
