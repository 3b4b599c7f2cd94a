import Mathlib.Data.List.Forall2
import StarCube.Proofs.Sql.Places

/-!
The text of a statement over plain names: its places are those of its conditions, in their order,
and it does not tell which values stand at them.
-/

namespace StarCube

namespace OutputColumn

def ref : OutputColumn → ColumnRef
  | .aggregate _ ref _ => ref
  | .plain ref _ => ref

end OutputColumn

namespace Condition

/-- The column that a condition restricts. -/
def ref : Condition → ColumnRef
  | .equals ref _ => ref
  | .among ref _ => ref

/-- The columns that a condition writes. The one that no row meets writes none. -/
def refs : Condition → List ColumnRef
  | .equals ref _ => [ref]
  | .among _ [] => []
  | .among ref _ => [ref]

/-- Conditions that differ at most in their values. -/
inductive SameShape : Condition → Condition → Prop
  | equals (ref : ColumnRef) (value other : Value) :
      SameShape (.equals ref value) (.equals ref other)
  | among (ref : ColumnRef) {values others : List Value}
      (length_eq : values.length = others.length) :
      SameShape (.among ref values) (.among ref others)

/-- The list that a condition of several values writes. -/
theorem places_marks (values : List Value) :
    places (String.intercalate ", " (values.map fun _ => "?")) = values.length := by
  rw [places_intercalate (by decide), List.map_map]
  induction values with
  | nil => rfl
  | cons value rest ih =>
      rw [List.map_cons, List.sum_cons, ih, List.length_cons, Nat.add_comm]
      simp [places]

theorem unquoted_marks (values : List Value) :
    Unquoted (String.intercalate ", " (values.map fun _ => "?")) := by
  apply unquoted_intercalate (by decide)
  intro mark hmark
  obtain ⟨_, -, rfl⟩ := List.mem_map.1 hmark
  decide

/-- A condition has a place for each of its values. -/
theorem places_text {condition : Condition} (h : Plain condition.ref.text) :
    places condition.text = condition.values.length := by
  rcases condition with ⟨ref, value⟩ | ⟨ref, values⟩
  · have hplaces : places ref.text = 0 := h.places_eq
    rw [text, places_append, hplaces]
    rfl
  · have hplaces : places ref.text = 0 := h.places_eq
    cases values with
    | nil => simp [text, values, places]
    | cons value rest =>
        rw [text, places_append, places_append, places_append, hplaces, places_marks]
        · simp [values, places]
        · simp

theorem unquoted_text {condition : Condition} (h : Plain condition.ref.text) :
    Unquoted condition.text := by
  rcases condition with ⟨ref, value⟩ | ⟨ref, values⟩
  · exact unquoted_append_iff.2 ⟨h.unquoted, by decide⟩
  · cases values with
    | nil =>
        rw [text]
        decide
    | cons value rest =>
        simp only [text, unquoted_append_iff]
        exact ⟨⟨⟨h.unquoted, by decide⟩, unquoted_marks (value :: rest)⟩, by decide⟩

theorem SameShape.text_eq {condition other : Condition} (h : condition.SameShape other) :
    condition.text = other.text := by
  cases h with
  | equals => rfl
  | @among ref values others hlength =>
      cases values with
      | nil => cases others <;> simp_all [text]
      | cons value rest =>
          cases others with
          | nil => simp at hlength
          | cons other others => simp_all [text, List.map_const']

theorem SameShape.length_values_eq {condition other : Condition} (h : condition.SameShape other) :
    condition.values.length = other.values.length := by
  cases h with
  | equals => rfl
  | among ref hlength => exact hlength

end Condition

namespace Statement

/-- The columns that a statement writes. -/
def refs (statement : Statement) : List ColumnRef :=
  statement.columns.map OutputColumn.ref ++
    statement.joins.flatMap (fun join => [join.factKey, join.keyColumn]) ++
    statement.conditions.flatMap Condition.refs ++ statement.groups ++ statement.orders

/-- No name in a statement has a quote or a question mark. -/
structure Named (statement : Statement) : Prop where
  columns : ∀ column ∈ statement.columns, Plain column.text
  factTable : Plain statement.factTable
  joins : ∀ join ∈ statement.joins, Plain join.text
  conditions : ∀ condition ∈ statement.conditions, Plain condition.ref.text
  groups : ∀ ref ∈ statement.groups, Plain ref.text
  orders : ∀ ref ∈ statement.orders, Plain ref.text

/-- The lines before the conditions. -/
def opening (statement : Statement) : List String :=
  ("SELECT " ++ listed (statement.columns.map OutputColumn.text)) ::
    ("FROM " ++ statement.factTable ++ " " ++ factAlias) :: statement.joins.map Join.text

/-- The lines after the conditions. -/
def closing (statement : Statement) : List String :=
  if statement.groups.isEmpty then []
  else
    ["GROUP BY " ++ listed (statement.groups.map ColumnRef.text),
      "ORDER BY " ++ listed (statement.orders.map ColumnRef.text)]

/-- The conditions as one text. -/
def conditionText (statement : Statement) : String :=
  String.intercalate " AND " (statement.conditions.map Condition.text)

theorem lines_of_conditions {statement : Statement} (h : statement.conditions ≠ []) :
    statement.lines =
      statement.opening ++ ("WHERE " ++ statement.conditionText) :: statement.closing := by
  simp [lines, opening, closing, conditionText, h]

theorem lines_of_no_conditions {statement : Statement} (h : statement.conditions = []) :
    statement.lines = statement.opening ++ statement.closing := by
  simp [lines, opening, closing, h]

/-- The line of the conditions, if there are any. -/
def restriction (statement : Statement) : List String :=
  if statement.conditions = [] then [] else ["WHERE " ++ statement.conditionText]

theorem lines_eq (statement : Statement) :
    statement.lines = statement.opening ++ statement.restriction ++ statement.closing := by
  by_cases h : statement.conditions = []
  · rw [lines_of_no_conditions h, restriction, if_pos h, List.append_nil]
  · rw [lines_of_conditions h, restriction, if_neg h, List.append_assoc, List.singleton_append]

variable {statement : Statement}

theorem Named.plain_listed {α : Type} {texts : List α} {write : α → String}
    (h : ∀ part ∈ texts, Plain (write part)) : Plain (listed (texts.map write)) := by
  apply plain_intercalate (by decide)
  intro text htext
  obtain ⟨part, hpart, rfl⟩ := List.mem_map.1 htext
  exact h part hpart

theorem Named.opening (h : statement.Named) : ∀ line ∈ statement.opening, Plain line := by
  intro line hline
  rcases List.mem_cons.1 hline with rfl | hline
  · exact Plain.append (by decide) (plain_listed h.columns)
  · rcases List.mem_cons.1 hline with rfl | hline
    · simp only [plain_append_iff]
      exact ⟨⟨⟨by decide, h.factTable⟩, by decide⟩, by decide⟩
    · obtain ⟨join, hjoin, rfl⟩ := List.mem_map.1 hline
      exact h.joins join hjoin

theorem Named.closing (h : statement.Named) : ∀ line ∈ statement.closing, Plain line := by
  intro line hline
  unfold Statement.closing at hline
  split at hline
  · simp at hline
  · rcases List.mem_pair.1 hline with rfl | rfl
    · exact Plain.append (by decide) (plain_listed h.groups)
    · exact Plain.append (by decide) (plain_listed h.orders)

/-- Conditions have as many places as they have values. -/
theorem sum_places_conditions {conditions : List Condition}
    (h : ∀ condition ∈ conditions, Plain condition.ref.text) :
    ((conditions.map Condition.text).map places).sum =
      (conditions.flatMap Condition.values).length := by
  induction conditions with
  | nil => rfl
  | cons condition rest ih =>
      rw [List.forall_mem_cons] at h
      rw [List.map_cons, List.map_cons, List.sum_cons, ih h.2, Condition.places_text h.1,
        List.flatMap_cons, List.length_append]

/-- A statement has a place for each of its values. -/
theorem Named.places_text (h : statement.Named) :
    places statement.text = statement.params.length := by
  have hopening := sum_places_eq_zero h.opening
  have hclosing := sum_places_eq_zero h.closing
  rw [text, places_intercalate (by decide)]
  by_cases hnone : statement.conditions = []
  · rw [lines_of_no_conditions hnone, List.map_append, List.sum_append, hopening, hclosing,
      params, hnone]
    rfl
  · have hconditions : places statement.conditionText = statement.params.length := by
      rw [conditionText, places_intercalate (by decide), sum_places_conditions h.conditions, params]
    rw [lines_of_conditions hnone, List.map_append, List.map_cons, List.sum_append, List.sum_cons,
      hopening, hclosing, places_append, hconditions]
    simp [places]

theorem Named.unquoted_text (h : statement.Named) : Unquoted statement.text := by
  apply unquoted_intercalate (by decide)
  have hopening := fun line hline => (h.opening line hline).unquoted
  have hclosing := fun line hline => (h.closing line hline).unquoted
  by_cases hnone : statement.conditions = []
  · rw [lines_of_no_conditions hnone, List.forall_mem_append]
    exact ⟨hopening, hclosing⟩
  · rw [lines_of_conditions hnone, List.forall_mem_append, List.forall_mem_cons]
    refine ⟨hopening, unquoted_append_iff.2 ⟨by decide, ?_⟩, hclosing⟩
    apply unquoted_intercalate (by decide)
    intro text htext
    obtain ⟨condition, hcondition, rfl⟩ := List.mem_map.1 htext
    exact Condition.unquoted_text (h.conditions condition hcondition)

/-- A condition stands behind the places of the conditions before it. -/
theorem Named.text_around (h : statement.Named) {front rest : List Condition}
    {condition : Condition} (hconditions : statement.conditions = front ++ condition :: rest) :
    ∃ before after, statement.text = before ++ condition.text ++ after ∧
      places before = (front.flatMap Condition.values).length ∧
      places after = (rest.flatMap Condition.values).length := by
  have hplain := h.conditions
  rw [hconditions, List.forall_mem_append, List.forall_mem_cons] at hplain
  have hline : Plain "\n" := by decide
  have hand : Plain " AND " := by decide
  obtain ⟨head, tail, htext, hhead, htail⟩ :=
    intercalate_around hline statement.opening statement.closing
      ("WHERE " ++ statement.conditionText)
  obtain ⟨left, right, hinner, hleft, hright⟩ :=
    intercalate_around hand (front.map Condition.text) (rest.map Condition.text) condition.text
  refine ⟨head ++ "WHERE " ++ left, right ++ tail, ?_, ?_, ?_⟩
  · rw [text, lines_of_conditions (by simp [hconditions]), htext, conditionText, hconditions,
      List.map_append, List.map_cons, hinner]
    simp only [String.append_assoc]
  · rw [places_append, places_append, hhead, sum_places_eq_zero h.opening, hleft,
      sum_places_conditions hplain.1]
    simp [places]
  · rw [places_append, htail, sum_places_eq_zero h.closing, hright,
      sum_places_conditions hplain.2.2, Nat.add_zero]

/-- Statements that differ at most in the values of their conditions. -/
structure SameShape (statement other : Statement) : Prop where
  conditions : List.Forall₂ Condition.SameShape statement.conditions other.conditions
  others : { statement with conditions := other.conditions } = other

theorem map_text_eq {conditions others : List Condition}
    (h : List.Forall₂ Condition.SameShape conditions others) :
    conditions.map Condition.text = others.map Condition.text := by
  induction h with
  | nil => rfl
  | cons hfirst _ ih => rw [List.map_cons, List.map_cons, hfirst.text_eq, ih]

theorem length_flatMap_values_eq {conditions others : List Condition}
    (h : List.Forall₂ Condition.SameShape conditions others) :
    (conditions.flatMap Condition.values).length = (others.flatMap Condition.values).length := by
  induction h with
  | nil => rfl
  | cons hfirst _ ih =>
      rw [List.flatMap_cons, List.flatMap_cons, List.length_append, List.length_append,
        hfirst.length_values_eq, ih]

/-- The text of a statement does not depend on its values. -/
theorem SameShape.text_eq {other : Statement} (h : statement.SameShape other) :
    statement.text = other.text := by
  have htexts := map_text_eq h.conditions
  have hempty : statement.conditions.isEmpty = other.conditions.isEmpty := by
    simpa using congrArg List.isEmpty htexts
  rw [← h.others, text, text, lines, lines, htexts, hempty]

theorem SameShape.joins_eq {other : Statement} (h : statement.SameShape other) :
    statement.joins = other.joins := by
  rw [← h.others]

theorem SameShape.length_params_eq {other : Statement} (h : statement.SameShape other) :
    statement.params.length = other.params.length :=
  length_flatMap_values_eq h.conditions

end Statement

end StarCube
