import StarCube.Proofs.Cube.Consistent
import StarCube.Proofs.Engine.Removal

/-!
The tables of a store, as far as refreshes change them. Statements are read as the store reads them:
one creates the table that it names, another removes what there is of that name. Statements that are
submitted together are executed one after the other until one fails.
-/

namespace StarCube

/-- Something that prevents the store from executing statements, after some of them have been. -/
structure Fault where
  executed : Nat
  failure : Failure

/-- What a store says of statements. -/
def Fault.outcome : Option Fault → Except Failure Unit
  | none => .ok ()
  | some fault => .error fault.failure

namespace Store

/-- What follows an opening in a text that begins with it. -/
def after? (opening text : String) : Option (List Char) :=
  if opening.toList.isPrefixOf text.toList then
    some (text.toList.drop opening.toList.length)
  else none

/-- The table that a statement creates. -/
def created? (statement : String) : Option String :=
  (after? "CREATE TABLE " statement).map fun rest => String.ofList (rest.takeWhile (· != ' '))

/-- The table that a statement removes. -/
def removed? (statement : String) : Option String :=
  (after? "DROP TABLE IF EXISTS " statement).map String.ofList

/-- The tables after a statement. -/
def execute (tables : List String) (statement : String) : List String :=
  match removed? statement with
  | some table => tables.filter (· != table)
  | none =>
      match created? statement with
      | some table => table :: tables
      | none => tables

/-- The tables after statements that were submitted together. A fault hits one of them at the latest
when it comes to the last. -/
def perform (tables statements : List String) : Option Fault → List String
  | none => statements.foldl execute tables
  | some fault => (statements.dropLast.take fault.executed).foldl execute tables

/-- The fault with which a store meets statements that works: it refuses to create a table that is
there and executes everything else. -/
def conflict? (failure : Failure) (tables : List String) : List String → Option Fault
  | [] => none
  | statement :: rest =>
      if (created? statement).any tables.contains then some ⟨0, failure⟩
      else (conflict? failure (execute tables statement) rest).map fun fault =>
        { fault with executed := fault.executed + 1 }

section After

variable {opening text : String}

theorem after?_append (opening text : String) :
    after? opening (opening ++ text) = some text.toList := by
  simp [after?, List.isPrefixOf_iff_prefix]

theorem eq_append_of_after?_eq_some {rest : List Char} (h : after? opening text = some rest) :
    text = opening ++ String.ofList rest := by
  unfold after? at h
  split at h
  · next hprefix =>
      obtain ⟨tail, htail⟩ := List.isPrefixOf_iff_prefix.1 hprefix
      rw [← htail, List.drop_left] at h
      obtain rfl := Option.some.inj h
      apply String.toList_injective
      rw [String.toList_append, String.toList_ofList, htail]
  · cases h

end After

section Statements

variable {tables : List String} {snapshot table : String}

theorem created?_createStatement (h : ' ' ∉ snapshot.toList) (table : String) :
    created? (createStatement snapshot table) = some snapshot := by
  have hname : ∀ c ∈ snapshot.toList, (c != ' ') = true := by
    intro c hc
    rw [bne_iff_ne]
    rintro rfl
    exact h hc
  rw [created?, createStatement, String.append_assoc, String.append_assoc, after?_append,
    Option.map_some]
  simp [List.takeWhile_append_of_pos hname]

theorem removed?_dropStatement (table : String) : removed? (dropStatement table) = some table := by
  have hafter : after? "DROP TABLE IF EXISTS " (dropStatement table) = some table.toList :=
    after?_append _ _
  simp only [removed?, hafter, Option.map_some]
  exact congrArg some String.ofList_toList

theorem removed?_createStatement (snapshot table : String) :
    removed? (createStatement snapshot table) = none := by
  cases h : removed? (createStatement snapshot table) with
  | none => rfl
  | some removed =>
      obtain ⟨rest, hrest, -⟩ := Option.map_eq_some_iff.1 h
      exact absurd (eq_append_of_after?_eq_some hrest).symm (dropStatement_ne_createStatement _ _ _)

theorem created?_dropStatement (table : String) : created? (dropStatement table) = none := by
  cases h : created? (dropStatement table) with
  | none => rfl
  | some created =>
      obtain ⟨rest, hrest, -⟩ := Option.map_eq_some_iff.1 h
      have hdrop : "DROP TABLE IF EXISTS ".toList.head? = some 'D' := by decide
      have hcreate : "CREATE TABLE ".toList.head? = some 'C' := by decide
      exact absurd (eq_append_of_after?_eq_some hrest)
        (append_ne_append hdrop hcreate (by decide) table (String.ofList rest))

/-- A statement that creates a table removes none. -/
theorem not_mem_drops_of_created? {statement table : String} (h : created? statement = some table)
    (tables : List String) : statement ∉ tables.map dropStatement := by
  intro hmem
  obtain ⟨dropped, -, rfl⟩ := List.mem_map.1 hmem
  rw [created?_dropStatement] at h
  cases h

@[simp] theorem execute_dropStatement (tables : List String) (table : String) :
    execute tables (dropStatement table) = tables.filter (· != table) := by
  simp only [execute, removed?_dropStatement]

theorem execute_createStatement (h : ' ' ∉ snapshot.toList) (tables : List String)
    (table : String) : execute tables (createStatement snapshot table) = snapshot :: tables := by
  simp only [execute, removed?_createStatement, created?_createStatement h]

/-- A statement is about a table: it creates it or removes it. -/
def About (table statement : String) : Prop :=
  created? statement = some table ∨ removed? statement = some table

/-- Statements leave the tables alone that they are not about. -/
theorem mem_execute_of_not_about {statement : String} (h : ¬ About table statement) :
    table ∈ execute tables statement ↔ table ∈ tables := by
  obtain ⟨hcreated, hremoved⟩ := not_or.1 h
  unfold execute
  cases hremoves : removed? statement with
  | some other =>
      have hne : table ≠ other := fun heq => hremoved (heq ▸ hremoves)
      simp [hne]
  | none =>
      cases hcreates : created? statement with
      | some other =>
          have hne : table ≠ other := fun heq => hcreated (heq ▸ hcreates)
          simp [hne]
      | none => exact Iff.rfl

theorem mem_foldl_execute_of_not_about {statements : List String}
    (h : ∀ statement ∈ statements, ¬ About table statement) :
    table ∈ statements.foldl execute tables ↔ table ∈ tables := by
  induction statements generalizing tables with
  | nil => exact Iff.rfl
  | cons statement rest ih =>
      rw [List.forall_mem_cons] at h
      rw [List.foldl_cons, ih h.2, mem_execute_of_not_about h.1]

theorem mem_perform_of_not_about {statements : List String} (fault : Option Fault)
    (h : ∀ statement ∈ statements, ¬ About table statement) :
    table ∈ perform tables statements fault ↔ table ∈ tables := by
  cases fault with
  | none => exact mem_foldl_execute_of_not_about h
  | some fault =>
      apply mem_foldl_execute_of_not_about
      intro statement hstatement
      exact h statement (List.dropLast_subset _ (List.mem_of_mem_take hstatement))

theorem mem_foldl_execute_drops {dropped : List String} :
    table ∈ (dropped.map dropStatement).foldl execute tables ↔ table ∈ tables ∧
      table ∉ dropped := by
  induction dropped generalizing tables with
  | nil => simp
  | cons first rest ih =>
      rw [List.map_cons, List.foldl_cons, ih, execute_dropStatement, List.mem_filter, bne_iff_ne,
        List.mem_cons, not_or]
      tauto

/-- All tables are removed of which the removal is executed. -/
theorem mem_perform_drops {dropped : List String} :
    table ∈ perform tables (dropped.map dropStatement) none ↔ table ∈ tables ∧ table ∉ dropped :=
  mem_foldl_execute_drops

/-- A fault while tables are removed keeps tables, if any. -/
theorem of_mem_perform_drops {dropped : List String} {fault : Option Fault}
    (h : table ∈ perform tables (dropped.map dropStatement) fault) : table ∈ tables := by
  cases fault with
  | none => exact (mem_perform_drops.1 h).1
  | some fault =>
      rw [perform, ← List.map_dropLast, ← List.map_take] at h
      exact (mem_foldl_execute_drops.1 h).1

theorem mem_perform_drops_of_not_mem {dropped : List String} (fault : Option Fault)
    (h : table ∉ dropped) :
    table ∈ perform tables (dropped.map dropStatement) fault ↔ table ∈ tables := by
  cases fault with
  | none => simp [mem_perform_drops, h]
  | some fault =>
      rw [perform, ← List.map_dropLast, ← List.map_take, mem_foldl_execute_drops]
      refine and_iff_left fun hmem => h ?_
      exact List.dropLast_subset _ (List.mem_of_mem_take hmem)

theorem perform_create (h : ' ' ∉ snapshot.toList) (tables : List String) (table : String) :
    perform tables [createStatement snapshot table] none = snapshot :: tables :=
  execute_createStatement h tables table

/-- A table that is not created because of a fault does not come into being. -/
theorem perform_create_fault (tables : List String) (snapshot table : String) (fault : Fault) :
    perform tables [createStatement snapshot table] (some fault) = tables := by
  simp [perform]

theorem conflict?_create (h : ' ' ∉ snapshot.toList) (failure : Failure) (tables : List String)
    (table : String) : conflict? failure tables [createStatement snapshot table] =
      if snapshot ∈ tables then some ⟨0, failure⟩ else none := by
  simp [conflict?, created?_createStatement h]

end Statements

end Store

/-- A text that may be written into a statement ends where a blank begins. -/
theorem Acceptable.blank_not_mem {text : String} (h : Acceptable text) : ' ' ∉ text.toList := by
  intro hblank
  rcases h.identifier.chars ' ' hblank with hrest | hdot | hend
  · exact absurd hrest (by decide)
  · exact absurd hdot (by decide)
  · exact absurd hend (by decide)

end StarCube
