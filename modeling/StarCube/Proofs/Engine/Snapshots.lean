import Mathlib.Data.List.Basic
import StarCube.Engine.Refresh
import StarCube.Proofs.Query.Clauses

/-!
The names of snapshots: a name tells the table and the version it was made for, so that a definition
over snapshots tells the definition it was made from.
-/

namespace StarCube

theorem isDigit_of_mem_repr {c : Char} {n : Nat} (h : c ∈ n.repr.toList) : c.isDigit :=
  Nat.isDigit_of_mem_toDigits (by decide) (by decide) (by simpa using h : c ∈ Nat.toDigits 10 n)

theorem nat_repr_injective {m n : Nat} (h : m.repr = n.repr) : m = n := by
  have hdigits : Nat.toDigits 10 m = Nat.toDigits 10 n := by
    simpa using congrArg String.toList h
  rw [← Nat.ofDigitChars_ten_toDigits (n := m), hdigits, Nat.ofDigitChars_ten_toDigits]

theorem repr_negSucc (n : Nat) : (Int.negSucc n).repr = "-" ++ (n + 1).repr :=
  rfl

/-- A numeral has digits and a sign only. -/
theorem isDigit_or_of_mem_repr {c : Char} {n : Int} (h : c ∈ n.repr.toList) :
    c.isDigit ∨ c = '-' := by
  cases n with
  | ofNat m => exact .inl (isDigit_of_mem_repr h)
  | negSucc m =>
      rw [repr_negSucc, String.toList_append, List.mem_append] at h
      rcases h with hsign | hdigit
      · exact .inr (by simpa using hsign)
      · exact .inl (isDigit_of_mem_repr hdigit)

theorem toList_repr_ne_nil (n : Int) : n.repr.toList ≠ [] := by
  cases n with
  | ofNat m =>
      simp [Int.repr]
  | negSucc m => simp [repr_negSucc]

theorem repr_ofNat_ne_negSucc (m n : Nat) : (Int.ofNat m).repr ≠ (Int.negSucc n).repr := by
  intro h
  have hsign : '-' ∈ (Int.ofNat m).repr.toList := by
    rw [h, repr_negSucc, String.toList_append]
    exact List.mem_append_left _ (by decide)
  exact absurd (isDigit_of_mem_repr (n := m) hsign) (by decide)

theorem int_repr_injective {m n : Int} (h : m.repr = n.repr) : m = n := by
  cases m with
  | ofNat m =>
      cases n with
      | ofNat n => exact congrArg Int.ofNat (nat_repr_injective h)
      | negSucc n => exact absurd h (repr_ofNat_ne_negSucc m n)
  | negSucc m =>
      cases n with
      | ofNat n => exact absurd h.symm (repr_ofNat_ne_negSucc n m)
      | negSucc n =>
          rw [repr_negSucc, repr_negSucc, String.append_right_inj] at h
          have hsucc := nat_repr_injective h
          rw [Nat.succ.inj hsucc]

section Names

variable {cube cube' : String} {version other : Int} {table table' : String}

theorem snapshotTable_injective (cube : String) (version : Int) :
    Function.Injective (snapshotTable cube version) := by
  intro table table' h
  simpa [snapshotTable, String.append_assoc] using h

/-- Snapshots of different versions have different names, whatever cubes they are of. -/
theorem version_eq_of_snapshotTable_eq
    (h : snapshotTable cube version table = snapshotTable cube' other table') :
    version = other := by
  have hreversed : ∀ (cube : String) (version : Int) (table : String),
      ((snapshotTable cube version table).toList.reverse).takeWhile (· != 'v') =
        version.repr.toList.reverse := by
    intro cube version table
    have hnumeral : ∀ c ∈ version.repr.toList.reverse, (c != 'v') = true := by
      intro c hc
      rcases isDigit_or_of_mem_repr (List.mem_reverse.1 hc) with hdigit | rfl
      · rw [bne_iff_ne]
        rintro rfl
        exact absurd hdigit (by decide)
      · decide
    simp [snapshotTable, List.takeWhile_append_of_pos hnumeral]
  have hnumerals := congrArg (fun name => name.toList.reverse.takeWhile (· != 'v')) h
  simp only [hreversed, List.reverse_inj] at hnumerals
  exact int_repr_injective (String.toList_injective hnumerals)

end Names

namespace Cube

theorem nodup_tables (cube : Cube) : cube.tables.Nodup :=
  (firsts_eraseDups _).nodup

theorem mem_tables_iff {cube : Cube} {table : String} :
    table ∈ cube.tables ↔ table = cube.factTable ∨
      ∃ dimension ∈ cube.dimensions, dimension.table = table := by
  simp [tables, List.mem_eraseDups]

/-- The tables of a cube are renamed in their order, if no two of them get one name. -/
theorem tables_renameTables_of_injOn {cube : Cube} {rename : String → String}
    (h : ∀ table ∈ cube.tables, ∀ other ∈ cube.tables, rename table = rename other →
      table = other) :
    (cube.renameTables rename).tables = cube.tables.map rename := by
  have hall : (cube.renameTables rename).factTable ::
      (cube.renameTables rename).dimensions.map Dimension.table =
      (cube.factTable :: cube.dimensions.map Dimension.table).map rename := by
    simp [renameTables, Function.comp_def]
  have hrenamed : Firsts _ (cube.renameTables rename).tables := firsts_eraseDups _
  rw [hall] at hrenamed
  apply hrenamed.unique
  apply (firsts_eraseDups _).map
  intro table htable other hother hsame
  exact h table (List.mem_eraseDups.2 htable) other (List.mem_eraseDups.2 hother) hsame

theorem tables_renameTables {rename : String → String} (h : Function.Injective rename)
    (cube : Cube) : (cube.renameTables rename).tables = cube.tables.map rename :=
  tables_renameTables_of_injOn fun _ _ _ _ hsame => h hsame

/-- The tables of a renamed cube are the renamed tables. -/
theorem mem_tables_renameTables {cube : Cube} {rename : String → String} {table : String} :
    table ∈ (cube.renameTables rename).tables ↔ ∃ before ∈ cube.tables, rename before = table := by
  rw [mem_tables_iff]
  constructor
  · rintro (rfl | ⟨dimension, hdimension, rfl⟩)
    · exact ⟨cube.factTable, mem_tables_iff.2 (.inl rfl), rfl⟩
    · obtain ⟨before, hbefore, rfl⟩ := List.mem_map.1 hdimension
      exact ⟨before.table, mem_tables_iff.2 (.inr ⟨before, hbefore, rfl⟩), rfl⟩
  · rintro ⟨before, hbefore, rfl⟩
    rcases mem_tables_iff.1 hbefore with rfl | ⟨dimension, hdimension, rfl⟩
    · exact .inl rfl
    · exact .inr ⟨_, List.mem_map_of_mem hdimension, rfl⟩

/-- Cubes that are renamed to the same one by an injective renaming are the same. -/
theorem renameTables_injective {rename : String → String} (h : Function.Injective rename) :
    Function.Injective fun cube : Cube => cube.renameTables rename := by
  intro cube other hrenamed
  have hdimension : Function.Injective fun dimension : Dimension =>
      { dimension with table := rename dimension.table } := by
    rintro ⟨⟩ ⟨⟩ heq
    simp only [Dimension.mk.injEq] at heq ⊢
    exact ⟨heq.1, h heq.2.1, heq.2.2⟩
  obtain ⟨name, description, factTable, dimensions, measures, members⟩ := cube
  obtain ⟨otherName, otherDescription, otherTable, otherDimensions, otherMeasures, otherMembers⟩ :=
    other
  simp only [renameTables, Cube.mk.injEq] at hrenamed ⊢
  obtain ⟨hname, hdescription, htable, hdimensions, hmeasures, hmembers⟩ := hrenamed
  exact ⟨hname, hdescription, h htable, List.map_injective_iff.2 hdimension hdimensions, hmeasures,
    hmembers⟩

end Cube

end StarCube
