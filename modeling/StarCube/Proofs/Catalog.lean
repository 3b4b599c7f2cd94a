import StarCube.Catalog
import StarCube.Proofs.Keyed
import StarCube.Proofs.Outcome

/-!
The entries of a catalog after each of its changes.
-/

namespace StarCube

namespace Catalog

variable {catalog after : Catalog} {name : String}

theorem entry_eq_ok_iff {entry : CatalogEntry} :
    catalog.entry name = .ok entry ↔ catalog.entry? name = some entry := by
  unfold Catalog.entry
  cases catalog.entry? name <;> simp

theorem entry_eq_error_iff {failure : Failure} :
    catalog.entry name = .error failure ↔
      catalog.entry? name = none ∧ failure = .reference (.unknownCube name) := by
  unfold Catalog.entry
  cases catalog.entry? name <;> simp [eq_comm]

theorem require_eq_ok_iff {cube : Cube} :
    catalog.require name = .ok cube ↔
      ∃ entry, catalog.entry? name = some entry ∧ entry.published = cube := by
  unfold require
  rw [Except.map_eq_ok_iff]
  simp only [entry_eq_ok_iff]

/-- A registration puts one entry, over the definition itself, with the version of the one it
replaces. -/
theorem eq_of_register {cube : Cube} {replace : Bool}
    (h : catalog.register cube replace = .ok after) :
    after = { catalog with
      entries := catalog.entries.put cube.name
        ⟨cube, cube, ((catalog.entry? cube.name).map CatalogEntry.version).getD 0, none⟩ } := by
  unfold register at h
  cases hcheck : cube.check with
  | error reason => simp [hcheck] at h
  | ok _ =>
      cases hprevious : catalog.entry? cube.name with
      | none =>
          simp only [hcheck, hprevious] at h
          exact (Except.ok.inj h).symm
      | some previous =>
          cases replace with
          | false => simp [hcheck, hprevious] at h
          | true =>
              simp only [hcheck, hprevious, if_true] at h
              exact (Except.ok.inj h).symm

/-- A cube is registered over its own definition, with the version of the one it replaces. -/
theorem entry?_register {cube : Cube} {replace : Bool}
    (h : catalog.register cube replace = .ok after) :
    after.entry? cube.name = some
      ⟨cube, cube, ((catalog.entry? cube.name).map CatalogEntry.version).getD 0, none⟩ ∧
    ∀ name, name ≠ cube.name → after.entry? name = catalog.entry? name := by
  rw [eq_of_register h]
  exact ⟨Keyed.get?_put_self _ _ _, fun name hname => Keyed.get?_put_of_ne _ _ hname⟩

/-- A consistent cube can be registered under a new name. -/
theorem exists_register {cube : Cube} (hcheck : cube.check = .ok ())
    (hnew : catalog.entry? cube.name = none)
    (replace : Bool) : ∃ after, catalog.register cube replace = .ok after := by
  simp only [register, hcheck, hnew]
  exact ⟨_, rfl⟩

/-- Only consistent cubes are registered. -/
theorem check_of_register {cube : Cube} {replace : Bool}
    (h : catalog.register cube replace = .ok after) : cube.check = .ok () := by
  unfold register at h
  cases hcheck : cube.check with
  | error reason => simp [hcheck] at h
  | ok _ => rfl

theorem exists_entry?_of_unregister (h : catalog.unregister name = .ok after) :
    ∃ entry, catalog.entry? name = some entry := by
  obtain ⟨_, hfound, -⟩ := Except.bind_eq_ok_iff.1 h
  obtain ⟨entry, hentry⟩ := Except.discard_eq_ok_iff.1 hfound
  exact ⟨entry, entry_eq_ok_iff.1 hentry⟩

theorem entry?_unregister (h : catalog.unregister name = .ok after) :
    after.entry? name = none ∧ ∀ other, other ≠ name →
      after.entry? other = catalog.entry? other := by
  obtain ⟨_, -, h⟩ := Except.bind_eq_ok_iff.1 h
  obtain rfl : { catalog with entries := catalog.entries.remove name } = after := by
    simpa [pure, Except.pure] using h
  exact ⟨Keyed.get?_remove_self _ _, fun other hother => Keyed.get?_remove_of_ne _ hother⟩

/-- A definition is published under a newer version, at the moment of the call, and keeps the
source. -/
theorem entry?_publish {published : Cube} {version : Int}
    (h : catalog.publish name published version = .ok after) :
    (∃ current, catalog.entry? name = some current ∧ current.version < version ∧
      after.entry? name = some { current with
        published := published
        version := version
        refreshedAt := some ⟨catalog.readings⟩ }) ∧
    ∀ other, other ≠ name → after.entry? other = catalog.entry? other := by
  obtain ⟨current, hcurrent, h⟩ := Except.bind_eq_ok_iff.1 h
  by_cases hversion : version ≤ current.version
  · simp [hversion, throw, throwThe, MonadExceptOf.throw, bind, Except.bind] at h
  · simp only [hversion, if_false] at h
    have hafter := (Except.ok.inj h).symm
    subst hafter
    refine ⟨⟨current, entry_eq_ok_iff.1 hcurrent, by omega, Keyed.get?_put_self _ _ _⟩, ?_⟩
    exact fun other hother => Keyed.get?_put_of_ne _ _ hother

/-- A newer version of a cube that is registered can be published. -/
theorem exists_publish {current : CatalogEntry} {version : Int}
    (h : catalog.entry? name = some current)
    (hnewer : current.version < version) (published : Cube) :
    ∃ after, catalog.publish name published version = .ok after := by
  have hentry := entry_eq_ok_iff.2 h
  unfold publish
  rw [hentry]
  simp only [bind, Except.bind, if_neg (Int.not_le.2 hnewer)]
  exact ⟨_, rfl⟩

section Keys

/-- A cube that is replaced keeps its place, and one that is new goes last. -/
theorem keys_register {cube : Cube} {replace : Bool}
    (h : catalog.register cube replace = .ok after) :
    after.entries.keys =
      if cube.name ∈ catalog.entries.keys then catalog.entries.keys
      else catalog.entries.keys ++ [cube.name] := by
  rw [eq_of_register h]
  exact Keyed.keys_put _ _ _

theorem keys_unregister (h : catalog.unregister name = .ok after) :
    after.entries.keys = catalog.entries.keys.filter (· != name) := by
  obtain ⟨_, -, h⟩ := Except.bind_eq_ok_iff.1 h
  rw [← Except.ok.inj h]
  exact Keyed.keys_remove _ _

/-- A cube that is published keeps its place. -/
theorem keys_publish {published : Cube} {version : Int}
    (h : catalog.publish name published version = .ok after) :
    after.entries.keys = catalog.entries.keys := by
  obtain ⟨⟨current, hcurrent, -⟩, -⟩ := entry?_publish h
  obtain ⟨_, -, h⟩ := Except.bind_eq_ok_iff.1 h
  obtain ⟨-, h⟩ := Except.refuse_eq_ok_iff.1 h
  rw [← Except.ok.inj h, Keyed.keys_put, if_pos (Keyed.mem_keys_iff.2 ⟨current, hcurrent⟩)]

end Keys

section Entries

variable {holds : String → CatalogEntry → Prop}
  (h : ∀ name entry, catalog.entry? name = some entry → holds name entry)

include h

/-- What holds of all entries holds after a registration if it does of the new entry. -/
theorem forall_entry?_register {cube : Cube} {replace : Bool}
    (hafter : catalog.register cube replace = .ok after)
    (hnew : ∀ version, holds cube.name ⟨cube, cube, version, none⟩) :
    ∀ name entry, after.entry? name = some entry → holds name entry := by
  obtain ⟨hself, hothers⟩ := entry?_register hafter
  intro name found hfound
  by_cases hname : name = cube.name
  · subst hname
    obtain rfl := Option.some.inj (hself.symm.trans hfound)
    exact hnew _
  · rw [hothers name hname] at hfound
    exact h name found hfound

theorem forall_entry?_unregister (hafter : catalog.unregister name = .ok after) :
    ∀ name entry, after.entry? name = some entry → holds name entry := by
  obtain ⟨hnone, hothers⟩ := entry?_unregister hafter
  intro other found hfound
  by_cases hname : other = name
  · subst hname
    simp [hnone] at hfound
  · rw [hothers other hname] at hfound
    exact h other found hfound

/-- What holds of all entries holds after a publication if it does of the entry that is
published. -/
theorem forall_entry?_publish {published : Cube} {version : Int}
    (hafter : catalog.publish name published version = .ok after)
    (hnew : ∀ current, catalog.entry? name = some current →
      holds name { current with
        published := published
        version := version
        refreshedAt := some ⟨catalog.readings⟩ }) :
    ∀ name entry, after.entry? name = some entry → holds name entry := by
  obtain ⟨⟨current, hcurrent, -, hentry⟩, hothers⟩ := entry?_publish hafter
  intro other found hfound
  by_cases hname : other = name
  · subst hname
    obtain rfl := Option.some.inj (hentry.symm.trans hfound)
    exact hnew current hcurrent
  · rw [hothers other hname] at hfound
    exact h other found hfound

end Entries

end Catalog

end StarCube
