import StarCube.Proofs.Engine.Versions

/-!
The catalog over any sequence of changes. A change that is refused leaves everything as it is; one
that is made touches one cube. The order of the catalog, what is published in it and what counts as
refreshed are told by the changes that have been made.
-/

namespace StarCube

/-- If other cubes are as they were and the version of one does not decrease, none does. -/
theorem Catalog.version_le {catalog after : Catalog} {changed : String}
    (hothers : ∀ name, name ≠ changed → after.entry? name = catalog.entry? name)
    (hself : ∀ old new, catalog.entry? changed = some old → after.entry? changed = some new →
      old.version ≤ new.version) (name : String) (old new : CatalogEntry)
    (hold : catalog.entry? name = some old) (hnew : after.entry? name = some new) :
    old.version ≤ new.version := by
  by_cases hname : name = changed
  · subst hname
    exact hself old new hold hnew
  · rw [hothers name hname, hold] at hnew
    obtain rfl := Option.some.inj hnew
    exact Int.le_refl _

/-- A call that changes the catalog. -/
inductive Change where
  | register (cube : Cube) (replace : Bool)
  | unregister (name : String)
  | publish (name : String) (published : Cube) (version : Int)

namespace Change

/-- The cube that a change is about. -/
def name : Change → String
  | .register cube _ => cube.name
  | .unregister name => name
  | .publish name _ _ => name

/-- What a change makes of a catalog if it is not refused. -/
def applied : Change → Catalog → Except Failure Catalog
  | .register cube replace, catalog => catalog.register cube replace
  | .unregister name, catalog => catalog.unregister name
  | .publish name published version, catalog => catalog.publish name published version

def procedure : Change → Procedure Unit
  | .register cube replace => Procedure.register cube replace
  | .unregister name => Procedure.unregister name
  | .publish name published version => Procedure.publish name published version

/-- A change is over at once. -/
theorem advance_procedure (change : Change) (engine : Engine) (bound : LogContext) :
    change.procedure.advance engine bound =
      ⟨engine.changed change.applied, bound,
        .done ((change.applied engine.catalog).map fun _ => ())⟩ := by
  cases change with
  | register cube replace => exact World.advance_changeCatalog _ _ _ _ engine bound
  | unregister name => exact World.advance_changeCatalog _ _ _ _ engine bound
  | publish name published version => exact World.advance_changeCatalog _ _ _ _ engine bound

/-- The failures with which a catalog refuses changes. -/
inductive Refused (catalog : Catalog) : Change → Failure → Prop
  | inconsistent {cube : Cube} {replace : Bool} {reason : SchemaReason}
      (unsound : cube.check = .error reason) :
      Refused catalog (.register cube replace) (.schema cube.name reason)
  | duplicate {cube : Cube} {entry : CatalogEntry} (sound : cube.check = .ok ())
      (registered : catalog.entry? cube.name = some entry) :
      Refused catalog (.register cube false) (.duplicateCube cube.name)
  | unknown {name : String} (unregistered : catalog.entry? name = none) :
      Refused catalog (.unregister name) (.reference (.unknownCube name))
  | unpublishable {name : String} {published : Cube} {version : Int}
      (unregistered : catalog.entry? name = none) :
      Refused catalog (.publish name published version) (.reference (.unknownCube name))
  | stale {name : String} {published : Cube} {version : Int} {entry : CatalogEntry}
      (registered : catalog.entry? name = some entry) (older : version ≤ entry.version) :
      Refused catalog (.publish name published version) (.staleVersion name version entry.version)

variable {catalog after : Catalog} {change : Change} {failure : Failure}

theorem refused_of_register {cube : Cube} {replace : Bool}
    (h : catalog.register cube replace = .error failure) :
    Refused catalog (.register cube replace) failure := by
  unfold Catalog.register at h
  cases hcheck : cube.check with
  | error reason =>
      rw [hcheck] at h
      obtain rfl := Except.error.inj h
      exact .inconsistent hcheck
  | ok _ =>
      cases hprevious : catalog.entry? cube.name with
      | none => simp [hcheck, hprevious] at h
      | some previous =>
          cases replace with
          | true => simp [hcheck, hprevious] at h
          | false =>
              simp only [hcheck, hprevious] at h
              obtain rfl := Except.error.inj h
              exact .duplicate hcheck hprevious

theorem refused_of_unregister {name : String} (h : catalog.unregister name = .error failure) :
    Refused catalog (.unregister name) failure := by
  unfold Catalog.unregister at h
  cases hentry : catalog.entry name with
  | error fault =>
      rw [hentry] at h
      obtain rfl := Except.error.inj h
      obtain ⟨hnone, rfl⟩ := Catalog.entry_eq_error_iff.1 hentry
      exact .unknown hnone
  | ok entry =>
      rw [hentry] at h
      cases h

theorem refused_of_publish {name : String} {published : Cube} {version : Int}
    (h : catalog.publish name published version = .error failure) :
    Refused catalog (.publish name published version) failure := by
  unfold Catalog.publish at h
  cases hentry : catalog.entry name with
  | error fault =>
      rw [hentry] at h
      obtain rfl := Except.error.inj h
      obtain ⟨hnone, rfl⟩ := Catalog.entry_eq_error_iff.1 hentry
      exact .unpublishable hnone
  | ok entry =>
      rw [hentry] at h
      by_cases holder : version ≤ entry.version
      · simp only [bind, Except.bind, if_pos holder] at h
        obtain rfl := Except.error.inj h
        exact .stale (Catalog.entry_eq_ok_iff.1 hentry) holder
      · simp only [bind, Except.bind, if_neg holder] at h
        cases h

theorem refused_of_applied (h : change.applied catalog = .error failure) :
    Refused catalog change failure := by
  cases change with
  | register cube replace => exact refused_of_register h
  | unregister name => exact refused_of_unregister h
  | publish name published version => exact refused_of_publish h

theorem Refused.kind_mem (h : Refused catalog change failure) :
    failure.kind ∈ ["SchemaError", "DuplicateCubeError", "UnknownCubeError", "ValueError"] := by
  cases h <;> simp [Failure.kind]

/-- What a change that is made does to a catalog. -/
structure Made (change : Change) (catalog after : Catalog) : Prop where
  /-- Other cubes are as they were, in the order in which they were. -/
  others : ∀ name, name ≠ change.name → after.entry? name = catalog.entry? name
  order : after.entries.keys.filter (· != change.name) =
    catalog.entries.keys.filter (· != change.name)
  /-- A cube that is replaced or published keeps its place. -/
  keeps : change.name ∈ catalog.entries.keys → change.name ∈ after.entries.keys →
    after.entries.keys = catalog.entries.keys
  /-- A cube that was not registered before goes last. -/
  enters : change.name ∉ catalog.entries.keys → change.name ∈ after.entries.keys →
    after.entries.keys = catalog.entries.keys ++ [change.name]
  /-- Versions do not decrease. -/
  versions : ∀ name old new, catalog.entry? name = some old → after.entry? name = some new →
    old.version ≤ new.version
  /-- A version that is published is later than the one before. -/
  published : ∀ name published version, change = .publish name published version →
    ∃ old new, catalog.entry? name = some old ∧ after.entry? name = some new ∧
      old.version < version ∧ new.version = version

theorem made_of_applied (h : change.applied catalog = .ok after) : Made change catalog after := by
  cases change with
  | register cube replace =>
      obtain ⟨hself, hothers⟩ := Catalog.entry?_register h
      have hkeys := Catalog.keys_register h
      refine ⟨hothers, ?_, ?_, ?_, Catalog.version_le hothers ?_, by simp⟩
      · rw [hkeys]
        split <;> simp [name]
      · exact fun hmem _ => hkeys.trans (if_pos hmem)
      · exact fun hnew _ => hkeys.trans (if_neg hnew)
      · intro old new hold hnew
        obtain rfl := Option.some.inj (hself.symm.trans hnew)
        simp [hold]
  | unregister name =>
      obtain ⟨hnone, hothers⟩ := Catalog.entry?_unregister h
      have hkeys := Catalog.keys_unregister h
      have hgone : name ∉ after.entries.keys := by simp [hkeys]
      refine ⟨hothers, ?_, fun _ hmem => absurd hmem hgone, fun _ hmem => absurd hmem hgone,
        Catalog.version_le hothers ?_, by simp⟩
      · simp [hkeys, Change.name]
      · intro old new _ hnew
        rw [hnone] at hnew
        cases hnew
  | publish name published version =>
      obtain ⟨⟨current, hcurrent, hlater, hnew⟩, hothers⟩ := Catalog.entry?_publish h
      have hkeys := Catalog.keys_publish h
      have hmem : name ∈ catalog.entries.keys := Keyed.mem_keys_iff.2 ⟨current, hcurrent⟩
      refine ⟨hothers, by rw [hkeys], fun _ _ => hkeys, fun hnot => absurd hmem hnot,
        Catalog.version_le hothers ?_, ?_⟩
      · intro old new hold hfound
        obtain rfl := Option.some.inj (hcurrent.symm.trans hold)
        obtain rfl := Option.some.inj (hnew.symm.trans hfound)
        exact Int.le_of_lt hlater
      · rintro _ _ _ ⟨⟩
        exact ⟨_, _, hcurrent, hnew, hlater, rfl⟩

/-- The cubes after a change: those before it with one that enters, or some of those before it. -/
theorem keys_of_applied (h : change.applied catalog = .ok after) :
    (∃ cube replace, change = .register cube replace ∧ cube.name ∉ catalog.entries.keys ∧
      after.entries.keys = catalog.entries.keys ++ [cube.name]) ∨
    after.entries.keys.Sublist catalog.entries.keys := by
  cases change with
  | register cube replace =>
      have hkeys := Catalog.keys_register h
      by_cases hmem : cube.name ∈ catalog.entries.keys
      · right
        rw [hkeys, if_pos hmem]
      · exact .inl ⟨cube, replace, rfl, hmem, hkeys.trans (if_neg hmem)⟩
  | unregister name =>
      right
      rw [Catalog.keys_unregister h]
      exact List.filter_sublist
  | publish name published version =>
      right
      rw [Catalog.keys_publish h]

/-! ### What the changes that have been made tell -/

/-- The last change about a cube, of those that have been made, the latest first. -/
def latest (name : String) (made : List Change) : Option Change :=
  made.find? (·.name == name)

/-- The cube of a registration under a name. -/
def defines? (name : String) : Change → Option Cube
  | .register cube _ => if cube.name = name then some cube else none
  | _ => none

/-- The cube that was registered last under a name. -/
def definition (name : String) (made : List Change) : Option Cube :=
  made.findSome? (defines? name)

/-- How many changes had been made when a cube was registered that has not been unregistered since,
nor been registered already. -/
def entered (name : String) : List Change → Option Nat
  | [] => none
  | .register cube _ :: earlier =>
      if cube.name = name then (entered name earlier).or (some earlier.length)
      else entered name earlier
  | .unregister other :: earlier => if other = name then none else entered name earlier
  | .publish .. :: earlier => entered name earlier

/-- One cube has entered before another. -/
def Precedes (made : List Change) (first second : String) : Prop :=
  ∃ place later, entered first made = some place ∧ entered second made = some later ∧ place < later

end Change

/-- The definitions in a catalog, in its order. -/
def Catalog.list (catalog : Catalog) : List Cube :=
  catalog.entries.map fun entry => entry.2.published

theorem Catalog.listed_of_nodup {catalog : Catalog} (h : catalog.entries.keys.Nodup) :
    List.Forall₂ (fun name published =>
      (catalog.entry? name).map CatalogEntry.published = some published)
      catalog.entries.keys catalog.list := by
  rw [Keyed.keys, list, List.forall₂_map_left_iff, List.forall₂_map_right_iff, List.forall₂_same]
  intro entry hentry
  unfold entry?
  rw [Keyed.get?_of_nodup h hentry]
  rfl

/-- An entry of a catalog is what the changes tell that have been made. -/
structure CatalogEntry.Recorded (entry : CatalogEntry) (name : String) (made : List Change) :
    Prop where
  /-- The source is sound and stands under its own name, as it was registered last. -/
  sound : entry.source.check = .ok ()
  titled : entry.source.name = name
  source : Change.definition name made = some entry.source
  /-- The cube counts as refreshed just if the last change about it has published its definition. -/
  refreshed : entry.refreshed = true ↔
    Change.latest name made = some (.publish name entry.published entry.version)
  unrefreshed : entry.refreshed = false → entry.published = entry.source

/-- A catalog is what the changes tell that have been made of it. -/
structure Catalog.Records (catalog : Catalog) (made : List Change) : Prop where
  entries : ∀ name entry, catalog.entry? name = some entry → entry.Recorded name made
  /-- Each cube is listed once. -/
  nodup : catalog.entries.keys.Nodup
  listed : List.Forall₂ (fun name published =>
    (catalog.entry? name).map CatalogEntry.published =
      some published) catalog.entries.keys catalog.list
  /-- The cubes are those that have entered, in the order in which they did. -/
  names : ∀ name, name ∈ catalog.entries.keys ↔ ∃ place, Change.entered name made = some place
  ordered : catalog.entries.keys.Pairwise (Change.Precedes made)

namespace Change

variable {name : String} {change : Change} {made : List Change} {catalog after : Catalog}

theorem latest_cons_self (change : Change) (made : List Change) :
    latest change.name (change :: made) = some change := by
  simp [latest]

theorem latest_cons_of_ne (h : name ≠ change.name) :
    latest name (change :: made) = latest name made := by
  simp [latest, Ne.symm h]

theorem definition_cons_of_ne (h : name ≠ change.name) :
    definition name (change :: made) = definition name made := by
  cases change with
  | register cube replace => simp [definition, defines?, show cube.name ≠ name from Ne.symm h]
  | unregister other => rfl
  | publish other published version => rfl

theorem entered_cons_of_ne (h : name ≠ change.name) :
    entered name (change :: made) = entered name made := by
  cases change with
  | register cube replace => exact if_neg (Ne.symm h)
  | unregister other => exact if_neg (Ne.symm h)
  | publish other published version => rfl

theorem entered_lt {place : Nat} (h : entered name made = some place) : place < made.length := by
  induction made with
  | nil => cases h
  | cons change earlier ih =>
      rw [List.length_cons]
      by_cases hname : name = change.name
      · subst hname
        cases change with
        | register cube replace =>
            rw [name, entered, if_pos rfl] at h
            cases hearlier : entered cube.name earlier with
            | none =>
                rw [hearlier] at h
                obtain rfl : earlier.length = place := Option.some.inj h
                omega
            | some before =>
                rw [hearlier] at h
                obtain rfl : before = place := Option.some.inj h
                have := ih hearlier
                omega
        | unregister other => simp [entered, Change.name] at h
        | publish other published version =>
            have := ih h
            omega
      · rw [entered_cons_of_ne hname] at h
        have := ih h
        omega

end Change

namespace CatalogEntry.Recorded

variable {entry : CatalogEntry} {name : String} {change : Change} {made : List Change}

theorem cons_of_ne (h : entry.Recorded name made) (hname : name ≠ change.name) :
    entry.Recorded name (change :: made) where
  sound := h.sound
  titled := h.titled
  source := by rw [Change.definition_cons_of_ne hname, h.source]
  refreshed := by rw [Change.latest_cons_of_ne hname, h.refreshed]
  unrefreshed := h.unrefreshed

theorem register {cube : Cube} (hcheck : cube.check = .ok ()) (replace : Bool) (version : Int)
    (made : List Change) :
    Recorded ⟨cube, cube, version, none⟩ cube.name (.register cube replace :: made) where
  sound := hcheck
  titled := rfl
  source := by simp [Change.definition, Change.defines?]
  refreshed := by
    rw [show cube.name = (Change.register cube replace).name from rfl, Change.latest_cons_self]
    simp [CatalogEntry.refreshed]
  unrefreshed _ := rfl

theorem publish (h : entry.Recorded name made) (published : Cube) (version : Int)
    (instant : Instant) :
    Recorded { entry with published := published, version := version, refreshedAt := some instant }
      name (.publish name published version :: made) where
  sound := h.sound
  titled := h.titled
  source := by
    rw [← h.source]
    rfl
  refreshed := by simp [Change.latest, Change.name, CatalogEntry.refreshed]
  unrefreshed := by simp [CatalogEntry.refreshed]

end CatalogEntry.Recorded

namespace Catalog.Records

variable {catalog after : Catalog} {change : Change} {made : List Change}

theorem empty : Catalog.empty.Records [] where
  entries := by simp [Catalog.entry?, Catalog.empty, Keyed.get?]
  nodup := .nil
  listed := .nil
  names := by simp [Catalog.empty, Keyed.keys, Change.entered]
  ordered := .nil

theorem entries_next (h : catalog.Records made) (hafter : change.applied catalog = .ok after) :
    ∀ name entry, after.entry? name = some entry → entry.Recorded name (change :: made) := by
  intro name entry hentry
  by_cases hname : name = change.name
  · subst hname
    cases change with
    | register cube replace =>
        obtain rfl := Option.some.inj ((Catalog.entry?_register hafter).1.symm.trans hentry)
        exact .register (Catalog.check_of_register hafter) replace _ made
    | unregister name =>
        have hnone := (Catalog.entry?_unregister hafter).1
        cases hnone.symm.trans hentry
    | publish name published version =>
        obtain ⟨⟨current, hcurrent, -, hnew⟩, -⟩ := Catalog.entry?_publish hafter
        obtain rfl := Option.some.inj (hnew.symm.trans hentry)
        exact (h.entries name current hcurrent).publish published version _
  · rw [(Change.made_of_applied hafter).others name hname] at hentry
    exact (h.entries name entry hentry).cons_of_ne hname

/-- A cube that was registered before a change and is so after it entered when it did. -/
theorem entered_of_stays (h : catalog.Records made) (hafter : change.applied catalog = .ok after)
    {name : String} (hbefore : name ∈ catalog.entries.keys) (hstays : name ∈ after.entries.keys) :
    Change.entered name (change :: made) = Change.entered name made := by
  by_cases hname : name = change.name
  · subst hname
    cases change with
    | register cube replace =>
        obtain ⟨place, hplace⟩ := (h.names cube.name).1 hbefore
        show (if cube.name = cube.name then _ else _) = _
        rw [if_pos rfl]
        show (Change.entered cube.name made).or _ = Change.entered cube.name made
        rw [hplace]
        rfl
    | unregister name =>
        rw [Catalog.keys_unregister hafter] at hstays
        simp [Change.name] at hstays
    | publish name published version => rfl
  · exact Change.entered_cons_of_ne hname

/-- A cube that enters with a change does so after all others. -/
theorem entered_of_enters (h : catalog.Records made) {cube : Cube} (replace : Bool)
    (hbefore : cube.name ∉ catalog.entries.keys) :
    Change.entered cube.name (.register cube replace :: made) = some made.length := by
  have hnone : Change.entered cube.name made = none := by
    cases hentered : Change.entered cube.name made with
    | none => rfl
    | some place => exact absurd ((h.names cube.name).2 ⟨place, hentered⟩) hbefore
  show (if cube.name = cube.name then _ else _) = _
  rw [if_pos rfl, hnone]
  rfl

/-- After a change a cube is in the catalog just if it has entered. -/
theorem mem_keys_next_iff (h : catalog.Records made) (hafter : change.applied catalog = .ok after)
    (name : String) : name ∈ after.entries.keys ↔
      ∃ place, Change.entered name (change :: made) = some place := by
  constructor
  · intro hmem
    rcases Change.keys_of_applied hafter with ⟨cube, replace, rfl, hnew, hkeys⟩ | hkept
    · by_cases hname : name = cube.name
      · subst hname
        exact ⟨_, h.entered_of_enters replace hnew⟩
      · have hbefore : name ∈ catalog.entries.keys := by simpa [hkeys, hname] using hmem
        rw [h.entered_of_stays hafter hbefore hmem]
        exact (h.names name).1 hbefore
    · have hbefore := hkept.subset hmem
      rw [h.entered_of_stays hafter hbefore hmem]
      exact (h.names name).1 hbefore
  · rintro ⟨place, hplace⟩
    by_cases hname : name = change.name
    · subst hname
      cases change with
      | register cube replace => exact Keyed.mem_keys_iff.2 ⟨_, (Catalog.entry?_register hafter).1⟩
      | unregister name => simp [Change.entered, Change.name] at hplace
      | publish name published version =>
          obtain ⟨⟨_, -, -, hentry⟩, -⟩ := Catalog.entry?_publish hafter
          exact Keyed.mem_keys_iff.2 ⟨_, hentry⟩
    · rw [Change.entered_cons_of_ne hname] at hplace
      obtain ⟨entry, hentry⟩ := Keyed.mem_keys_iff.1 ((h.names name).2 ⟨place, hplace⟩)
      refine Keyed.mem_keys_iff.2 ⟨entry, ?_⟩
      exact ((Change.made_of_applied hafter).others name hname).trans hentry

theorem nodup_next (h : catalog.Records made) (hafter : change.applied catalog = .ok after) :
    after.entries.keys.Nodup := by
  rcases Change.keys_of_applied hafter with ⟨cube, replace, -, hnew, hkeys⟩ | hkept
  · rw [hkeys]
    exact List.nodup_append.2 ⟨h.nodup, List.nodup_singleton _, by
      rintro name hname _ hself rfl
      exact hnew (List.mem_singleton.1 hself ▸ hname)⟩
  · exact hkept.nodup h.nodup

/-- Cubes that stay keep their order, and one that enters goes last. -/
theorem ordered_next (h : catalog.Records made) (hafter : change.applied catalog = .ok after) :
    after.entries.keys.Pairwise (Change.Precedes (change :: made)) := by
  have hstays : ∀ first second, first ∈ after.entries.keys → second ∈ after.entries.keys →
      first ∈ catalog.entries.keys → second ∈ catalog.entries.keys →
        Change.Precedes made first second → Change.Precedes (change :: made) first second := by
    rintro first second hfirst hsecond hbefore hother ⟨place, later, hplace, hlater, hlt⟩
    refine ⟨place, later, ?_, ?_, hlt⟩
    · rw [h.entered_of_stays hafter hbefore hfirst, hplace]
    · rw [h.entered_of_stays hafter hother hsecond, hlater]
  rcases Change.keys_of_applied hafter with ⟨cube, replace, rfl, hnew, hkeys⟩ | hkept
  · have hin : ∀ name ∈ catalog.entries.keys, name ∈ after.entries.keys := by
      intro name hname
      rw [hkeys]
      exact List.mem_append_left _ hname
    rw [hkeys]
    refine List.pairwise_append.2 ⟨?_, List.pairwise_singleton _ _, ?_⟩
    · exact h.ordered.imp_of_mem fun hfirst hsecond =>
        hstays _ _ (hin _ hfirst) (hin _ hsecond) hfirst hsecond
    · intro name hname other hother
      obtain rfl := List.mem_singleton.1 hother
      obtain ⟨place, hplace⟩ := (h.names name).1 hname
      refine ⟨place, made.length, ?_, h.entered_of_enters replace hnew, Change.entered_lt hplace⟩
      rw [h.entered_of_stays hafter hname (hin name hname), hplace]
  · exact (h.ordered.sublist hkept).imp_of_mem fun hfirst hsecond =>
      hstays _ _ hfirst hsecond (hkept.subset hfirst) (hkept.subset hsecond)

/-- One more change that is made is recorded. -/
theorem next (h : catalog.Records made) (hafter : change.applied catalog = .ok after) :
    after.Records (change :: made) where
  entries := h.entries_next hafter
  nodup := h.nodup_next hafter
  listed := Catalog.listed_of_nodup (h.nodup_next hafter)
  names := h.mem_keys_next_iff hafter
  ordered := h.ordered_next hafter

end Catalog.Records

/-- An engine with the changes that have been made of its catalog, the latest first. -/
structure Revised where
  engine : Engine
  made : List Change

namespace Revised

/-- A new engine, of which no change has been made. -/
def fresh (settings : Settings) : Revised :=
  ⟨(World.fresh settings).engine, []⟩

/-- A procedure has come to its end without a failure. -/
def succeeded : Procedure Unit → Bool
  | .done (.ok _) => true
  | _ => false

/-- Calls for a change. -/
def next (bound : LogContext) (state : Revised) (change : Change) : Revised :=
  let halt := change.procedure.advance state.engine bound
  ⟨halt.engine, if succeeded halt.rest then change :: state.made else state.made⟩

/-- Calls for changes one after the other, whether or not they succeed. -/
def run (bound : LogContext) (state : Revised) (changes : List Change) : Revised :=
  changes.foldl (next bound) state

/-- The entry of a cube. -/
def registered? (state : Revised) (name : String) : Option CatalogEntry :=
  state.engine.catalog.entry? name

variable {bound : LogContext} {state : Revised} {change : Change}

theorem next_of_error {failure : Failure}
    (h : change.applied state.engine.catalog = .error failure) :
    state.next bound change = state := by
  simp only [next, change.advance_procedure, Engine.changed, h]
  rfl

theorem next_of_ok {after : Catalog} (h : change.applied state.engine.catalog = .ok after) :
    state.next bound change = ⟨{ state.engine with catalog := after }, change :: state.made⟩ := by
  simp only [next, change.advance_procedure, Engine.changed, h]
  rfl

/-- A call that fails was refused, and one that succeeds was made. -/
theorem rest_advance_iff {outcome : Except Failure Unit} :
    (change.procedure.advance state.engine bound).rest = .done outcome ↔
      (change.applied state.engine.catalog).map (fun _ => ()) = outcome := by
  rw [change.advance_procedure, Procedure.done.injEq]

theorem records_next (h : state.engine.catalog.Records state.made) (change : Change) :
    (state.next bound change).engine.catalog.Records (state.next bound change).made := by
  cases happlied : change.applied state.engine.catalog with
  | error failure => rwa [next_of_error happlied]
  | ok after =>
      rw [next_of_ok happlied]
      exact h.next happlied

theorem records_run (h : state.engine.catalog.Records state.made) (changes : List Change) :
    (state.run bound changes).engine.catalog.Records (state.run bound changes).made := by
  induction changes generalizing state with
  | nil => exact h
  | cons change rest ih => exact ih (records_next h change)

/-- The version of a cube that is registered before a call and after it does not decrease. -/
theorem version_next {name : String} {old new : CatalogEntry}
    (hold : state.registered? name = some old)
    (hnew : (state.next bound change).registered? name = some new) : old.version ≤ new.version := by
  cases happlied : change.applied state.engine.catalog with
  | error failure =>
      rw [next_of_error happlied, hold] at hnew
      obtain rfl := Option.some.inj hnew
      exact Int.le_refl _
  | ok after =>
      rw [next_of_ok happlied] at hnew
      exact (Change.made_of_applied happlied).versions name old new hold hnew

/-- While a cube stays registered its version does not decrease. -/
theorem version_run {name : String} {old : CatalogEntry} {changes : List Change}
    (hold : state.registered? name = some old)
    (hstays : ∀ front, front <+: changes →
      ∃ entry, (state.run bound front).registered? name = some entry) :
    ∃ new, (state.run bound changes).registered? name = some new ∧ old.version ≤ new.version := by
  induction changes generalizing state old with
  | nil => exact ⟨old, hold, Int.le_refl _⟩
  | cons change rest ih =>
      obtain ⟨middle, hmiddle⟩ := hstays [change] (by simp)
      obtain ⟨new, hnew, hle⟩ := ih hmiddle fun front hfront =>
        hstays (change :: front) (List.prefix_cons_inj change |>.2 hfront)
      exact ⟨new, hnew, Int.le_trans (version_next hold hmiddle) hle⟩

/-- What holds of a catalog whatever changes have been called for, and of those to come. -/
structure Lawful (bound : LogContext) (state : Revised) : Prop where
  /-- Its entries and their order are what the changes tell that have been made. -/
  records : state.engine.catalog.Records state.made
  /-- A call is over at once. -/
  ends : ∀ change : Change, ∃ outcome,
    (change.procedure.advance state.engine bound).rest = .done outcome
  /-- A call that fails leaves everything as it was. -/
  failed : ∀ (change : Change) failure,
    (change.procedure.advance state.engine bound).rest = .done (.error failure) →
      state.next bound change = state ∧ change.Refused state.engine.catalog failure ∧
        failure.kind ∈ ["SchemaError", "DuplicateCubeError", "UnknownCubeError", "ValueError"]
  /-- A call that succeeds changes the cube that it names, and no other. -/
  succeeded : ∀ change : Change,
    (change.procedure.advance state.engine bound).rest = .done (.ok ()) →
      change.Made state.engine.catalog (state.next bound change).engine.catalog
  /-- While a cube stays registered its version does not decrease. -/
  versions : ∀ name old changes, state.registered? name = some old →
    (∀ front, front <+: changes → ∃ entry, (state.run bound front).registered? name = some entry) →
      ∃ new, (state.run bound changes).registered? name = some new ∧ old.version ≤ new.version

/-- After any sequence of registrations, unregistrations and publications, whether they succeed or
fail, the catalog is lawful. -/
theorem lawful_run (settings : Settings) (bound : LogContext) (changes : List Change) :
    ((fresh settings).run bound changes).Lawful bound where
  records := records_run .empty changes
  ends change := ⟨_, rest_advance_iff.2 rfl⟩
  failed change failure hfailed := by
    cases happlied : change.applied ((fresh settings).run bound changes).engine.catalog with
    | error other =>
        rw [rest_advance_iff, happlied] at hfailed
        obtain rfl := Except.error.inj hfailed
        have hrefused := Change.refused_of_applied happlied
        exact ⟨next_of_error happlied, hrefused, hrefused.kind_mem⟩
    | ok after =>
        rw [rest_advance_iff, happlied] at hfailed
        cases hfailed
  succeeded change hdone := by
    cases happlied : change.applied ((fresh settings).run bound changes).engine.catalog with
    | error failure =>
        rw [rest_advance_iff, happlied] at hdone
        cases hdone
    | ok after =>
        rw [next_of_ok happlied]
        exact Change.made_of_applied happlied
  versions _ _ _ hold hstays := version_run hold hstays

/-- A cube that is published and replaced keeps its place; one that comes back goes last, from
version zero. -/
example : (((fresh .standard).run .empty
    [.register (.ofFacts "sales" "facts") false, .register (.ofFacts "costs" "facts") false,
      .publish "sales" (.ofFacts "sales" "facts__sales_v1") 1,
      .publish "sales" (.ofFacts "sales" "facts") 1,
      .register (.ofFacts "sales" "facts") true, .unregister "costs",
      .register (.ofFacts "stock" "stock") false, .register (.ofFacts "costs" "facts") false]
    ).engine.catalog.entries.map fun entry => (entry.1, entry.2.version, entry.2.refreshed)) =
      [("sales", 1, false), ("stock", 0, false), ("costs", 0, false)] := by
  decide +kernel

end Revised

end StarCube
