import StarCube.Proofs.Engine.Apart
import StarCube.Proofs.Engine.RollBack
import StarCube.Proofs.Engine.Versions

/-!
The versions of a cube in the course of a run. As long as a cube that is registered stays so, and is
not registered over tables that have the names of its snapshots, its refreshes give the versions
one, two, three and so on, each publishes just what it has had created itself, and no snapshot is
created whose name has been in use.
-/

namespace StarCube

namespace World

/-- The version that a refresh of a cube gives at an event. -/
def gives? (world : World) (cube : String) (event : Event) : Option Int :=
  (world.moved event).bind fun moved =>
    moved.2.completed?.bind fun completed => if completed.1 = cube then some completed.2 else none

/-- The versions that the refreshes of a cube give in a list of events, in the order in which they
end. -/
def given (cube : String) : World → List Event → List Int
  | _, [] => []
  | world, event :: rest => (world.gives? cube event).toList ++ given cube (world.next event) rest

/-- A cube that is registered stays so, and what it is registered over are no snapshots of its
own. -/
structure Undisturbed (cube : String) (world : World) (event : Event) : Prop where
  registered : ∀ entry, world.engine.catalog.entry? cube = some entry →
    ∃ entry, (world.next event).engine.catalog.entry? cube = some entry
  sources : ∀ entry, (world.next event).engine.catalog.entry? cube = some entry →
    ∀ version before, 1 ≤ version → snapshotTable cube version before ∉ entry.source.tables

end World

/-- The first versions, as many as there are to be. -/
def firstVersions (count : Nat) : List Int :=
  (List.range count).map fun n => (n : Int) + 1

theorem firstVersions_succ (count : Nat) :
    firstVersions (count + 1) = firstVersions count ++ [(count : Int) + 1] := by
  simp [firstVersions, List.range_succ]

/-- How many refreshes have given their version, as the version of the cube and the refresh that has
its turn tell. -/
def Stage.Tallies (count : Nat) (version : Int) : Option Stage → Prop
  | some (.creating _ built _ _ _) => built = version + 1 ∧ version = count
  | some (.expiring built _) => built = version ∧ version = count + 1
  | _ => version = count

namespace World

/-- The version of a cube tells how many refreshes of it have given theirs. -/
structure Tallied (world : World) (cube : String) (count : Nat) : Prop where
  inOrder : world.InOrder
  settled : world.engine.catalog.Settled cube
  sources : ∀ entry, world.engine.catalog.entry? cube = some entry →
    ∀ version before, 1 ≤ version → snapshotTable cube version before ∉ entry.source.tables
  turn : ∃ stage?, world.At cube stage? ∧
    Stage.Tallies count (world.engine.catalog.version cube) stage?

variable {world : World} {event : Event} {engine : Engine} {task : Task} {cube : String}
  {count : Nat}
  {stage? : Option Stage}

theorem gives?_eq_some_iff (h : world.moved event = some (engine, task)) {version : Int} :
    world.gives? cube event = some version ↔ task.ended? = some (cube, .ok version) := by
  have hgives : world.gives? cube event = task.completed?.bind fun completed =>
      if completed.1 = cube then some completed.2 else none := by simp [gives?, h]
  rw [hgives, Option.bind_eq_some_iff]
  constructor
  · rintro ⟨⟨name, given⟩, hcompleted, hname⟩
    obtain ⟨rfl, hgiven⟩ := Option.ite_none_right_eq_some.1 hname
    obtain rfl := Option.some.inj hgiven
    exact Task.ended?_of_completed? hcompleted
  · intro hended
    exact ⟨(cube, version), by simp [Task.completed?, hended], if_pos rfl⟩

/-- A refresh gives its version when it ends well. -/
theorem gives?_eq_some_iff_of_stage {other : String} {begun : Engine} {context : LogContext}
    {next : Stage}
    (h : world.moved event = some (engine, ⟨.refresh other, begun, context, next.procedure other⟩))
    {version : Int} :
    world.gives? cube event = some version ↔ other = cube ∧ next = .ended (.ok version) :=
  (gives?_eq_some_iff h).trans Task.ended?_eq_some_iff

theorem gives?_eq_none (h : world.moved event = some (engine, task))
    (htask : ∀ version, task.ended? ≠ some (cube, .ok version)) : world.gives? cube event = none :=
  Option.eq_none_iff_forall_ne_some.2 fun version hgives =>
    htask version ((gives?_eq_some_iff h).1 hgives)

/-- A refresh gives nothing while it does not end well. -/
theorem gives?_eq_none_of_stage {other : String} {begun : Engine} {context : LogContext}
    {next : Stage}
    (h : world.moved event = some (engine, ⟨.refresh other, begun, context, next.procedure other⟩))
    (hnext : other = cube → ∀ version, next ≠ .ended (.ok version)) :
    world.gives? cube event = none :=
  gives?_eq_none h fun version hended =>
    have hgiven := Task.ended?_eq_some_iff.1 hended
    hnext hgiven.1 version hgiven.2

/-- The version of a cube rises by one at an event, as a refresh publishes it, which gives it at
once or when it has removed what is due. -/
def Rises (world : World) (cube : String) (event : Event) : Prop :=
  (world.next event).engine.catalog.version cube = world.engine.catalog.version cube + 1 ∧
    (world.gives? cube event = some (world.engine.catalog.version cube + 1) ∨
      ∃ index idle, (world.next event).Has index cube
        (.expiring (world.engine.catalog.version cube + 1) idle))

/-- What an event does for the versions of a cube: it may rise by one, and a refresh may give it. -/
structure Advances (world : World) (cube : String) (event : Event) (count later : Nat) : Prop where
  tallied : (world.next event).Tallied cube later
  given : firstVersions later = firstVersions count ++ (world.gives? cube event).toList
  version : (world.next event).engine.catalog.version cube = world.engine.catalog.version cube ∨
    world.Rises cube event

theorem Advances.le {later : Nat} (h : world.Advances cube event count later) :
    world.engine.catalog.version cube ≤ (world.next event).engine.catalog.version cube := by
  rcases h.version with hsame | ⟨hrisen, -⟩ <;> omega

section Quiet

/-! An event that lets no refresh of the cube go on that has its turn. -/

variable (h : world.Tallied cube count) (hevent : world.Undisturbed cube event)
  (hidle : ∀ before, world.tasks[world.place event]? = some before → ¬ before.HasTurn cube)
  (hmoved : world.moved event = some (engine, task))

include h hevent hidle hmoved

theorem advances_of_idle (htask : ¬ task.HasTurn cube) (hcompleted : world.gives? cube event = none)
    (hsettled : engine.catalog.Settled cube)
    (hversion : engine.catalog.version cube = world.engine.catalog.version cube) :
    world.Advances cube event count count := by
  obtain ⟨stage?, hat, htallies⟩ := h.turn
  have hsame : (world.next event).engine.catalog.version cube =
      world.engine.catalog.version cube := by
    rw [engine_next hmoved, hversion]
  refine ⟨⟨h.inOrder.next event, ?_, hevent.sources, stage?, hat.of_idle hmoved htask hidle, ?_⟩,
    ?_, .inl hsame⟩
  · rw [engine_next hmoved]
    exact hsettled
  · rw [hsame]
    exact htallies
  · simp [hcompleted]

/-- A refresh that comes from no turn gives nothing, and if its turn begins it builds the next
version. -/
theorem advances_of_goes {other : String} {begun : Engine} {context : LogContext}
    {stage next : Stage} (htask : task = ⟨.refresh other, begun, context, next.procedure other⟩)
    (hgoes : Stage.Goes other world.engine stage engine next)
    (hstage : other = cube → stage.active = false) : world.Advances cube event count count := by
  subst htask
  have hnothing : world.gives? cube event = none := by
    refine gives?_eq_none_of_stage hmoved fun hname version hnext => ?_
    subst hnext
    exact absurd hgoes.active_of_ok (by simp [hstage hname])
  by_cases hcube : other = cube
  · subst hcube
    have hended : next.active = false → engine = world.engine →
        world.Advances other event count count := by
      rintro hnext rfl
      refine advances_of_idle h hevent hidle hmoved ?_ hnothing h.settled rfl
      rw [Task.hasTurn_iff]
      simp [hnext]
    have hstage := hstage rfl
    cases hgoes with
    | waits source busy => exact hended rfl rfl
    | refused source failure => exact hended rfl rfl
    | enters source entry free registered checked =>
        obtain ⟨stage?, hat, htallies⟩ := h.turn
        obtain rfl := hat.eq_none ((h.inOrder.exclusive other).at_none free)
        have hplanned := Stage.planned_start
          fun before hbefore => (Procedure.checkSnapshots_eq_ok_iff.1 checked before hbefore).2
        have hnext := at_lasting hmoved hplanned
          fun i task _ htask hturn => hat task (List.mem_of_getElem? htask) hturn
        have hengine := engine_next hmoved
        have hversion : (world.next event).engine.catalog.version other =
            world.engine.catalog.version other := by rw [hengine]; rfl
        refine ⟨⟨h.inOrder.next event, ?_, hevent.sources, _, hnext, ?_⟩,
          by simp [hnothing], .inl hversion⟩
        · rw [hengine]
          exact h.settled
        · rw [hversion]
          exact ⟨by rw [Catalog.version_of_entry registered], htallies⟩
    | _ => cases hstage
  · refine advances_of_idle h hevent hidle hmoved ?_ hnothing ?_ ?_
    · rw [Task.hasTurn_iff]
      exact fun hturn => hcube hturn.1
    · exact h.settled.congr (hgoes.entry?_of_ne (Ne.symm hcube))
    · exact Catalog.version_congr (hgoes.entry?_of_ne (Ne.symm hcube))

/-- A cube that is unregistered is another one, as the cube stays registered. -/
theorem advances_of_unregister {name : String} (htask : ¬ task.HasTurn cube)
    (hended : ∀ version, task.ended? ≠ some (cube, .ok version))
    (hengine : engine = world.engine.changed fun catalog => catalog.unregister name) :
    world.Advances cube event count count := by
  have hkept := advances_of_idle h hevent hidle hmoved htask (gives?_eq_none hmoved hended)
  rw [hengine] at hkept
  rcases world.engine.changed_eq_or fun catalog => catalog.unregister name with
    hsame | ⟨catalog, hcatalog, hchanged⟩
  · rw [hsame] at hkept
    exact hkept h.settled rfl
  · obtain ⟨hnone, hothers⟩ := Catalog.entry?_unregister hcatalog
    have hname : cube ≠ name := by
      rintro rfl
      obtain ⟨entry, hentry⟩ := Catalog.exists_entry?_of_unregister hcatalog
      obtain ⟨after, hafter⟩ := hevent.registered entry hentry
      rw [engine_next hmoved, hengine, hchanged] at hafter
      simp [hnone] at hafter
    rw [hchanged] at hkept
    exact hkept (h.settled.congr (hothers cube hname))
      (Catalog.version_congr (hothers cube hname))

theorem advances_of_quiet : world.Advances cube event count count := by
  have hpasses := @advances_of_idle world event engine task cube count h hevent hidle hmoved
  cases moves_of_moved h.inOrder.sound hmoved with
  | register definition replace context outcome =>
      apply hpasses (by simp [Task.HasTurn]) (gives?_eq_none hmoved (by simp [Task.ended?]))
      · exact @Engine.catalog_changed (fun catalog => catalog.Settled cube) _ _ h.settled
          fun after hafter => h.settled.register hafter
      · exact @Engine.catalog_changed
          (fun catalog => catalog.version cube = world.engine.catalog.version cube) _ _ rfl
          fun after hafter => Catalog.version_register hafter cube
  | unregister name context outcome =>
      exact advances_of_unregister h hevent hidle hmoved (by simp [Task.HasTurn])
        (by simp [Task.ended?]) rfl
  | refuse other context failure =>
      refine hpasses ?_ (gives?_eq_none_of_stage hmoved fun _ _ => by simp) h.settled rfl
      rw [Task.hasTurn_iff]
      simp [Stage.active]
  | start other context entry after next hentry hgoes =>
      exact advances_of_goes h hevent hidle hmoved rfl hgoes fun _ => rfl
  | resume index signal other begun context stage after next hbefore hnamed hgoes =>
      apply advances_of_goes h hevent hidle hmoved rfl hgoes
      intro hcube
      rw [← Bool.not_eq_true]
      exact fun hactive => hidle _ hbefore (Task.hasTurn_iff.2 ⟨hcube, hactive⟩)
  | read operation context after bound rest hafter hrest =>
      refine hpasses (by simp [Task.HasTurn]) (gives?_eq_none hmoved (by simp [Task.ended?])) ?_ ?_
      · rw [hafter.catalog]
        exact h.settled
      · rw [hafter.catalog]
  | readOn index signal operation begun context bound before rest after hbefore hafter hrest =>
      refine hpasses (by simp [Task.HasTurn]) (gives?_eq_none hmoved (by simp [Task.ended?])) ?_ ?_
      · rw [hafter.catalog]
        exact h.settled
      · rw [hafter.catalog]

end Quiet

section Turn

/-! A refresh of the cube that has its turn goes on. -/

variable (h : world.Tallied cube count) (hevent : world.Undisturbed cube event)
  {next : Engine × Stage} {begun : Engine} {context : LogContext}
  (hmoved : world.moved event =
    some (next.1, ⟨.refresh cube, begun, context, next.2.procedure cube⟩))
  (hat : (world.next event).At cube next.2.lasting)

include h hevent hmoved hat

/-- It goes on without a change of the catalog and gives nothing. -/
theorem advances_of_catalog_eq (hcatalog : next.1.catalog = world.engine.catalog)
    (hnothing : ∀ version, next.2 ≠ .ended (.ok version))
    (htallies : Stage.Tallies count (world.engine.catalog.version cube) next.2.lasting) :
    world.Advances cube event count count := by
  have hsame : (world.next event).engine.catalog = world.engine.catalog := by
    rw [engine_next hmoved, hcatalog]
  have hgives : world.gives? cube event = none := gives?_eq_none_of_stage hmoved fun _ => hnothing
  refine ⟨⟨h.inOrder.next event, ?_, hevent.sources, _, hat, ?_⟩,
    by simp [hgives], .inl (by rw [hsame])⟩
  · rw [hsame]
    exact h.settled
  · rw [hsame]
    exact htallies

theorem advances_of_rollBack {version : Int} {created : List String} {failure : Failure}
    (hnext : next = Stage.rollBack cube world.engine version created failure)
    (hversion : world.engine.catalog.version cube = count) :
    world.Advances cube event count count := by
  apply advances_of_catalog_eq h hevent hmoved hat <;> rw [hnext] <;> unfold Stage.rollBack
  · split <;> rfl
  · intro version
    split <;> simp
  · split
    · exact hversion
    · exact hversion

/-- It has created all snapshots and publishes them, unless that is refused. -/
theorem advances_of_publish {source : Cube} {version : Int} {created : List String}
    (hnext : next = Stage.publish cube world.engine source version created)
    (hlater : version = world.engine.catalog.version cube + 1)
    (hversion : world.engine.catalog.version cube = count) :
    ∃ later, world.Advances cube event count later := by
  unfold Stage.publish at hnext
  cases hpublish : world.engine.catalog.publish cube
      (source.renameTables (snapshotTable cube version)) version with
  | error failure =>
      rw [hpublish] at hnext
      exact ⟨count, advances_of_rollBack h hevent hmoved hat hnext hversion⟩
  | ok catalog =>
      simp only [hpublish, Stage.expire] at hnext
      have hcatalog : (world.next event).engine.catalog = catalog := by
        rw [engine_next hmoved, hnext]
        split <;> rfl
      have hrisen : (world.next event).engine.catalog.version cube = version := by
        rw [hcatalog]
        exact (Catalog.version_publish hpublish).2
      have hsettled : (world.next event).engine.catalog.Settled cube := by
        rw [hcatalog]
        exact Catalog.settled_publish hpublish
      split at hnext
      · have hstage : next.2 = .ended (.ok version) := by rw [hnext]
        have hgives : world.gives? cube event = some version :=
          (gives?_eq_some_iff_of_stage hmoved).2 ⟨rfl, hstage⟩
        rw [hstage] at hat
        refine ⟨count + 1, ⟨h.inOrder.next event, hsettled, hevent.sources, _, hat, ?_⟩,
          ?_, .inr ⟨?_, .inl ?_⟩⟩
        · show (world.next event).engine.catalog.version cube = (count + 1 : Nat)
          omega
        · rw [firstVersions_succ, hgives, hlater, hversion]
          rfl
        · rw [hrisen, hlater]
        · rw [hgives, hlater]
      · have hnothing : world.gives? cube event = none :=
          gives?_eq_none_of_stage hmoved fun _ _ => by simp [hnext]
        rw [hnext] at hat
        obtain ⟨index, hhas⟩ := hat.2.2
        refine ⟨count, ⟨h.inOrder.next event, hsettled, hevent.sources, _, hat, hrisen.symm, ?_⟩,
          by simp [hnothing], .inr ⟨?_, .inr ⟨index, _, hlater ▸ hhas⟩⟩⟩
        · omega
        · rw [hrisen, hlater]

/-- It is told of its statements, at any stage. -/
theorem advances_of_acknowledge {stage : Stage} {result : Except Failure Unit}
    (hnext : next = Stage.acknowledge cube world.engine result stage)
    (hactive : stage.active = true)
    (htallies : Stage.Tallies count (world.engine.catalog.version cube) (some stage)) :
    ∃ later, world.Advances cube event count later := by
  have hkept := advances_of_catalog_eq h hevent hmoved hat
  cases stage with
  | waiting source => cases hactive
  | ended outcome => cases hactive
  | cleaning version created failure =>
      exact ⟨count, hkept (by rw [hnext]; rfl) (by simp [hnext, Stage.acknowledge])
        (by rw [hnext]; exact htallies)⟩
  | expiring version idle =>
      obtain ⟨rfl, hversion⟩ := htallies
      have hstage : next.2 = .ended (.ok (world.engine.catalog.version cube)) := by rw [hnext]; rfl
      have hcatalog : (world.next event).engine.catalog = world.engine.catalog := by
        rw [engine_next hmoved, hnext]
        rfl
      have hgives : world.gives? cube event = some (world.engine.catalog.version cube) :=
        (gives?_eq_some_iff_of_stage hmoved).2 ⟨rfl, hstage⟩
      rw [hstage] at hat
      refine ⟨count + 1, ⟨h.inOrder.next event, ?_, hevent.sources, _, hat, ?_⟩,
        ?_, .inl (by rw [hcatalog])⟩
      · rw [hcatalog]
        exact h.settled
      · rw [hcatalog]
        show world.engine.catalog.version cube = (count + 1 : Nat)
        omega
      · rw [firstVersions_succ, hgives, hversion]
        rfl
  | creating source version created table rest =>
      obtain ⟨hlater, hversion⟩ := htallies
      cases result with
      | error failure => exact ⟨count, advances_of_rollBack h hevent hmoved hat hnext hversion⟩
      | ok _ =>
          cases rest with
          | nil => exact advances_of_publish h hevent hmoved hat hnext hlater hversion
          | cons following rest =>
              exact ⟨count, hkept (by rw [hnext]; rfl) (by simp [hnext, Stage.acknowledge])
                (by rw [hnext]; exact ⟨hlater, hversion⟩)⟩

end Turn

/-- An event lets at most one refresh give its version, and it is the next one. -/
theorem Tallied.next (h : world.Tallied cube count) (hevent : world.Undisturbed cube event) :
    ∃ later, world.Advances cube event count later := by
  cases hmoved : world.moved event with
  | none =>
      have hsame := next_eq_self hmoved
      refine ⟨count, ?_, ?_, .inl (by rw [hsame])⟩
      · rw [hsame]
        exact h
      · simp [gives?, hmoved]
  | some moved =>
      obtain ⟨engine, task⟩ := moved
      by_cases hturn : ∃ before, world.tasks[world.place event]? = some before ∧ before.HasTurn cube
      · obtain ⟨before, hbefore, hbeforeTurn⟩ := hturn
        obtain ⟨stage?, hat, htallies⟩ := h.turn
        obtain ⟨stage, rfl, hactive, hplanned, hhas⟩ :=
          hat.exists_has (h.inOrder.exclusive cube) hbefore hbeforeTurn
        cases event with
        | call call context => simp [place] at hbefore
        | signal index signal =>
            obtain ⟨result, rfl⟩ := hhas.exists_acknowledge hactive hmoved
            obtain ⟨begun, context, hmoved'⟩ := hhas.moved hactive result
            have hnext := at_lasting hmoved' (hplanned.acknowledge world.engine result)
              (hhas.not_hasTurn hactive (h.inOrder.exclusive cube))
            exact advances_of_acknowledge h hevent hmoved' hnext rfl hactive htallies
      · exact ⟨count, advances_of_quiet h hevent (fun before hbefore hbeforeTurn =>
          hturn ⟨before, hbefore, hbeforeTurn⟩) hmoved⟩

theorem tallied_fresh (settings : Settings) (cube : String) : (fresh settings).Tallied cube 0 where
  inOrder := inOrder_fresh settings
  settled := by simp [Catalog.Settled, fresh, Catalog.entry?, Catalog.empty, Keyed.get?]
  sources := by simp [fresh, Catalog.entry?, Catalog.empty, Keyed.get?]
  turn := ⟨none, by simp [At, fresh], rfl⟩

theorem throughout_append {holds : World → Event → Prop} {front back : List Event} :
    world.Throughout holds (front ++ back) ↔
      world.Throughout holds front ∧ (world.run front).Throughout holds back := by
  induction front generalizing world with
  | nil => simp [Throughout, run]
  | cons event rest ih =>
      simp only [List.cons_append, Throughout, ih, and_assoc]
      rfl

/-- In every run the versions that are given go on from those given before, and the version of the
cube does not fall. -/
theorem Tallied.run (h : world.Tallied cube count) {events : List Event}
    (hevents : world.Throughout (Undisturbed cube) events) :
    ∃ later, (world.run events).Tallied cube later ∧
      firstVersions later = firstVersions count ++ world.given cube events ∧
      world.engine.catalog.version cube ≤ (world.run events).engine.catalog.version cube := by
  induction events generalizing world count with
  | nil => exact ⟨count, h, by simp [given], Int.le_refl _⟩
  | cons event rest ih =>
      obtain ⟨hevent, hrest⟩ := hevents
      obtain ⟨between, hadvances⟩ := h.next hevent
      obtain ⟨later, htallied, hgiven, hversion⟩ := ih hadvances.tallied hrest
      refine ⟨later, htallied, ?_, Int.le_trans hadvances.le hversion⟩
      rw [hgiven, hadvances.given, given, List.append_assoc]

/-- A table that is created is a snapshot of the version to come. -/
theorem Tallied.of_creates (h : world.Tallied cube count) {table : String}
    (hcreates : world.Creates cube table) :
    ∃ before, table = snapshotTable cube (world.engine.catalog.version cube + 1) before := by
  obtain ⟨task, htask, hcall, statement, hstatement, hcreated⟩ := hcreates
  obtain ⟨index, hindex⟩ := List.getElem?_of_mem htask
  have hdrops := Store.not_mem_drops_of_created? hcreated
  -- It waits for a statement, so it is the refresh that has its turn.
  have hturn : task.HasTurn cube := by
    obtain ⟨begun, context, stage, rfl, -⟩ := (h.inOrder.sound task htask).exists_stage hcall
    rw [Task.statements_refresh] at hstatement
    exact Task.hasTurn_iff.2 ⟨rfl, Stage.active_of_mem_submitted hstatement⟩
  obtain ⟨stage?, hat, htallies⟩ := h.turn
  obtain ⟨stage, rfl, hactive, hplanned, begun, context, hsame⟩ :=
    hat.exists_has (h.inOrder.exclusive cube) hindex hturn
  obtain rfl := Option.some.inj (hindex.symm.trans hsame)
  rw [Task.statements_refresh] at hstatement
  cases stage with
  | creating source built created before rest =>
      obtain rfl := List.mem_singleton.1 hstatement
      obtain ⟨⟨front, hsource, -⟩, hnames⟩ := hplanned
      have hname := hnames before (by simp [hsource])
      rw [Store.created?_createStatement hname.blank_not_mem] at hcreated
      exact ⟨before, by rw [← htallies.1, Option.some.inj hcreated]⟩
  | cleaning built created failure => exact absurd hstatement (hdrops created)
  | expiring built idle => exact absurd hstatement (hdrops idle)
  | waiting source => cases hactive
  | ended outcome => cases hactive

theorem Tallied.nonneg (h : world.Tallied cube count) : 0 ≤ world.engine.catalog.version cube := by
  obtain ⟨stage?, -, htallies⟩ := h.turn
  cases stage? with
  | none =>
      have : world.engine.catalog.version cube = count := htallies
      omega
  | some stage =>
      cases stage <;> simp only [Stage.Tallies] at htallies <;> omega

/-- No table of a published definition has the name of a snapshot of a later version. -/
theorem Tallied.not_mem_published (h : world.Tallied cube count) {entry : CatalogEntry}
    (hentry : world.engine.catalog.entry? cube = some entry) {version : Int}
    (hversion : world.engine.catalog.version cube < version) (before : String) :
    snapshotTable cube version before ∉ entry.published.tables := by
  rw [h.settled.mem_published_iff hversion hentry]
  rintro ⟨-, hsource⟩
  have := h.nonneg
  exact h.sources entry hentry version before (by omega) hsource

/-! ### What a run has on record -/

/-- A refresh that publishes has had just what it publishes created, one snapshot after the
other. -/
theorem Publication.created {settings : Settings} {events : List Event}
    {before after : CatalogEntry}
    (h : ((fresh settings).run events).Publication event cube task before after) :
    ∃ begun, task.begun.catalog.entry? cube = some begun ∧
      after.published = begun.source.renameTables (snapshotTable cube after.version) ∧
      after.published.tables = begun.source.tables.map (snapshotTable cube after.version) ∧
      (fresh settings).exchanges (((fresh settings).run events).place event) (events ++ [event]) =
        Refresh.creations cube after.version begun.source.tables := by
  obtain ⟨engine, hmoved⟩ := h.moved
  have hmade := h.made
  have hne := h.catalog_ne
  rw [engine_next hmoved] at hmade hne
  obtain ⟨call, start, bound, rest⟩ := task
  obtain rfl : call = .refresh cube := h.call
  obtain ⟨legs, context, hhead, hcourse⟩ := courses_of_moved (traced_run settings events _) hmoved
  rw [exchanges_append_singleton]
  obtain ⟨source, version, ⟨leg, begun, hleg, hbegun, rfl⟩, hpublish, hexchanges⟩ :=
    Refresh.course_of_catalog_ne hcourse hne
  obtain ⟨⟨current, hcurrent, hnewer, hentry⟩, -⟩ := Catalog.entry?_publish hpublish
  obtain rfl := Option.some.inj (hentry.symm.trans hmade)
  have hstart : leg.found = start := by simpa [hleg] using hhead
  exact ⟨begun, hstart ▸ hbegun, rfl,
    Cube.tables_renameTables (snapshotTable_injective cube version) _, hexchanges⟩

/-- What a run has on record for a cube. -/
structure Chronicle (settings : Settings) (cube : String) (events : List Event) : Prop where
  /-- The versions that are given are one, two, three and so on, and the version of the cube is the
  last one, unless a refresh that has published is still to give the next one. -/
  consecutive : ∃ count, (fresh settings).given cube events = firstVersions count ∧
    (((fresh settings).run events).engine.catalog.version cube = count ∨
      ((fresh settings).run events).engine.catalog.version cube = count + 1 ∧
        ∃ index idle, ((fresh settings).run events).Has index cube (.expiring (count + 1) idle))
  /-- The version moves only as a refresh publishes that does not fail. -/
  moved : ∀ front event, front ++ [event] <+: events →
    ((fresh settings).run (front ++ [event])).engine.catalog.version cube =
        ((fresh settings).run front).engine.catalog.version cube ∨
      ((fresh settings).run front).Rises cube event
  /-- A refresh publishes the next version, of the source that it was called with, after just the
  snapshots that it publishes have been created for it, each once. -/
  published : ∀ front event task before after, front ++ [event] <+: events →
    ((fresh settings).run front).Publication event cube task before after →
    after.version = before.version + 1 ∧
      ∃ begun, task.begun.catalog.entry? cube = some begun ∧ begun.source.tables.Nodup ∧
        after.published = begun.source.renameTables (snapshotTable cube after.version) ∧
        after.published.tables = begun.source.tables.map (snapshotTable cube after.version) ∧
        (fresh settings).exchanges (((fresh settings).run front).place event) (front ++ [event]) =
          Refresh.creations cube after.version begun.source.tables
  /-- No table is created that the cube has been published over before. -/
  unused : ∀ front earlier table entry, front <+: events → earlier <+: front →
    ((fresh settings).run front).Creates cube table →
    ((fresh settings).run earlier).engine.catalog.entry? cube = some entry →
    table ∉ entry.published.tables

/-- Whatever is called meanwhile, and however the store answers: the record of a cube that stays
registered is in order. -/
theorem chronicle_of_undisturbed {settings : Settings} {events : List Event}
    (h : (fresh settings).Throughout (Undisturbed cube) events) :
    Chronicle settings cube events := by
  have hadvances : ∀ front event, front ++ [event] <+: events →
      ∃ count later, ((fresh settings).run front).Advances cube event count later := by
    rintro front event ⟨back, rfl⟩
    rw [throughout_append, throughout_append] at h
    obtain ⟨⟨hfront, hevent, -⟩, -⟩ := h
    obtain ⟨count, htallied, -⟩ := (tallied_fresh settings cube).run hfront
    exact ⟨count, htallied.next hevent⟩
  constructor
  · obtain ⟨count, htallied, hgiven, -⟩ := (tallied_fresh settings cube).run h
    refine ⟨count, by simpa [firstVersions] using hgiven.symm, ?_⟩
    obtain ⟨stage?, hat, htallies⟩ := htallied.turn
    cases stage? with
    | none => exact .inl htallies
    | some stage =>
        cases stage with
        | expiring built idle =>
            obtain ⟨rfl, hversion⟩ := htallies
            obtain ⟨-, -, index, hhas⟩ := hat
            exact .inr ⟨hversion, index, idle, hversion ▸ hhas⟩
        | creating source built created table rest => exact .inl htallies.2
        | _ => exact .inl htallies
  · intro front event hprefix
    obtain ⟨count, later, hadvances⟩ := hadvances front event hprefix
    rw [run_append_singleton]
    exact hadvances.version
  · intro front event task before after hprefix hpublication
    obtain ⟨begun, hbegun, hpublished⟩ := hpublication.created
    refine ⟨?_, begun, hbegun, begun.source.nodup_tables, hpublished⟩
    obtain ⟨count, later, hadvances⟩ := hadvances front event hprefix
    have hversion := hadvances.version
    have hnewer := hpublication.newer
    rw [Rises, Catalog.version_of_entry hpublication.found,
      Catalog.version_of_entry hpublication.made]
      at hversion
    omega
  · rintro _ earlier table entry ⟨back, rfl⟩ ⟨between, rfl⟩ hcreates hentry hmem
    rw [throughout_append, throughout_append] at h
    obtain ⟨⟨hearlier, hbetween⟩, -⟩ := h
    obtain ⟨count, htallied, -⟩ := (tallied_fresh settings cube).run hearlier
    obtain ⟨later, htallied', -, hversion⟩ := htallied.run hbetween
    rw [← run_append] at htallied' hversion
    obtain ⟨before, rfl⟩ := htallied'.of_creates hcreates
    exact htallied.not_mem_published hentry (by omega) before hmem

/-- A cube is left as it was registered where it is registered over tables without low lines in
their names. -/
theorem undisturbed_of_plain
    (h : ((world.next event).engine.catalog.entry? cube).any (fun entry =>
      entry.source.tables.all fun table => !table.toList.contains '_') = true) :
    world.Undisturbed cube event := by
  cases hentry : (world.next event).engine.catalog.entry? cube with
  | none => simp [hentry] at h
  | some entry =>
      rw [hentry, Option.any_some] at h
      refine ⟨fun _ _ => ⟨entry, hentry⟩, fun other hother version before _ hmem => ?_⟩
      obtain rfl := Option.some.inj (hentry.symm.trans hother)
      have hplain := List.all_eq_true.1 h _ hmem
      simp [snapshotTable] at hplain

/-- One of two refreshes that are called at once fails, and the cube is registered anew before the
turn of the other one comes; later there is a third one. -/
def sharedRefreshes : List Event :=
  [.call (.register Refresh.byAccount false) .empty, .call (.refresh "Sales") .empty,
   .call (.refresh "Sales") .empty, .signal 1 (.acknowledge (.ok ())),
   .signal 1 (.acknowledge (.error (.store (.timeout "slow")))), .signal 1 (.acknowledge (.ok ())),
   .call (.register Refresh.byAccount true) .empty, .signal 2 .turn,
   .signal 2 (.acknowledge (.ok ())),
   .signal 2 (.acknowledge (.ok ())), .call (.refresh "Sales") .empty,
   .signal 4 (.acknowledge (.ok ())), .signal 4 (.acknowledge (.ok ()))]

theorem chronicle_sharedRefreshes :
    (fresh .standard).given "Sales" sharedRefreshes = [1, 2] ∧
      (fresh .standard).Throughout (Undisturbed "Sales") sharedRefreshes ∧
      Chronicle .standard "Sales" sharedRefreshes := by
  have hundisturbed : (fresh .standard).Throughout (Undisturbed "Sales") sharedRefreshes := by
    refine ⟨?_, ?_, ?_, ?_, ?_, ?_, ?_, ?_, ?_, ?_, ?_, ?_, ?_, trivial⟩ <;>
      exact undisturbed_of_plain (by decide +kernel)
  exact ⟨by decide +kernel, hundisturbed, chronicle_of_undisturbed hundisturbed⟩

end World

end StarCube
