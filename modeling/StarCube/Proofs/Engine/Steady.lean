import StarCube.Proofs.Engine.Current

/-!
Runs in which no table that is needed is removed. What a refresh removes is harmless just if no name
of it is in use again, and over one cube whose versions are counted on none is. A count that starts
again while snapshots of the cube are leased or retired gives their names away twice.
-/

namespace StarCube

namespace World

/-- An event that keeps to a single cube and to the count of its versions: it is registered over
tables that are not named like snapshots to come, and unregistered only while none of its snapshots
is leased or retired. -/
def Orderly (cube : String) (world : World) : Event → Prop
  | .call (.register definition _) _ => definition.name = cube ∧
      ∀ table ∈ definition.tables, Dated cube (world.engine.catalog.version cube) table
  | .call (.unregister _) _ =>
      (∀ lease ∈ world.engine.leases, ∀ table ∈ lease, Dated cube 0 table) ∧
        ∀ table ∈ world.engine.retiredTables cube, Dated cube 0 table
  | _ => True

/-- A world over a single cube in which its versions are counted on. -/
structure Steady (world : World) (cube : String) : Prop where
  counted : world.Counted cube
  current : world.engine.Current cube

namespace Steady

variable {world : World} {event : Event} {cube : String}

/-- Every orderly event keeps a world steady. -/
theorem next (h : world.Steady cube) (horderly : world.Orderly cube event) :
    (world.next event).Steady cube := by
  refine ⟨h.counted.next event, ?_⟩
  cases hmoved : world.moved event with
  | none =>
      rw [next_eq_self hmoved]
      exact h.current
  | some moved =>
      obtain ⟨engine, task⟩ := moved
      rw [engine_next hmoved]
      cases moves_of_moved h.counted.sound hmoved with
      | register definition replace context outcome =>
          exact h.current.register horderly.1 horderly.2 replace
      | unregister name context outcome =>
          exact h.current.unregister horderly.1 horderly.2 name
      | refuse other context failure => exact h.current
      | start other context entry after next hentry hgoes =>
          exact hgoes.current h.current h.counted.kept
      | resume index signal other begun context stage after next hbefore hcounted hgoes =>
          exact hgoes.current h.current h.counted.kept
      | read operation context after bound rest hafter hrest => exact h.current.readFrom hafter
      | readOn index signal operation begun context bound before rest after hbefore hafter hrest =>
          exact h.current.readFrom hafter

/-- In a steady world no table that is needed is removed. -/
theorem harmless (h : world.Steady cube) (event : Event) : world.Harmless cube event := by
  intro table hremoves
  obtain ⟨engine, begun, context, stage, next, hmoved, -, hcounted, hgoes, htable⟩ :=
    hremoves.goes h.counted.sound
  rw [engine_next hmoved]
  exact hgoes.harmless h.current h.counted.kept (hcounted rfl) htable

end Steady

theorem kept_of_create {settings : Settings} {engine : Engine}
    (h : Engine.create settings .empty = .ok engine) : 0 < settings.refreshKeepVersions := by
  obtain ⟨_, hchecked, -⟩ := Except.bind_eq_ok_iff.1 h
  obtain ⟨_, hkept⟩ := Except.discard_eq_ok_iff.1 hchecked
  unfold Engine.checkKept at hkept
  split at hkept
  · cases hkept
  · next hleast =>
      have htwo : ((Settings.leastKeptVersions : Nat) : Int) = 2 := rfl
      omega

theorem steady_fresh {settings : Settings}
    (h : Engine.create settings .empty = .ok (fresh settings).engine) (cube : String) :
    (fresh settings).Steady cube := by
  have hnone : ∀ name, (fresh settings).engine.catalog.entry? name = none := fun _ => rfl
  refine ⟨⟨kept_of_create h, ?_, ?_, ⟨?_, ?_⟩, ?_⟩, ⟨?_, ?_, ?_, ?_⟩⟩
  · simp [Catalog.version, hnone]
  · simp [Catalog.Settled, hnone]
  · simp [fresh]
  · simp [fresh]
  · simp [fresh]
  · simp [hnone]
  · simp [hnone]
  · simp [fresh]
  · simp [fresh, Engine.retiredTables, Keyed.get?]

/-- No table is removed that is needed, just if none has a name that is in use again; which holds in
every run that keeps to a single cube and to the count of its versions, however calls are
interleaved and answered. -/
theorem harmless_throughout_iff {settings : Settings}
    (h : Engine.create settings .empty = .ok (fresh settings).engine) (cube : String)
    (events : List Event) :
    ((fresh settings).Throughout (Harmless cube) events ↔
      (fresh settings).Throughout (Distinct cube) events) ∧
    ((fresh settings).Throughout (Orderly cube) events →
      (fresh settings).Throughout (Harmless cube) events) := by
  have hfresh := steady_fresh h cube
  refine ⟨⟨?_, ?_⟩, ?_⟩
  · exact Throughout.of_invariant
      (fun world event (hcounted : world.Counted cube) _ => hcounted.next event)
      (fun world event hcounted => (hcounted.harmless_iff event).1) hfresh.counted
  · exact Throughout.of_invariant
      (fun world event (hcounted : world.Counted cube) _ => hcounted.next event)
      (fun world event hcounted => (hcounted.harmless_iff event).2) hfresh.counted
  · exact Throughout.of_invariant
      (fun world event (hsteady : world.Steady cube) horderly => hsteady.next horderly)
      (fun world event hsteady _ => hsteady.harmless event) hfresh

/-- A cube is refreshed three times, so that its first version is no longer kept. -/
def threeVersions : List Event :=
  [.call (.register (.ofFacts "sales" "facts") false) .empty,
   .call (.refresh "sales") .empty, .signal 1 (.acknowledge (.ok ())),
   .call (.refresh "sales") .empty, .signal 2 (.acknowledge (.ok ())),
   .call (.refresh "sales") .empty, .signal 3 (.acknowledge (.ok ()))]

theorem harmless_threeVersions :
    Engine.create .standard .empty = .ok (fresh .standard).engine ∧
      (fresh .standard).Throughout (Orderly "sales") threeVersions ∧
      (fresh .standard).Throughout (Harmless "sales") threeVersions := by
  have hcreate : Engine.create .standard .empty = .ok (fresh .standard).engine := rfl
  have horderly : (fresh .standard).Throughout (Orderly "sales") threeVersions := by
    refine ⟨⟨rfl, ?_⟩, trivial, trivial, trivial, trivial, trivial, trivial, trivial⟩
    intro table htable
    obtain rfl : table = "facts" := by simpa [Cube.tables, Cube.ofFacts] using htable
    exact dated_of_not_mem (by decide)
  exact ⟨hcreate, horderly, (harmless_throughout_iff hcreate "sales" threeVersions).2 horderly⟩

/-- A cube is unregistered and registered anew while a table of it is retired, on which a query has
held a lease. -/
def countedAgain : List Event :=
  [.call (.register (.ofFacts "sales" "facts") false) .empty,
   .call (.refresh "sales") .empty, .signal 1 (.acknowledge (.ok ())),
   .call (.read (.runQuery ⟨[], "sales", []⟩)) .empty,
   .call (.refresh "sales") .empty, .signal 3 (.acknowledge (.ok ())),
   .call (.refresh "sales") .empty, .signal 4 (.acknowledge (.ok ())),
   .signal 2 (.answer (.ok ⟨[], []⟩)),
   .call (.unregister "sales") .empty,
   .call (.register (.ofFacts "sales" "facts") false) .empty,
   .call (.refresh "sales") .empty, .signal 7 (.acknowledge (.ok ()))]

/-- The next refresh removes the table that it has just published. -/
theorem not_harmless_countedAgain :
    ¬ (fresh .standard).Throughout (Harmless "sales") countedAgain := by
  intro h
  obtain ⟨-, -, -, -, -, -, -, -, -, -, -, -, hlast, -⟩ := h
  have htable : dropStatement "facts__sales_v1" ∈ ["DROP TABLE IF EXISTS facts__sales_v1"] := by
    decide
  refine hlast "facts__sales_v1" (removes_of_submitted ?_ htable) (.inr ⟨?_, ?_, ?_⟩)
  · decide +kernel
  · exact ⟨.ofFacts "sales" "facts", .ofFacts "sales" "facts__sales_v1", 1, some ⟨3⟩⟩
  · decide +kernel
  · decide

end World

end StarCube
