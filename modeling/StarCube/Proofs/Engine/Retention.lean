import StarCube.Proofs.Engine.Steps

/-!
Which snapshots of a cube are there. A refresh that publishes gives up the version that is no longer
kept: it removes the snapshots that this version would have if it had been made from the tables of
today. As long as a cube is not unregistered and removals succeed, exactly those snapshots are given
up whose table is still one of the cube's when the turn of their version has come. The others stay
for good.
-/

namespace StarCube

/-- What can happen at a site that removes tables whenever it is asked to and never unregisters the
cube. -/
def Site.Keeps (cube : String) (site : Site) : Act → Prop
  | .call (.refresh other) _ => other = cube ∨ NamesApart cube other
  | .call (.unregister name) _ => name ≠ cube
  | .perform task (some _) => ∀ table, dropStatement table ∉ site.statements task
  | _ => True

theorem Site.Keeps.callsApart {cube : String} {site : Site} {act : Act} (h : site.Keeps cube act) :
    CallsApart cube act := by
  cases act with
  | call call context =>
      cases call with
      | refresh other => exact h
      | _ => trivial
  | _ => trivial

/-- A site with the books that are kept on a cube: what was published as each version, and the
leases that were held when the tables due were looked at for the last time. -/
structure Ledger where
  site : Site
  editions : Int → Option Cube
  examined : List (List String)

namespace Ledger

/-- The books before anything is published. -/
def opened (site : Site) : Ledger :=
  ⟨site, fun _ => none, []⟩

/-- The books with what has been published entered. -/
def enter (cube : String) (ledger : Ledger) (after : Site) : Ledger where
  site := after
  editions version :=
    if version = after.version cube then after.published cube else ledger.editions version
  examined := after.world.engine.leases

/-- What an act makes of the books: each publication is entered. -/
def next (cube : String) (ledger : Ledger) (act : Act) : Ledger :=
  let after := ledger.site.next act
  if ledger.site.version cube < after.version cube then ledger.enter cube after
  else { ledger with site := after }

/-- What a list of acts makes of the books. -/
def run (cube : String) (ledger : Ledger) (acts : List Act) : Ledger :=
  acts.foldl (next cube) ledger

/-- The number of versions that are kept. -/
def kept (ledger : Ledger) : Int :=
  ledger.site.world.engine.settings.refreshKeepVersions

/-- A version was published over a snapshot of a table. -/
def Edition (ledger : Ledger) (cube : String) (version : Int) (table : String) : Prop :=
  ∃ published, ledger.editions version = some published ∧
    snapshotTable cube version table ∈ published.tables

/-- A version is given up as to a table: the version at whose publication it fell out of those kept
was over a snapshot of this table, too. -/
def GivenUp (ledger : Ledger) (cube : String) (version : Int) (table : String) : Prop :=
  1 ≤ version ∧ version + ledger.kept ≤ ledger.site.version cube ∧
    ledger.Edition cube (version + ledger.kept) table

theorem site_next (cube : String) (ledger : Ledger) (act : Act) :
    (ledger.next cube act).site = ledger.site.next act := by
  simp only [next]
  split <;> rfl

theorem next_of_steady {cube : String} {ledger : Ledger} {act : Act}
    (h : ledger.site.Steady cube (ledger.site.next act)) :
    ledger.next cube act = { ledger with site := ledger.site.next act } := by
  simp [next, h.version]

end Ledger

/-- Where a refresh stands against the version of its cube. -/
def Stage.Numbered (version : Int) : Stage → Prop
  | .creating _ built _ _ _ => built = version + 1
  | .expiring built _ => built = version
  | _ => True

/-- The books on a cube are in order: which snapshots are there and why. -/
structure Ledger.Books (ledger : Ledger) (cube : String) (stage? : Option Stage) : Prop where
  kept : 0 < ledger.kept
  nonneg : 0 ≤ ledger.site.version cube
  entered : ∀ version, (∃ published, ledger.editions version = some published) ↔
    1 ≤ version ∧ version ≤ ledger.site.version cube
  named : ∀ version published, ledger.editions version = some published →
    ∀ table ∈ published.tables,
    ∃ before, snapshotTable cube version before = table
  numbered : ∀ stage, stage? = some stage → stage.Numbered (ledger.site.version cube)
  /-- What is there was published or has just been made. -/
  stocked : ∀ version before, snapshotTable cube version before ∈ ledger.site.tables →
    ledger.Edition cube version before ∨ snapshotTable cube version before ∈ Stage.made stage?
  /-- What was published is there unless it is given up. -/
  present : ∀ version before, ledger.Edition cube version before →
    snapshotTable cube version before ∈ ledger.site.tables ∨ ledger.GivenUp cube version before
  /-- What is given up and still there is retired or about to go. -/
  handled : ∀ version before, snapshotTable cube version before ∈ ledger.site.tables →
    ledger.GivenUp cube version before →
      snapshotTable cube version before ∈ ledger.site.world.engine.retiredTables cube ∨
        snapshotTable cube version before ∈ Stage.going stage?
  /-- Only what is given up is retired or about to go. -/
  retired : ∀ table, table ∈ ledger.site.world.engine.retiredTables cube ∨
    table ∈ Stage.going stage? →
    ∃ version before, snapshotTable cube version before = table ∧ ledger.GivenUp cube version before
  leased : ∀ table ∈ ledger.site.world.engine.retiredTables cube,
    ∃ lease ∈ ledger.examined, table ∈ lease
  made : ∀ table ∈ Stage.made stage?, table ∈ ledger.site.tables ∧
    ∃ before, snapshotTable cube (ledger.site.version cube + 1) before = table

namespace Ledger

variable {cube : String} {ledger : Ledger} {after : Site} {act : Act} {stage? next? : Option Stage}

/-- How the snapshots of a cube change while its version stays: what is new has just been made, and
what goes had been made or was about to go. -/
structure Shifts (cube : String) (before after : Site) (stage? next? : Option Stage) : Prop where
  gained : ∀ table, IsSnapshot cube table → table ∈ after.tables →
    table ∈ before.tables ∨ table ∈ Stage.made next?
  lost : ∀ table, IsSnapshot cube table → table ∈ before.tables →
    table ∈ after.tables ∨ table ∈ Stage.made stage? ∨ table ∈ Stage.going stage?
  stillMade : ∀ table ∈ after.tables, table ∈ Stage.made stage? → table ∈ Stage.made next?
  stillGoing : ∀ table ∈ after.tables, table ∈ Stage.going stage? → table ∈ Stage.going next?
  made : ∀ table ∈ Stage.made next?, table ∈ after.tables ∧
    ∃ before, snapshotTable cube (after.version cube + 1) before = table
  going : ∀ table ∈ Stage.going next?, table ∈ Stage.going stage?
  numbered : ∀ stage, next? = some stage → stage.Numbered (after.version cube)

/-- What has been made is of the version to come. -/
theorem Books.not_mem_made (h : ledger.Books cube stage?) {version : Int} {before : String}
    (hle : version ≤ ledger.site.version cube) :
    snapshotTable cube version before ∉ Stage.made stage? := by
  intro hmade
  obtain ⟨-, other, hother⟩ := h.made _ hmade
  have hversion := version_eq_of_snapshotTable_eq hother
  omega

section Steady

variable (h : ledger.Books cube stage?) (hsteady : ledger.site.Steady cube after)
  (hshifts : Shifts cube ledger.site after stage? next?) {version : Int} {before : String}

theorem givenUp_steady (hsteady : ledger.site.Steady cube after) :
    ({ ledger with site := after } : Ledger).GivenUp cube version before ↔
      ledger.GivenUp cube version before := by
  simp only [GivenUp, Edition, Ledger.kept, hsteady.settings, hsteady.version]

include h hshifts

theorem Books.stocked_steady (htable : snapshotTable cube version before ∈ after.tables) :
    ledger.Edition cube version before ∨
      snapshotTable cube version before ∈ Stage.made next? := by
  rcases hshifts.gained _ ⟨version, before, rfl⟩ htable with hold | hnew
  · rcases h.stocked version before hold with hedition | hmade
    · exact .inl hedition
    · exact .inr (hshifts.stillMade _ htable hmade)
  · exact .inr hnew

theorem Books.present_steady (hedition : ledger.Edition cube version before) :
    snapshotTable cube version before ∈ after.tables ∨ ledger.GivenUp cube version before := by
  rcases h.present version before hedition with hold | hgone
  · rcases hshifts.lost _ ⟨version, before, rfl⟩ hold with hthere | hmade | hgoing
    · exact .inl hthere
    · obtain ⟨published, hpublished, -⟩ := hedition
      exact absurd hmade (h.not_mem_made ((h.entered version).1 ⟨published, hpublished⟩).2)
    · obtain ⟨other, table, hsame, hgone⟩ := h.retired _ (.inr hgoing)
      obtain rfl := version_eq_of_snapshotTable_eq hsame
      obtain rfl := snapshotTable_injective cube _ hsame
      exact .inr hgone
  · exact .inr hgone

include hsteady

theorem Books.handled_steady (htable : snapshotTable cube version before ∈ after.tables)
    (hgone : ledger.GivenUp cube version before) :
    snapshotTable cube version before ∈ ledger.site.world.engine.retiredTables cube ∨
      snapshotTable cube version before ∈ Stage.going next? := by
  rcases hshifts.gained _ ⟨version, before, rfl⟩ htable with hold | hnew
  · rcases h.handled version before hold hgone with hretired | hgoing
    · exact .inl hretired
    · exact .inr (hshifts.stillGoing _ htable hgoing)
  · -- A version that is given up is not the one to come.
    obtain ⟨-, other, hother⟩ := hshifts.made _ hnew
    have hversion := version_eq_of_snapshotTable_eq hother
    have hkept := h.kept
    have hsame := hsteady.version
    have hle := hgone.2.1
    omega

/-- As long as its version stays, the books on a cube stay in order. -/
theorem Books.steady : ({ ledger with site := after } : Ledger).Books cube next? := by
  have hkept : ({ ledger with site := after } : Ledger).kept = ledger.kept := by
    simp only [Ledger.kept, hsteady.settings]
  have hretired := hsteady.retired
  refine ⟨hkept ▸ h.kept, hsteady.version ▸ h.nonneg, ?_, h.named, hshifts.numbered,
    fun _ _ => h.stocked_steady hshifts, ?_, ?_, ?_, ?_, hshifts.made⟩
  · simp only [hsteady.version]
    exact h.entered
  · intro version before hedition
    rw [givenUp_steady hsteady]
    exact h.present_steady hshifts hedition
  · intro version before htable hgone
    rw [givenUp_steady hsteady] at hgone
    rw [hretired]
    exact h.handled_steady hsteady hshifts htable hgone
  · intro table htable
    rw [hretired] at htable
    obtain ⟨version, before, hsame, hgone⟩ :=
      h.retired table (htable.imp_right (hshifts.going table))
    exact ⟨version, before, hsame, (givenUp_steady hsteady).2 hgone⟩
  · rw [hretired]
    exact h.leased

end Steady

section Shifts

variable (h : ledger.Books cube stage?) (hsteady : ledger.site.Steady cube after)
  (hnumbered : ∀ stage, next? = some stage → stage.Numbered (after.version cube))

include h hsteady hnumbered

/-- The same snapshots are there. -/
theorem Books.shifts_of_same (htables : ledger.site.SameSnapshots cube after)
    (hmade : Stage.made next? = Stage.made stage?)
    (hgoing : Stage.going next? = Stage.going stage?) :
    Shifts cube ledger.site after stage? next? where
  gained table hname htable := .inl ((htables table hname).1 htable)
  lost table hname htable := .inl ((htables table hname).2 htable)
  stillMade table _ hold := by rwa [hmade]
  stillGoing table _ hold := by rwa [hgoing]
  made table htable := by
    rw [hmade] at htable
    obtain ⟨hthere, before, hbefore⟩ := h.made table htable
    rw [hsteady.version]
    exact ⟨(htables table ⟨_, before, hbefore⟩).2 hthere, before, hbefore⟩
  going table htable := by rwa [hgoing] at htable
  numbered := hnumbered

/-- A snapshot of the next version has been made. -/
theorem Books.shifts_of_created {built : Int} {table : String}
    (hbuilt : built = ledger.site.version cube + 1)
    (htables : after.tables = snapshotTable cube built table :: ledger.site.tables)
    (hmade : Stage.made next? = Stage.made stage? ++ [snapshotTable cube built table])
    (hgoing : Stage.going next? = Stage.going stage?) :
    Shifts cube ledger.site after stage? next? where
  gained other _ hother := by
    rw [htables] at hother
    rcases List.mem_cons.1 hother with rfl | hold
    · exact .inr (by simp [hmade])
    · exact .inl hold
  lost other _ hother := .inl (by simp [htables, hother])
  stillMade other _ hold := by simp [hmade, hold]
  stillGoing other _ hold := by rwa [hgoing]
  made other hother := by
    rw [hmade] at hother
    rw [htables, hsteady.version]
    rcases List.mem_append.1 hother with hold | hnew
    · obtain ⟨hthere, hname⟩ := h.made other hold
      exact ⟨List.mem_cons_of_mem _ hthere, hname⟩
    · obtain rfl := List.mem_singleton.1 hnew
      exact ⟨List.mem_cons_self, table, by rw [hbuilt]⟩
  going other hother := by rwa [hgoing] at hother
  numbered := hnumbered

end Shifts

/-- Tables that had been made or were about to go have been removed. -/
theorem shifts_of_removed {before after : Site} {gone : List String}
    (hgone : ∀ table ∈ gone, table ∈ Stage.made stage? ∨ table ∈ Stage.going stage?)
    (hall : ∀ table, table ∈ Stage.made stage? ∨ table ∈ Stage.going stage? → table ∈ gone)
    (htables : ∀ table, table ∈ after.tables ↔ table ∈ before.tables ∧ table ∉ gone) :
    Shifts cube before after stage? none where
  gained table _ htable := .inl ((htables table).1 htable).1
  lost table _ htable := by
    by_cases hmem : table ∈ gone
    · exact .inr (hgone table hmem)
    · exact .inl ((htables table).2 ⟨htable, hmem⟩)
  stillMade table hthere hmade := absurd (hall table (.inl hmade)) ((htables table).1 hthere).2
  stillGoing table hthere hgoing := absurd (hall table (.inr hgoing)) ((htables table).1 hthere).2
  made table htable := by cases htable
  going table htable := by cases htable
  numbered stage hstage := by cases hstage

/-- At a site that keeps to it, all tables are removed that are to be removed. -/
theorem mem_perform_of_keeps {site : Site} {index : Nat} {fault : Option Fault} {gone : List String}
    (hkeeps : site.Keeps cube (.perform index fault))
    (hwaited : site.statements index = gone.map dropStatement) (table : String) :
    table ∈ Store.perform site.tables (gone.map dropStatement) fault ↔
      table ∈ site.tables ∧ table ∉ gone := by
  cases fault with
  | none => exact Store.mem_perform_drops
  | some fault =>
      have hnone : ∀ table, table ∉ gone := by
        intro table htable
        apply hkeeps table
        rw [hwaited]
        exact List.mem_map_of_mem htable
      rw [Store.mem_perform_drops_of_not_mem _ (hnone table)]
      exact (and_iff_left (hnone table)).symm

/-- A refresh that has made all snapshots of its source publishes them as the next version. -/
structure Published (ledger : Ledger) (cube : String) (after : Site) (source : Cube)
    (created : List String) (table : String) (next? : Option Stage) : Prop where
  settings : after.world.engine.settings = ledger.site.world.engine.settings
  made : created ++ [snapshotTable cube (ledger.site.version cube + 1) table] =
    source.tables.map (snapshotTable cube (ledger.site.version cube + 1))
  reached : after.version cube = ledger.site.version cube + 1
  published : after.published cube =
    some (source.renameTables (snapshotTable cube (ledger.site.version cube + 1)))
  due : ∀ table, table ∈ after.world.engine.retiredTables cube ∨ table ∈ Stage.going next? ↔
    table ∈ ledger.site.world.engine.retiredTables cube ∨
      1 ≤ ledger.site.version cube + 1 - ledger.kept ∧ ∃ old ∈ source.tables,
        snapshotTable cube (ledger.site.version cube + 1 - ledger.kept) old = table
  held : ∀ table ∈ after.world.engine.retiredTables cube,
    ∃ lease ∈ after.world.engine.leases, table ∈ lease
  tables : after.tables =
    snapshotTable cube (ledger.site.version cube + 1) table :: ledger.site.tables
  next : next? = none ∨ ∃ idle, next? = some (.expiring (ledger.site.version cube + 1) idle)

namespace Published

variable {source : Cube} {created : List String} {table before : String} {version : Int}
  (p : ledger.Published cube after source created table next?)

include p

theorem kept_enter : (ledger.enter cube after).kept = ledger.kept := by
  simp only [Ledger.kept, enter, p.settings]

theorem editions_enter (version : Int) : (ledger.enter cube after).editions version =
    if version = ledger.site.version cube + 1
      then some (source.renameTables (snapshotTable cube (ledger.site.version cube + 1)))
      else ledger.editions version := by
  simp only [enter, p.reached, p.published]

/-- The new version is over snapshots of the tables of the source. -/
theorem edition_new (before : String) :
    (ledger.enter cube after).Edition cube (ledger.site.version cube + 1) before ↔
      before ∈ source.tables := by
  rw [Edition, p.editions_enter, if_pos rfl]
  simp only [Option.some.injEq, exists_eq_left', Cube.mem_tables_renameTables]
  rw [← List.mem_map, List.mem_map_of_injective (snapshotTable_injective cube _)]

/-- Earlier versions stay what they are. -/
theorem edition_old (hle : version ≤ ledger.site.version cube) (before : String) :
    (ledger.enter cube after).Edition cube version before ↔ ledger.Edition cube version before := by
  rw [Edition, p.editions_enter, if_neg (by omega)]
  exact Iff.rfl

/-- A version is given up once its turn has come, and stays given up. -/
theorem givenUp_iff :
    (ledger.enter cube after).GivenUp cube version before ↔ ledger.GivenUp cube version before ∨
      1 ≤ version ∧ version = ledger.site.version cube + 1 - ledger.kept ∧
      before ∈ source.tables := by
  have hreached : (ledger.enter cube after).site.version cube = ledger.site.version cube + 1 :=
    p.reached
  rw [GivenUp, GivenUp, p.kept_enter, hreached]
  by_cases hturn : version + ledger.kept = ledger.site.version cube + 1
  · rw [hturn, p.edition_new]
    constructor
    · rintro ⟨hfirst, -, hsource⟩
      exact .inr ⟨hfirst, by omega, hsource⟩
    · rintro (⟨-, hle, -⟩ | ⟨hfirst, -, hsource⟩)
      · omega
      · exact ⟨hfirst, by omega, hsource⟩
  · constructor
    · rintro ⟨hfirst, hle, hedition⟩
      have hle : version + ledger.kept ≤ ledger.site.version cube := by omega
      exact .inl ⟨hfirst, hle, (p.edition_old hle before).1 hedition⟩
    · rintro (⟨hfirst, hle, hedition⟩ | ⟨-, hversion, -⟩)
      · exact ⟨hfirst, by omega, (p.edition_old hle before).2 hedition⟩
      · omega

/-- A table is a snapshot of the new version just if it had been made or is the last one to be
made. -/
theorem mem_made_iff : snapshotTable cube version before ∈ created ∨
      snapshotTable cube version before = snapshotTable cube (ledger.site.version cube + 1) table ↔
    version = ledger.site.version cube + 1 ∧ before ∈ source.tables := by
  rw [← List.mem_singleton, ← List.mem_append, p.made, List.mem_map]
  constructor
  · rintro ⟨other, hother, hsame⟩
    obtain rfl := version_eq_of_snapshotTable_eq hsame
    obtain rfl := snapshotTable_injective cube _ hsame
    exact ⟨rfl, hother⟩
  · rintro ⟨rfl, hbefore⟩
    exact ⟨before, hbefore, rfl⟩

variable (h : ledger.Books cube
  (some (.creating source (ledger.site.version cube + 1) created table [])))

include h

theorem stocked (hmem : snapshotTable cube version before ∈ after.tables) :
    (ledger.enter cube after).Edition cube version before := by
  have hmade : snapshotTable cube version before ∈ created ∨
      snapshotTable cube version before = snapshotTable cube (ledger.site.version cube + 1) table →
        (ledger.enter cube after).Edition cube version before := by
    rw [p.mem_made_iff]
    rintro ⟨rfl, hsource⟩
    exact (p.edition_new before).2 hsource
  rw [p.tables] at hmem
  rcases List.mem_cons.1 hmem with hlast | hold
  · exact hmade (.inr hlast)
  · rcases h.stocked version before hold with hedition | hcreated
    · obtain ⟨published, hpublished, -⟩ := id hedition
      exact (p.edition_old ((h.entered version).1 ⟨published, hpublished⟩).2 before).2 hedition
    · exact hmade (.inl hcreated)

theorem present (hedition : (ledger.enter cube after).Edition cube version before) :
    snapshotTable cube version before ∈ after.tables ∨
      (ledger.enter cube after).GivenUp cube version before := by
  rw [p.tables, List.mem_cons]
  by_cases hversion : version = ledger.site.version cube + 1
  · subst hversion
    have hmade := p.mem_made_iff.2 ⟨rfl, (p.edition_new before).1 hedition⟩
    exact .inl (hmade.symm.imp_right fun hcreated => (h.made _ hcreated).1)
  · rw [Edition, p.editions_enter, if_neg hversion] at hedition
    rcases h.present version before hedition with hthere | hgone
    · exact .inl (.inr hthere)
    · exact .inr (p.givenUp_iff.2 (.inl hgone))

theorem handled (hmem : snapshotTable cube version before ∈ after.tables)
    (hgone : (ledger.enter cube after).GivenUp cube version before) :
    snapshotTable cube version before ∈ after.world.engine.retiredTables cube ∨
      snapshotTable cube version before ∈ Stage.going next? := by
  rw [p.due]
  rcases p.givenUp_iff.1 hgone with hold | ⟨hfirst, rfl, hsource⟩
  · have hkept := h.kept
    have hle := hold.2.1
    rw [p.tables] at hmem
    rcases List.mem_cons.1 hmem with hlast | hthere
    · have hversion := version_eq_of_snapshotTable_eq hlast
      omega
    · rcases h.handled version before hthere hold with hretired | hgoing
      · exact .inl hretired
      · cases hgoing
  · exact .inr ⟨hfirst, before, hsource, rfl⟩

theorem retired {removed : String}
    (hmem : removed ∈ after.world.engine.retiredTables cube ∨ removed ∈ Stage.going next?) :
    ∃ version before, snapshotTable cube version before = removed ∧
      (ledger.enter cube after).GivenUp cube version before := by
  rcases (p.due removed).1 hmem with hretired | ⟨hfirst, old, hold, rfl⟩
  · obtain ⟨version, before, hsame, hgone⟩ := h.retired removed (.inl hretired)
    exact ⟨version, before, hsame, p.givenUp_iff.2 (.inl hgone)⟩
  · exact ⟨_, old, rfl, p.givenUp_iff.2 (.inr ⟨hfirst, rfl, hold⟩)⟩

theorem named {published : Cube}
    (hpublished : (ledger.enter cube after).editions version = some published) :
    ∀ table ∈ published.tables, ∃ before, snapshotTable cube version before = table := by
  intro table htable
  rw [p.editions_enter] at hpublished
  split at hpublished
  · next hversion =>
      obtain rfl := Option.some.inj hpublished
      obtain ⟨before, -, hbefore⟩ := Cube.mem_tables_renameTables.1 htable
      exact ⟨before, by rw [hversion, hbefore]⟩
  · exact h.named version published hpublished table htable

theorem entered (version : Int) :
    (∃ published, (ledger.enter cube after).editions version = some published) ↔
      1 ≤ version ∧ version ≤ ledger.site.version cube + 1 := by
  have hnonneg := h.nonneg
  rw [p.editions_enter]
  split
  · next hversion =>
      simp only [Option.some.injEq, exists_eq', true_iff]
      omega
  · rw [h.entered]
    omega

/-- A publication is entered into the books, and they stay in order. -/
theorem books : (ledger.enter cube after).Books cube next? := by
  have hnonneg := h.nonneg
  have hreached : (ledger.enter cube after).site.version cube = ledger.site.version cube + 1 :=
    p.reached
  refine ⟨?_, ?_, ?_, fun _ _ => p.named h, ?_, fun _ _ hmem => .inl (p.stocked h hmem),
    fun _ _ => p.present h, fun _ _ => p.handled h, fun _ => p.retired h, p.held, ?_⟩
  · rw [p.kept_enter]
    exact h.kept
  · omega
  · rw [hreached]
    exact p.entered h
  · intro stage hstage
    rw [hreached]
    rcases p.next with rfl | ⟨idle, rfl⟩
    · cases hstage
    · obtain rfl := Option.some.inj hstage
      rfl
  · intro table htable
    rcases p.next with rfl | ⟨idle, rfl⟩ <;> cases htable

end Published

/-- A refresh that fails leaves the books in order. -/
theorem Books.failed {task : Nat} {fault : Option Fault} {source : Cube} {built : Int}
    {created rest : List String} {table : String}
    (h : ledger.Books cube (some (.creating source built created table rest)))
    (steady : ledger.site.Steady cube (ledger.site.next (.perform task fault)))
    (tables : Stage.made next? = created ∧
        (ledger.site.next (.perform task fault)).tables = ledger.site.tables ∨
      Stage.made next? = created ++ [snapshotTable cube built table] ∧
        (ledger.site.next (.perform task fault)).tables =
          snapshotTable cube built table :: ledger.site.tables)
    (next : next? = none ∨ ∃ made failure, next? = some (.cleaning built made failure)) :
    (ledger.next cube (.perform task fault)).Books cube next? := by
  have hbuilt : built = ledger.site.version cube + 1 := h.numbered _ rfl
  have hgoing : Stage.going next? = [] := by
    rcases next with rfl | ⟨made, failure, rfl⟩ <;> rfl
  have hnumbered : ∀ stage, next? = some stage →
      stage.Numbered ((ledger.site.next (.perform task fault)).version cube) := by
    rcases next with rfl | ⟨made, failure, rfl⟩
    · intro stage hstage
      cases hstage
    · intro stage hstage
      obtain rfl := Option.some.inj hstage
      trivial
  rw [next_of_steady steady]
  apply h.steady steady
  rcases tables with ⟨hmade, htables⟩ | ⟨hmade, htables⟩
  · exact h.shifts_of_same steady hnumbered (fun table _ => by rw [htables]) hmade hgoing
  · exact h.shifts_of_created steady hnumbered hbuilt htables hmade hgoing

/-- So does the removal of all that had been made or was about to go. -/
theorem Books.removed {task : Nat} {fault : Option Fault} {gone : List String}
    (h : ledger.Books cube stage?)
    (hgone : ∀ table, table ∈ gone ↔ table ∈ Stage.made stage? ∨ table ∈ Stage.going stage?)
    (steady : ledger.site.Steady cube (ledger.site.next (.perform task fault)))
    (waited : ledger.site.statements task = gone.map dropStatement)
    (tables : (ledger.site.next (.perform task fault)).tables =
      Store.perform ledger.site.tables (gone.map dropStatement) fault)
    (hkeeps : ledger.site.Keeps cube (.perform task fault)) :
    (ledger.next cube (.perform task fault)).Books cube none := by
  rw [next_of_steady steady]
  apply h.steady steady
  apply shifts_of_removed (fun table => (hgone table).1) (fun table => (hgone table).2)
  rw [tables]
  exact mem_perform_of_keeps hkeeps waited

/-- Each step for the cube keeps the books in order. -/
theorem Books.next (h : ledger.Books cube stage?)
    (hsteps : Site.Steps cube ledger.site (ledger.site.next act) act stage? next?)
    (hkeeps : ledger.site.Keeps cube act) : (ledger.next cube act).Books cube next? := by
  cases hsteps with
  | passes act stage? steady tables =>
      have hnumbered : ∀ stage, stage? = some stage →
          stage.Numbered ((ledger.site.next act).version cube) := by
        rw [steady.version]
        exact h.numbered
      rw [next_of_steady steady]
      exact h.steady steady (h.shifts_of_same steady hnumbered tables rfl rfl)
  | forgets context stage? registered settings retired zero tables => exact absurd rfl hkeeps
  | enters act source steady tables =>
      rw [next_of_steady steady]
      refine h.steady steady (h.shifts_of_same steady (fun stage hstage => ?_) tables rfl rfl)
      obtain rfl := Option.some.inj hstage
      rw [steady.version]
      rfl
  | creates task source built created table next rest steady tables =>
      have hbuilt : built = ledger.site.version cube + 1 := h.numbered _ rfl
      rw [next_of_steady steady]
      refine h.steady steady
        (h.shifts_of_created steady (fun stage hstage => ?_) hbuilt tables rfl rfl)
      obtain rfl := Option.some.inj hstage
      rw [steady.version]
      exact hbuilt
  | fails task fault source built created table rest next? steady tables next =>
      exact h.failed steady tables next
  | publishes task source built created table next? settings made later reached published due held
      tables next =>
      obtain rfl : built = ledger.site.version cube + 1 := h.numbered _ rfl
      have hnext : ledger.next cube (.perform task none) =
          ledger.enter cube (ledger.site.next (.perform task none)) := by
        simp only [Ledger.next, reached, if_pos later]
      rw [settings] at due
      rw [hnext]
      exact Published.books ⟨settings, made, reached, published, due, held, tables, next⟩ h
  | cleans task fault built created failure steady waited tables =>
      exact h.removed (by simp [Stage.made, Stage.going]) steady waited tables hkeeps
  | expires task fault built idle steady waited tables =>
      exact h.removed (by simp [Stage.made, Stage.going]) steady waited tables hkeeps

/-- The books on a cube are in order at a site where the cube is tended. -/
structure Balanced (ledger : Ledger) (cube : String) : Prop where
  tended : ledger.site.Tended cube
  books : ∃ stage?, ledger.site.world.At cube stage? ∧ ledger.Books cube stage?

/-- New books are in order if the store has no snapshot of the cube. -/
theorem balanced_opened {settings : Settings} {tables : List String}
    (hkept : Settings.leastKeptVersions ≤ settings.refreshKeepVersions)
    (hnew : ∀ table ∈ tables, ¬ IsSnapshot cube table) :
    (opened (.fresh settings tables)).Balanced cube := by
  have hversion : (opened (.fresh settings tables)).site.version cube = 0 := rfl
  have hat : (opened (.fresh settings tables)).site.world.At cube none := by
    simp [World.At, opened, Site.fresh, World.fresh]
  have hretired : (opened (.fresh settings tables)).site.world.engine.retiredTables cube = [] := rfl
  refine ⟨Site.tended_fresh settings tables cube, none, hat, ?_, ?_, ?_, ?_, ?_, ?_, ?_, ?_, ?_, ?_,
    ?_⟩
  · exact Int.lt_of_lt_of_le (by decide) hkept
  · rw [hversion]
  · intro version
    rw [hversion]
    simp only [opened, reduceCtorEq, exists_false, false_iff]
    omega
  · intro version published hpublished
    cases hpublished
  · intro stage hstage
    cases hstage
  · intro version before hmem
    exact absurd ⟨version, before, rfl⟩ (hnew _ hmem)
  · rintro version before ⟨published, hpublished, -⟩
    cases hpublished
  · rintro version before - ⟨-, -, published, hpublished, -⟩
    cases hpublished
  · rw [hretired]
    rintro table (hmem | hmem) <;> cases hmem
  · rw [hretired]
    intro table hmem
    cases hmem
  · intro table hmem
    cases hmem

theorem Balanced.next (h : ledger.Balanced cube) (hkeeps : ledger.site.Keeps cube act) :
    (ledger.next cube act).Balanced cube := by
  obtain ⟨stage?, hat, hbooks⟩ := h.books
  obtain ⟨next?, hnext, hsteps⟩ := h.tended.steps hat act
  refine ⟨?_, next?, ?_, hbooks.next hsteps hkeeps⟩ <;> rw [site_next]
  · exact h.tended.next hkeeps.callsApart
  · exact hnext

theorem Balanced.run (h : ledger.Balanced cube) {acts : List Act}
    (hkeeps : ledger.site.Throughout (Site.Keeps cube) acts) :
    (ledger.run cube acts).Balanced cube := by
  induction acts generalizing ledger with
  | nil => exact h
  | cons act rest ih =>
      obtain ⟨hfirst, hrest⟩ := hkeeps
      apply ih (h.next hfirst)
      rw [site_next]
      exact hrest

theorem site_run (cube : String) (ledger : Ledger) (acts : List Act) :
    (ledger.run cube acts).site = ledger.site.run acts := by
  induction acts generalizing ledger with
  | nil => rfl
  | cons act rest ih => exact (ih (ledger.next cube act)).trans (by rw [site_next]; rfl)

/-- Every snapshot of a version that is no longer kept has been removed, or it is retired and was
leased when it was last looked at. -/
def Cleared (ledger : Ledger) (cube : String) (current : Int) : Prop :=
  ∀ version before, version + ledger.kept ≤ current →
    snapshotTable cube version before ∈ ledger.site.tables →
      snapshotTable cube version before ∈ ledger.site.world.engine.retiredTables cube ∧
        ∃ lease ∈ ledger.examined, snapshotTable cube version before ∈ lease

/-- The tables of all published versions that are kept are there. -/
def Intact (ledger : Ledger) (current : Int) : Prop :=
  ∀ version published, current < version + ledger.kept → ledger.editions version = some published →
    ∀ table ∈ published.tables, table ∈ ledger.site.tables

/-- Each table of which a version that is no longer kept has a snapshot is one of which the version
has a snapshot that took its place. -/
def Continued (ledger : Ledger) (cube : String) (current : Int) : Prop :=
  ∀ version before, version + ledger.kept ≤ current → ledger.Edition cube version before →
    ledger.Edition cube (version + ledger.kept) before

/-- While no refresh of the cube has its turn, what is no longer kept is cleared away just if no
table was given up. -/
theorem Books.cleared_iff_continued (h : ledger.Books cube none) :
    ledger.Cleared cube (ledger.site.version cube) ↔
      ledger.Continued cube (ledger.site.version cube) := by
  have hfirst : ∀ version before, ledger.Edition cube version before → 1 ≤ version := by
    rintro version before ⟨published, hpublished, -⟩
    exact ((h.entered version).1 ⟨published, hpublished⟩).1
  constructor
  · intro hcleared version before hold hedition
    rcases h.present version before hedition with hthere | hgone
    · obtain ⟨other, table, hsame, hgone⟩ :=
        h.retired _ (.inl (hcleared version before hold hthere).1)
      obtain rfl := version_eq_of_snapshotTable_eq hsame
      obtain rfl := snapshotTable_injective cube _ hsame
      exact hgone.2.2
    · exact hgone.2.2
  · intro hcontinued version before hold hthere
    have hedition : ledger.Edition cube version before := by
      rcases h.stocked version before hthere with hedition | hmade
      · exact hedition
      · cases hmade
    have hgone : ledger.GivenUp cube version before :=
      ⟨hfirst version before hedition, hold, hcontinued version before hold hedition⟩
    rcases h.handled version before hthere hgone with hretired | hgoing
    · exact ⟨hretired, h.leased _ hretired⟩
    · cases hgoing

theorem Books.intact (h : ledger.Books cube stage?) : ledger.Intact (ledger.site.version cube) := by
  intro version published hkept hpublished table htable
  obtain ⟨before, rfl⟩ := h.named version published hpublished table htable
  rcases h.present version before ⟨published, hpublished, htable⟩ with hthere | hgone
  · exact hthere
  · have hle := hgone.2.1
    omega

/-- A refresh that ends well leaves books in order in which its version is the last one. -/
theorem Balanced.of_ends (h : ledger.Balanced cube) (hkeeps : ledger.site.Keeps cube act)
    {version : Int} (hends : ledger.site.completed? act = some (cube, version)) :
    (ledger.next cube act).Books cube none ∧
      (ledger.next cube act).site.version cube = version := by
  obtain ⟨stage?, hat, hbooks⟩ := h.books
  obtain ⟨next?, hnext, hsteps⟩ := h.tended.steps hat act
  obtain ⟨hnone, hversion⟩ := h.tended.of_ends hat hends
  obtain rfl := hnext.eq_none hnone
  refine ⟨hbooks.next hsteps hkeeps, ?_⟩
  rw [site_next]
  rcases hversion with hversion | ⟨⟨idle, rfl⟩, hsame⟩
  · exact hversion
  · rw [hsame]
    exact (hbooks.numbered _ rfl).symm

/-- In every run of a new engine over a store without snapshots of the cube that never unregisters
it and in which removals succeed: once a refresh has published a version and is over, all snapshots
of versions that are no longer kept are cleared away just if each of their tables was still one of
the cube's when their turn came. No snapshot of a version that is kept has been removed. -/
theorem cleared_iff (settings : Settings) (tables : List String) (cube : String) (acts : List Act)
    (act : Act) (version : Int) (hkept : Settings.leastKeptVersions ≤ settings.refreshKeepVersions)
    (hnew : ∀ table ∈ tables, ¬ IsSnapshot cube table)
    (hkeeps : (Site.fresh settings tables).Throughout (Site.Keeps cube) (acts ++ [act]))
    (hends : ((Site.fresh settings tables).run acts).completed? act = some (cube, version)) :
    (((opened (.fresh settings tables)).run cube (acts ++ [act])).Cleared cube version ↔
      ((opened (.fresh settings tables)).run cube (acts ++ [act])).Continued cube version) ∧
    ((opened (.fresh settings tables)).run cube (acts ++ [act])).Intact version := by
  obtain ⟨hbefore, hlast⟩ := Site.throughout_append_singleton.1 hkeeps
  have hsite := site_run cube (opened (.fresh settings tables)) acts
  have hbalanced := (balanced_opened hkept hnew).run hbefore
  have hrun : (opened (.fresh settings tables)).run cube (acts ++ [act]) =
      ((opened (.fresh settings tables)).run cube acts).next cube act := by
    simp [run, List.foldl_append]
  obtain ⟨hbooks, rfl⟩ :=
    hbalanced.of_ends (by rw [hsite]; exact hlast) (by rw [hsite]; exact hends)
  rw [hrun]
  exact ⟨hbooks.cleared_iff_continued, hbooks.intact⟩

/-- A cube is refreshed three times, once more in vain, while a lease is held on its first
version. -/
def leasedMeanwhile : List Act :=
  [.call (.register (.ofFacts "sales" "facts") false) .empty,
   .call (.refresh "sales") .empty, .perform 1 none,
   .lease ["facts__sales_v1"],
   .call (.refresh "sales") .empty, .perform 2 none,
   .call (.refresh "sales") .empty, .perform 3 (some ⟨0, .store (.timeout "")⟩),
   .call (.refresh "sales") .empty]

theorem cleared_iff_leasedMeanwhile :
    Settings.leastKeptVersions ≤ Settings.standard.refreshKeepVersions ∧
      (∀ table ∈ ["facts"], ¬ IsSnapshot "sales" table) ∧
      (Site.fresh .standard ["facts"]).Throughout (Site.Keeps "sales")
        (leasedMeanwhile ++ [.perform 4 none]) ∧
      ((Site.fresh .standard ["facts"]).run leasedMeanwhile).completed? (.perform 4 none) =
        some ("sales", 3) ∧
      (((opened (.fresh .standard ["facts"])).run "sales"
            (leasedMeanwhile ++ [.perform 4 none])).Cleared "sales" 3 ↔
          ((opened (.fresh .standard ["facts"])).run "sales"
            (leasedMeanwhile ++ [.perform 4 none])).Continued "sales" 3) ∧
        ((opened (.fresh .standard ["facts"])).run "sales"
          (leasedMeanwhile ++ [.perform 4 none])).Intact 3 := by
  have hkept : Settings.leastKeptVersions ≤ Settings.standard.refreshKeepVersions := by decide
  have hnew : ∀ table ∈ ["facts"], ¬ IsSnapshot "sales" table := by
    rw [List.forall_mem_singleton]
    exact not_isSnapshot_of_not_mem (by decide)
  have hkeeps : (Site.fresh .standard ["facts"]).Throughout (Site.Keeps "sales")
      (leasedMeanwhile ++ [.perform 4 none]) := by
    refine ⟨trivial, .inl rfl, trivial, trivial, .inl rfl, trivial, .inl rfl, ?_, .inl rfl, trivial,
      trivial⟩
    have hwaits : ((Site.fresh .standard ["facts"]).run (leasedMeanwhile.take 7)).statements 3 =
        [createStatement "facts__sales_v3" "facts"] := by decide +kernel
    intro table htable
    have hcreate := hwaits ▸ htable
    exact dropStatement_ne_createStatement _ _ _ (List.mem_singleton.1 hcreate)
  have hends : ((Site.fresh .standard ["facts"]).run leasedMeanwhile).completed? (.perform 4 none) =
      some ("sales", 3) := by decide +kernel
  exact ⟨hkept, hnew, hkeeps, hends, cleared_iff _ _ _ _ _ _ hkept hnew hkeeps hends⟩

/-- A cube is registered anew over other facts after its first version. -/
def replacedMeanwhile : List Act :=
  [.call (.register (.ofFacts "sales" "facts") false) .empty,
   .call (.refresh "sales") .empty, .perform 1 none,
   .call (.register (.ofFacts "sales" "new_facts") true) .empty,
   .call (.refresh "sales") .empty, .perform 3 none,
   .call (.refresh "sales") .empty, .perform 4 none]

/-- The snapshot of the former facts stays, and no refresh will ever remove it. -/
theorem exists_not_cleared :
    ¬ ∀ (settings : Settings) (tables : List String) (cube : String) (acts : List Act) (act : Act)
      (version : Int), Settings.leastKeptVersions ≤ settings.refreshKeepVersions →
      (∀ table ∈ tables, ¬ IsSnapshot cube table) →
      (Site.fresh settings tables).Throughout (Site.Keeps cube) (acts ++ [act]) →
      ((Site.fresh settings tables).run acts).completed? act = some (cube, version) →
      ((opened (.fresh settings tables)).run cube (acts ++ [act])).Cleared cube version ∧
        ((opened (.fresh settings tables)).run cube (acts ++ [act])).Intact version := by
  intro h
  have hkeeps : (Site.fresh .standard []).Throughout (Site.Keeps "sales")
      (replacedMeanwhile ++ [.perform 4 none]) :=
    ⟨trivial, .inl rfl, trivial, trivial, .inl rfl, trivial, .inl rfl, trivial, trivial, trivial⟩
  obtain ⟨hcleared, -⟩ := h .standard [] "sales" replacedMeanwhile (.perform 4 none) 3 (by decide)
    (by simp) hkeeps (by decide +kernel)
  obtain ⟨hretired, -⟩ := hcleared 1 "facts" (by decide +kernel) (by decide +kernel)
  exact absurd hretired (by decide +kernel)

end Ledger

end StarCube
