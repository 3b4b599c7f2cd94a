import StarCube.Proofs.Engine.Definitions
import StarCube.Proofs.Engine.Exchanges
import StarCube.Proofs.Engine.Stage

/-!
Refreshes that fail. What a refresh does from its call to its end is told leg by leg, whatever the
others make of the engine between two legs and whatever the store answers. A refresh that fails has
removed just the snapshots that it has created, and has changed nothing that is kept in the engine.
-/

namespace StarCube

namespace Refresh

variable {cube : String} {source : Cube} {version : Int}

/-- Snapshots of tables are asked for one after the other, and each is created. -/
def creations (cube : String) (version : Int) (tables : List String) : List Exchange :=
  tables.map fun table =>
    .execute [createStatement (snapshotTable cube version table) table] (.ok ())

/-- Tables are removed at once, in their order; nothing is asked for where there are none. -/
def removal (tables : List String) (answer : Except Failure Unit) : List Exchange :=
  if tables.isEmpty then [] else [.execute (tables.map dropStatement) answer]

/-- A refresh has been called when its cube was registered, which gives it its source. -/
def Called (cube : String) (source : Cube) (legs : List Leg) : Prop :=
  ∃ leg entry, legs.head? = some leg ∧ leg.found.catalog.entry? cube = some entry ∧
    entry.source = source

/-- A refresh has its turn from the last of some legs on, where its cube is registered, which gives
it its version. -/
structure Begun (cube : String) (source : Cube) (version : Int) (legs : List Leg) : Prop where
  called : Called cube source legs
  turn : ∃ leg entry, legs.getLast? = some leg ∧ leg.found.catalog.entry? cube = some entry ∧
    version = entry.version + 1

/-- The names of tables may be written, and those of their snapshots. -/
def Named (cube : String) (version : Int) (tables : List String) : Prop :=
  ∀ table ∈ tables, Acceptable table ∧ Acceptable (snapshotTable cube version table)

/-- What prevents a refresh that has begun from publishing: the legs it has gone since, the tables
of which it has created snapshots, its exchanges, and the cause. -/
inductive Hindered (cube : String) (source : Cube) (version : Int) :
    List Leg → List String → List Exchange → Failure → Prop
  | misnamed {front back : List String} {table : String} {cause : Failure}
      (tables : source.tables = front ++ table :: back) (named : Named cube version front)
      (refused : requireIdentifier "table name" table = .error cause ∨ Acceptable table ∧
        requireIdentifier "snapshot table name" (snapshotTable cube version table) = .error cause) :
      Hindered cube source version [] [] [] cause
  | refused {legs : List Leg} {front back : List String} {table : String} (cause : Failure)
      (named : Named cube version source.tables) (tables : source.tables = front ++ table :: back)
      (length : legs.length = front.length + 1) :
      Hindered cube source version legs front
        (creations cube version front ++
          [.execute [createStatement (snapshotTable cube version table) table] (.error cause)])
        cause
  | unpublished {legs : List Leg} (leg : Leg) {cause : Failure}
      (named : Named cube version source.tables) (length : legs.length + 1 = source.tables.length)
      (published : leg.found.catalog.publish cube (source.renameTables (snapshotTable cube version))
        version = .error cause) :
      Hindered cube source version (legs ++ [leg]) source.tables
        (creations cube version source.tables) cause

/-- How a refresh comes to its end: the legs it has gone, its exchanges, and what it gives. -/
inductive Ending (cube : String) : List Leg → List Exchange → Except Failure Int → Prop
  | unregistered {legs : List Leg} {leg : Leg} (keeps : ∀ each ∈ legs ++ [leg], each.Keeps)
      (missing : leg.found.catalog.entry? cube = none) :
      Ending cube (legs ++ [leg]) [] (.error (.reference (.unknownCube cube)))
  | failed {source : Cube} {version : Int} {before since : List Leg} {tables : List String}
      {exchanges : List Exchange} {cause : Failure} (after : List Leg)
      (answer : Except Failure Unit)
      (begun : Begun cube source version before)
      (hindered : Hindered cube source version since tables exchanges cause)
      (keeps : ∀ leg ∈ before ++ since ++ after, leg.Keeps) :
      Ending cube (before ++ since ++ after)
        (exchanges ++ removal (tables.map (snapshotTable cube version)) answer)
        (.error (.refresh cube cause))
  | succeeded {source : Cube} {version : Int} {before since : List Leg} (leg : Leg)
      (after : List Leg)
      {catalog : Catalog} (idle : List String) (answer : Except Failure Unit)
      (begun : Begun cube source version before) (named : Named cube version source.tables)
      (length : since.length + 1 = source.tables.length)
      (published : leg.found.catalog.publish cube (source.renameTables (snapshotTable cube version))
        version = .ok catalog)
      (left : leg.left.catalog = catalog) (rest : after.length = (removal idle answer).length)
      (keeps : ∀ leg ∈ after, leg.Keeps) :
      Ending cube (before ++ (since ++ leg :: after))
        (creations cube version source.tables ++ removal idle answer) (.ok version)

/-- What a refresh at a stage has done up to there. -/
inductive Account (cube : String) : Stage → List Leg → List Exchange → Prop
  | waiting {source : Cube} {legs : List Leg} (called : Called cube source legs)
      (keeps : ∀ leg ∈ legs, leg.Keeps) : Account cube (.waiting source) legs []
  | creating {source : Cube} {version : Int} {before since : List Leg} {front rest : List String}
      {table : String} (begun : Begun cube source version before)
      (named : Named cube version source.tables) (tables : source.tables = front ++ table :: rest)
      (length : since.length = front.length)
      (keeps : ∀ leg ∈ before ++ since, leg.Keeps) :
      Account cube (.creating source version (front.map (snapshotTable cube version)) table rest)
        (before ++ since) (creations cube version front)
  | cleaning {source : Cube} {version : Int} {before since : List Leg} {tables : List String}
      {exchanges : List Exchange} {cause : Failure} (begun : Begun cube source version before)
      (hindered : Hindered cube source version since tables exchanges cause) (some : tables ≠ [])
      (keeps : ∀ leg ∈ before ++ since, leg.Keeps) :
      Account cube (.cleaning version (tables.map (snapshotTable cube version)) cause)
        (before ++ since) exchanges
  | expiring {source : Cube} {version : Int} {before since : List Leg} (leg : Leg)
      {catalog : Catalog}
      {idle : List String} (begun : Begun cube source version before)
      (named : Named cube version source.tables) (length : since.length + 1 = source.tables.length)
      (published : leg.found.catalog.publish cube (source.renameTables (snapshotTable cube version))
        version = .ok catalog)
      (left : leg.left.catalog = catalog) (some : idle ≠ []) :
      Account cube (.expiring version idle) (before ++ (since ++ [leg]))
        (creations cube version source.tables)
  | ended {legs : List Leg} {exchanges : List Exchange} {outcome : Except Failure Int}
      (ending : Ending cube legs exchanges outcome) : Account cube (.ended outcome) legs exchanges

theorem Called.append {legs : List Leg} (h : Called cube source legs) (more : List Leg) :
    Called cube source (legs ++ more) := by
  obtain ⟨leg, entry, hleg, hentry⟩ := h
  exact ⟨leg, entry, by rw [List.head?_append, hleg]; rfl, hentry⟩

theorem keeps_self (engine : Engine) : (Leg.mk engine engine).Keeps :=
  ⟨engine.locks, rfl⟩

theorem keeps_locked (engine : Engine) (cube : String) :
    (Leg.mk engine (engine.locked cube)).Keeps :=
  ⟨cube :: engine.locks, rfl⟩

theorem keeps_unlocked (engine : Engine) (cube : String) :
    (Leg.mk engine (engine.unlocked cube)).Keeps :=
  ⟨engine.locks.erase cube, rfl⟩

theorem keeps_append {legs : List Leg} (h : ∀ leg ∈ legs, leg.Keeps) {leg : Leg}
    (hleg : leg.Keeps) : ∀ each ∈ legs ++ [leg], each.Keeps := by
  intro each heach
  rcases List.mem_append.1 heach with hlegs | hlast
  · exact h each hlegs
  · obtain rfl := List.mem_singleton.1 hlast
    exact hleg

theorem creations_append (cube : String) (version : Int) (tables : List String) (table : String) :
    creations cube version (tables ++ [table]) = creations cube version tables ++
      [.execute [createStatement (snapshotTable cube version table) table] (.ok ())] := by
  simp [creations]

theorem keeps_rollBack (cube : String) (engine : Engine) (version : Int) (created : List String)
    (failure : Failure) :
    (Leg.mk engine (Stage.rollBack cube engine version created failure).1).Keeps := by
  unfold Stage.rollBack
  split
  · exact keeps_unlocked engine cube
  · exact keeps_self engine

@[simp] theorem removal_nil (answer : Except Failure Unit) : removal [] answer = [] := rfl

theorem removal_of_ne_nil {tables : List String} (h : tables ≠ []) (answer : Except Failure Unit) :
    removal tables answer = [.execute (tables.map dropStatement) answer] :=
  if_neg (by simpa using h)

/-- A refresh that is prevented from publishing ends at once if it has created nothing, and else
waits for the removal of what it has created. -/
theorem account_rollBack {engine : Engine} {before since : List Leg} {tables : List String}
    {exchanges : List Exchange} {cause : Failure} {next : Engine × Stage}
    (hnext : next = Stage.rollBack cube engine version (tables.map (snapshotTable cube version))
      cause)
    (begun : Begun cube source version before)
    (hindered : Hindered cube source version (since ++ [⟨engine, next.1⟩]) tables exchanges cause)
    (keeps : ∀ leg ∈ before ++ since, leg.Keeps) :
    Account cube next.2 (before ++ (since ++ [⟨engine, next.1⟩])) exchanges := by
  have hkeeps : ∀ leg ∈ before ++ (since ++ [⟨engine, next.1⟩]), leg.Keeps := by
    rw [← List.append_assoc]
    refine keeps_append keeps ?_
    rw [hnext]
    exact keeps_rollBack ..
  subst hnext
  cases tables with
  | nil =>
      have hending := Ending.failed [] (.ok ()) begun hindered (by simpa using hkeeps)
      exact .ended (by simpa using hending)
  | cons first rest => exact .cleaning begun hindered (by simp) hkeeps

/-- A refresh that has created all snapshots publishes, or is prevented from it. -/
theorem account_publish {engine : Engine} {before since : List Leg} {next : Engine × Stage}
    (hnext : next =
      Stage.publish cube engine source version (source.tables.map (snapshotTable cube version)))
    (begun : Begun cube source version before) (named : Named cube version source.tables)
    (length : since.length + 1 = source.tables.length)
    (keeps : ∀ leg ∈ before ++ since, leg.Keeps) :
    Account cube next.2 (before ++ (since ++ [⟨engine, next.1⟩]))
      (creations cube version source.tables) := by
  unfold Stage.publish at hnext
  split at hnext
  · next failure hpublish =>
      exact account_rollBack hnext begun (.unpublished ⟨engine, next.1⟩ named length hpublish) keeps
  · next catalog hpublish =>
      simp only [Stage.expire] at hnext
      split at hnext
      · next hempty =>
          have hleft : next.1.catalog = catalog := by rw [hnext]; rfl
          have hstage : next.2 = .ended (.ok version) := by rw [hnext]
          have hending :=
            Ending.succeeded ⟨engine, next.1⟩ [] [] (.ok ()) begun named length hpublish
            hleft rfl (by simp)
          rw [hstage]
          exact .ended (by simpa using hending)
      · next hsome =>
          have hleft : next.1.catalog = catalog := by rw [hnext]; rfl
          have hexpiring := Account.expiring ⟨engine, next.1⟩ begun named length hpublish hleft
            (by simpa using hsome)
          rw [hnext] at hexpiring ⊢
          exact hexpiring

/-- A refresh that is called, or whose turn may have come. -/
theorem account_ask {engine : Engine} {legs : List Leg} {next : Engine × Stage}
    (hnext : next = Stage.ask cube engine source)
    (called : Called cube source (legs ++ [⟨engine, next.1⟩]))
    (keeps : ∀ leg ∈ legs, leg.Keeps) :
    Account cube next.2 (legs ++ [⟨engine, next.1⟩]) [] := by
  simp only [Stage.ask, Stage.enter] at hnext
  split at hnext
  · subst hnext
    exact .waiting called (keeps_append keeps (keeps_self engine))
  · split at hnext
    · next failure hentry =>
        subst hnext
        obtain ⟨hmissing, rfl⟩ := Catalog.entry_eq_error_iff.1 hentry
        exact .ended (.unregistered (keeps_append keeps (keeps_self engine)) hmissing)
    · next current hentry =>
        have hbegun : Begun cube source (current.version + 1) (legs ++ [⟨engine, next.1⟩]) := {
          called := called
          turn := ⟨_, current, List.getLast?_concat, Catalog.entry_eq_ok_iff.1 hentry, rfl⟩ }
        split at hnext
        · next failure hcheck =>
            subst hnext
            obtain ⟨front, table, back, htables, hnamed, hrefused⟩ :=
              Procedure.checkSnapshots_eq_error_iff.1 hcheck
            have hending := Ending.failed [] (.ok ()) hbegun (.misnamed htables hnamed hrefused)
              (by simpa using keeps_append keeps (keeps_self engine))
            exact .ended (by simpa using hending)
        · next hcheck =>
            subst hnext
            have haccount : Account cube (.creating source (current.version + 1)
                (List.map _ []) _ _) (legs ++ [⟨engine, engine.locked cube⟩] ++ [])
                (creations _ _ []) :=
              .creating hbegun (Procedure.checkSnapshots_eq_ok_iff.1 hcheck)
                source.tables_eq_cons rfl
                (by simpa using keeps_append keeps (keeps_locked engine cube))
            simpa [creations] using haccount

/-- A refresh that is called. -/
theorem account_start {engine : Engine} {next : Engine × Stage}
    (hnext : next = Stage.start cube engine) : Account cube next.2 [⟨engine, next.1⟩] [] := by
  unfold Stage.start at hnext
  split at hnext
  · next failure hentry =>
      subst hnext
      obtain ⟨hmissing, rfl⟩ := Catalog.entry_eq_error_iff.1 hentry
      have hending : Ending cube ([] ++ [⟨engine, engine⟩]) [] _ :=
        .unregistered (by simpa using keeps_self engine) hmissing
      exact .ended hending
  · next entry hentry =>
      have haccount : Account cube next.2 ([] ++ [⟨engine, next.1⟩]) [] :=
        account_ask hnext ⟨_, entry, rfl, Catalog.entry_eq_ok_iff.1 hentry, rfl⟩ (by simp)
      exact haccount

theorem account_cleaned {engine : Engine} {before since : List Leg} {tables : List String}
    {exchanges : List Exchange} {cause : Failure} (begun : Begun cube source version before)
    (hindered : Hindered cube source version since tables exchanges cause) (some : tables ≠ [])
    (keeps : ∀ leg ∈ before ++ since, leg.Keeps) (answer : Except Failure Unit) :
    Account cube (.ended (.error (.refresh cube cause)))
      (before ++ since ++ [⟨engine, engine.unlocked cube⟩])
      (exchanges ++
        [.execute ((tables.map (snapshotTable cube version)).map dropStatement) answer]) := by
  have hending := Ending.failed [⟨engine, engine.unlocked cube⟩] answer begun hindered
    (keeps_append keeps (keeps_unlocked engine cube))
  rw [removal_of_ne_nil (by simpa using some)] at hending
  exact .ended hending

theorem account_expired {engine : Engine} {before since : List Leg} {leg : Leg} {catalog : Catalog}
    {idle : List String} (begun : Begun cube source version before)
    (named : Named cube version source.tables) (length : since.length + 1 = source.tables.length)
    (published : leg.found.catalog.publish cube (source.renameTables (snapshotTable cube version))
      version = .ok catalog)
    (left : leg.left.catalog = catalog) (some : idle ≠ []) (answer : Except Failure Unit) :
    Account cube (.ended (.ok version))
      (before ++ (since ++ [leg]) ++ [⟨engine, engine.unlocked cube⟩])
      (creations cube version source.tables ++ [.execute (idle.map dropStatement) answer]) := by
  have hending := Ending.succeeded leg [⟨engine, engine.unlocked cube⟩] idle answer begun named
    length published left (by rw [removal_of_ne_nil some]; rfl)
    (by simpa using keeps_unlocked engine cube)
  rw [removal_of_ne_nil some] at hending
  exact .ended (by simpa using hending)

/-- A refresh that has created one snapshot more goes on with the next, or publishes. -/
theorem account_created {engine : Engine} {before since : List Leg} {front rest : List String}
    {table : String} {next : Engine × Stage}
    (hnext : next = Stage.acknowledge cube engine (.ok ())
      (.creating source version (front.map (snapshotTable cube version)) table rest))
    (begun : Begun cube source version before) (named : Named cube version source.tables)
    (tables : source.tables = front ++ table :: rest) (length : since.length = front.length)
    (keeps : ∀ leg ∈ before ++ since, leg.Keeps) :
    Account cube next.2 (before ++ (since ++ [⟨engine, next.1⟩]))
      (creations cube version front ++
        [.execute [createStatement (snapshotTable cube version table) table] (.ok ())]) := by
  have hcreated : front.map (snapshotTable cube version) ++ [snapshotTable cube version table] =
      (front ++ [table]).map (snapshotTable cube version) := by simp
  simp only [Stage.acknowledge, hcreated] at hnext
  rw [← creations_append]
  cases rest with
  | nil =>
      rw [← tables] at hnext ⊢
      exact account_publish hnext begun named (by simp [tables, length]) keeps
  | cons following rest =>
      subst hnext
      have hkeeps := keeps_append keeps (keeps_self engine)
      rw [List.append_assoc] at hkeeps
      exact .creating begun named (by simp [tables]) (by simp [length]) hkeeps

/-- What a refresh has done is told further when it is given a signal. -/
theorem Account.resume {stage : Stage} {legs : List Leg} {exchanges : List Exchange}
    {engine : Engine}
    {signal : Signal} {next : Engine × Stage} (h : Account cube stage legs exchanges)
    (hresume : stage.resume cube engine signal = some next) :
    Account cube next.2 (legs ++ [⟨engine, next.1⟩])
      (exchanges ++ (stage.procedure cube).exchanged signal) := by
  cases h with
  | ended ending => cases hresume
  | waiting called keeps =>
      cases signal with
      | turn =>
          obtain rfl := Option.some.inj hresume
          exact account_ask rfl (called.append _) keeps
      | _ => cases hresume
  | cleaning begun hindered some keeps =>
      cases signal with
      | acknowledge result =>
          obtain rfl := Option.some.inj hresume
          exact account_cleaned begun hindered some keeps result
      | _ => cases hresume
  | expiring leg begun named length published left some =>
      cases signal with
      | acknowledge result =>
          obtain rfl := Option.some.inj hresume
          exact account_expired begun named length published left some result
      | _ => cases hresume
  | creating begun named tables length keeps =>
      cases signal with
      | acknowledge result =>
          have hnext := (Option.some.inj hresume).symm
          rw [List.append_assoc, Stage.procedure, Stage.building_cons]
          cases result with
          | error failure =>
              exact account_rollBack hnext begun
                (.refused failure named tables (by simp [length])) keeps
          | ok _ => exact account_created hnext begun named tables length keeps
      | _ => cases hresume

/-- Where a refresh has come to on its course is a stage, and what it has done up to there is
told. -/
theorem account_course {context : LogContext} {legs : List Leg} {exchanges : List Exchange}
    {halt : Halt Int} (course : (Procedure.refresh cube).Course context legs exchanges halt) :
    ∃ stage, halt.rest = stage.procedure cube ∧ Account cube stage legs exchanges := by
  induction course with
  | called engine advanced =>
      obtain rfl := advanced.symm.trans (Stage.reaches_start engine context)
      exact ⟨_, rfl, account_start rfl⟩
  | told course engine signal resumed advanced ih =>
      obtain ⟨stage, hstage, haccount⟩ := ih
      rw [hstage] at resumed ⊢
      obtain ⟨next, hresume, hreaches⟩ := Stage.reaches_resume resumed
      obtain rfl := advanced.symm.trans (hreaches _)
      exact ⟨next.2, rfl, haccount.resume hresume⟩

/-- A refresh has created no more snapshots than there are tables. -/
theorem Hindered.length_le {legs : List Leg} {tables : List String} {exchanges : List Exchange}
    {cause : Failure} (h : Hindered cube source version legs tables exchanges cause) :
    exchanges.length ≤ source.tables.length := by
  cases h with
  | misnamed tables named refused => simp
  | refused cause named tables length => simp [creations, tables]
  | unpublished leg named length published => simp [creations]

/-- A refresh that has created snapshots had names for all of them. -/
theorem Hindered.named {legs : List Leg} {tables : List String} {exchanges : List Exchange}
    {cause : Failure} (h : Hindered cube source version legs tables exchanges cause)
    (some : tables ≠ []) : Named cube version source.tables := by
  cases h with
  | misnamed tables named refused => exact absurd rfl some
  | refused cause named tables length => exact named
  | unpublished leg named length published => exact named

/-- However a refresh goes: it is over in one of the ways told, or it waits for its turn and has
asked nothing of the store, or it waits for the store, as often as it has tables and once more at
most, and all names may be written. -/
theorem refresh_course {context : LogContext} {legs : List Leg} {exchanges : List Exchange}
    {halt : Halt Int} (course : (Procedure.refresh cube).Course context legs exchanges halt) :
    (∃ outcome, halt.rest = .done outcome ∧ Ending cube legs exchanges outcome) ∨
    (∃ source next, halt.rest = .acquire cube next ∧ Called cube source legs ∧ exchanges = []) ∨
    ∃ source version before since statements next, halt.rest = .execute statements next ∧
      legs = before ++ since ∧ Begun cube source version before ∧ Named cube version source.tables ∧
        exchanges.length ≤ source.tables.length := by
  obtain ⟨stage, hstage, haccount⟩ := account_course course
  rw [hstage]
  cases haccount with
  | ended ending => exact .inl ⟨_, rfl, ending⟩
  | waiting called keeps => exact .inr (.inl ⟨_, _, rfl, called, rfl⟩)
  | creating begun named tables length keeps =>
      exact .inr (.inr ⟨_, _, _, _, _, _, Stage.building_cons .., rfl, begun, named,
        by simp [creations, tables]⟩)
  | cleaning begun hindered some keeps =>
      exact .inr (.inr ⟨_, _, _, _, _, _, rfl, rfl, begun, hindered.named some, hindered.length_le⟩)
  | expiring leg begun named length published left some =>
      exact .inr (.inr ⟨_, _, _, _, _, _, rfl, rfl, begun, named, by simp [creations]⟩)

/-- A refresh that changes the catalog publishes snapshots of its source, and has had each of them
created before, and nothing else. -/
theorem course_of_catalog_ne {context : LogContext} {legs : List Leg} {leg : Leg}
    {exchanges : List Exchange} {halt : Halt Int}
    (course : (Procedure.refresh cube).Course context (legs ++ [leg]) exchanges halt)
    (hchanged : leg.left.catalog ≠ leg.found.catalog) :
    ∃ source version, Called cube source (legs ++ [leg]) ∧
      leg.found.catalog.publish cube (source.renameTables (snapshotTable cube version)) version =
        .ok leg.left.catalog ∧ exchanges = creations cube version source.tables := by
  obtain ⟨stage, -, haccount⟩ := account_course course
  have hnot : ∀ {all : List Leg}, all.getLast? = some leg → ¬ ∀ each ∈ all, each.Keeps := by
    intro all hlast hkeeps
    obtain ⟨locks, hleft⟩ := hkeeps leg (List.mem_of_getLast? hlast)
    exact hchanged (by rw [hleft])
  have hlast : (legs ++ [leg]).getLast? = some leg := List.getLast?_concat
  generalize legs ++ [leg] = all at haccount hlast ⊢
  cases haccount with
  | waiting called keeps => exact absurd keeps (hnot hlast)
  | creating begun named tables length keeps => exact absurd keeps (hnot hlast)
  | cleaning begun hindered some keeps => exact absurd keeps (hnot hlast)
  | expiring last begun named length published left some =>
      obtain rfl : last = leg := by simpa [List.getLast?_append] using hlast
      exact ⟨_, _, begun.called.append _, left ▸ published, rfl⟩
  | ended ending =>
      cases ending with
      | unregistered keeps missing => exact absurd keeps (hnot hlast)
      | failed after answer begun hindered keeps => exact absurd keeps (hnot hlast)
      | succeeded last after idle answer begun named length published left rest keeps =>
          cases after with
          | nil =>
              obtain rfl : last = leg := by simpa [List.getLast?_append] using hlast
              have hnone : removal idle answer = [] := List.eq_nil_of_length_eq_zero rest.symm
              exact ⟨_, _, begun.called.append _, left ▸ published, by rw [hnone, List.append_nil]⟩
          | cons first more =>
              have hmore : (first :: more).getLast? = some leg := by
                simpa [List.getLast?_append, List.getLast?_cons] using hlast
              exact absurd keeps (hnot hmore)

/-- Sales by account, of which facts and accounts have a table each. -/
def byAccount : Cube where
  name := "Sales"
  description := ""
  factTable := "facts"
  dimensions :=
    [⟨"Account", "accounts", "id", "name", [⟨"Accounts", [⟨"Account", "name", none⟩]⟩], []⟩]
  measures := []
  calculatedMembers := []

/-- An engine whose sales are published for the first time, read, and with a table left to
remove. -/
def readSales : Engine where
  settings := .standard
  catalog := ⟨[("Sales", ⟨byAccount, byAccount, 1, some ⟨0⟩⟩)], 1⟩
  leases := [["facts", "accounts"]]
  retired := [("Sales", ["facts__sales_v0"])]
  locks := []

/-- The second snapshot is refused, and the removal of the first one fails. -/
def refusal : List Exchange :=
  [.execute ["CREATE TABLE facts__sales_v2 AS SELECT * FROM facts"] (.ok ()),
   .execute ["CREATE TABLE accounts__sales_v2 AS SELECT * FROM accounts"]
     (.error (.store (.timeout "slow"))),
   .execute ["DROP TABLE IF EXISTS facts__sales_v2"] (.error (.store (.connection "lost" none)))]

/-- So goes a refresh while its cube is unregistered and registered anew. -/
theorem byAccount_refused :
    ∃ legs halt, (Procedure.refresh "Sales").Course .empty legs refusal halt ∧
      halt.rest = .done (.error (.refresh "Sales" (.store (.timeout "slow")))) ∧
      Ending "Sales" legs refusal (.error (.refresh "Sales" (.store (.timeout "slow")))) := by
  have hcalled : (Procedure.refresh "Sales").Course .empty _ [] _ := .called readSales rfl
  have hfirst := hcalled.told readSales (.acknowledge (.ok ())) rfl rfl
  have hsecond := hfirst.told { readSales with catalog := .empty }
    (.acknowledge (.error (.store (.timeout "slow")))) rfl rfl
  have hover :=
    hsecond.told readSales (.acknowledge (.error (.store (.connection "lost" none)))) rfl rfl
  refine ⟨_, _, hover, rfl, ?_⟩
  rcases refresh_course hover with ⟨outcome, houtcome, hending⟩ | ⟨_, _, hwaits, -⟩ |
    ⟨_, _, _, _, _, _, hwaits, -⟩
  · obtain rfl := Procedure.done.inj houtcome
    exact hending
  · cases hwaits
  · cases hwaits

end Refresh

end StarCube
