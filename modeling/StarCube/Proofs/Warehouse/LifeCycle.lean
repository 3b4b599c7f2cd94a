import Mathlib.Data.Option.Basic
import StarCube.Warehouse.Connector

/-!
The life cycle of a connector. What the database answers is given to each call anew, so a run is any
sequence of calls with any outcomes. A call is orderly if it leaves the connector connected just if
it holds a database, if it refuses a connection with a report after which the next attempt really is
one, and if it asks nothing of a database that is not held. One call can break this, an attempt to
connect that fails while the failure is dealt with.
-/

namespace StarCube

namespace Connector

variable {σ : Type}

/-- A call of a connector. -/
inductive Call where
  | connect
  | disconnect
  | test
  | query (sql : String) (params : List Value) (limit : Value)
  | execute (statements : List String)

/-- What a call returns or fails with. -/
inductive Reply where
  | done (outcome : Except ConnectorFault Unit)
  | healthy (answer : Bool)
  | rows (outcome : Except ConnectorFault QueryResult)

/-- A connector makes a call, which the database answers. -/
def call (connector : Connector σ) (database : Database σ) : Call → Reply × Connector σ
  | .connect => (connector.connect database).map .done id
  | .disconnect => (connector.disconnect database).map .done id
  | .test => (.healthy (connector.test database), connector)
  | .query sql params limit => (connector.query database sql params limit).map .rows id
  | .execute statements => (connector.execute database statements).map .done id

/-- The reply to a call that asks something of a database if none is held. -/
def Call.idleReply? : Call → Option Reply
  | .connect => none
  | .disconnect => none
  | .test => some (.healthy false)
  | .query sql _ _ => some (.rows (.error (.notConnected sql)))
  | .execute statements =>
      some (.done (.error (.notConnected (String.intercalate "; " statements))))

/-- A connector is connected just if it holds a database. -/
def Settled (connector : Connector σ) : Prop :=
  connector.status = .connected ↔ connector.held.isSome = true

/-- At an address there is a database that can be opened and answers. -/
def Reaches (database : Database σ) (address : Value) : Prop :=
  ∃ url opened, address = .text url ∧ database.create url = .ok opened ∧
    database.probe opened = .ok ()

/-- What a connector does in a call that is orderly. -/
structure Orderly (connector : Connector σ) (database : Database σ) (call : Call) : Prop where
  settled : (connector.call database call).2.Settled
  /-- A failed attempt to connect is reported, and the next attempt depends on the database
  alone. -/
  refused : call = .connect → ∀ fault, (connector.call database call).1 = .done (.error fault) →
    (∃ message url, fault.failure = .store (.connection message (some url))) ∧
      (connector.call database call).2.held = none ∧
      (connector.call database call).2.status = .error ∧
      ∀ other : Database σ, ((connector.call database call).2.connect other).1 = .ok () ↔
        Reaches other connector.address
  /-- Without a database nothing is sent, whatever there is to answer it. -/
  idle : connector.held = none → ∀ reply, call.idleReply? = some reply →
    ∀ other : Database σ, connector.call other call = (reply, connector)

/-- An attempt to connect that fails while its failure is dealt with. -/
inductive Spoils (connector : Connector σ) (database : Database σ) : Call → Prop
  /-- The address is no text, so it cannot be masked for the report. -/
  | address (hheld : connector.held = none) (haddress : ∀ url, connector.address ≠ .text url) :
      Spoils connector database .connect
  /-- The database that does not answer cannot be closed either. -/
  | disposal {url text fault : String} {opened : σ} (hheld : connector.held = none)
      (haddress : connector.address = .text url) (hcreate : database.create url = .ok opened)
      (hprobe : database.probe opened = .error text)
      (hdispose : database.dispose opened = .error fault) :
      Spoils connector database .connect

/-- A run of calls, each with what the database answers at the time, of which all are as said. -/
def Throughout (holds : Connector σ → Database σ → Call → Prop) :
    Connector σ → List (Database σ × Call) → Prop
  | _, [] => True
  | connector, (database, call) :: rest =>
      holds connector database call ∧ Throughout holds (connector.call database call).2 rest

section Calls

variable {connector : Connector σ} {database : Database σ}

/-- Without a database an attempt to connect succeeds just if one is reached. -/
theorem connect_eq_ok_iff (hheld : connector.held = none) :
    (connector.connect database).1 = .ok () ↔ Reaches database connector.address := by
  rw [connect, hheld]
  cases haddress : connector.address with
  | text url =>
      cases hcreate : database.create url with
      | error text => simp [refused, Reaches, hcreate]
      | ok opened =>
          cases hprobe : database.probe opened with
          | ok _ => simp [Reaches, hcreate, hprobe]
          | error text =>
              cases hdispose : database.dispose opened <;>
                simp [abandon, refused, Reaches, hcreate, hprobe, hdispose]
  | _ => simp [Reaches]

/-- A call that leaves the status and whether a database is held leaves a connector settled. -/
theorem Settled.of_kept {after : Connector σ} (h : connector.Settled)
    (hstatus : after.status = connector.status)
    (hheld : after.held.isSome = connector.held.isSome) : after.Settled := by
  rw [Settled, hstatus, hheld]
  exact h

theorem kept_send (opened : σ) (sql : String) (bound : BoundStatement) :
    (connector.send database opened sql bound).2.status = connector.status ∧
      (connector.send database opened sql bound).2.held.isSome = true := by
  unfold send
  rcases database.query opened bound with ⟨answer, after⟩
  rcases answer with fault | result
  · cases fault <;> exact ⟨rfl, rfl⟩
  · exact ⟨rfl, rfl⟩

theorem settled_query (h : connector.Settled) (sql : String) (params : List Value) (limit : Value) :
    (connector.query database sql params limit).2.Settled := by
  unfold query
  cases hheld : connector.held with
  | none => exact h
  | some opened =>
      cases bindPlaceholders sql params with
      | error fault => exact h
      | ok bound =>
          have hsend := @kept_send _ connector database opened sql bound
          have hsent : (connector.send database opened sql bound).2.Settled :=
            h.of_kept hsend.1 (by rw [hsend.2, hheld, Option.isSome_some])
          cases Deadline.ofValue limit with
          | passed => exact h
          | unusable => exact h
          | unlimited => exact hsent
          | ahead => exact hsent

theorem settled_execute (h : connector.Settled) (statements : List String) :
    (connector.execute database statements).2.Settled := by
  unfold execute
  cases hheld : connector.held with
  | none => exact h
  | some opened => exact h.of_kept rfl (by rw [hheld]; rfl)

theorem settled_disconnect (h : connector.Settled) : (connector.disconnect database).2.Settled := by
  cases hheld : connector.held with
  | none => simp [disconnect, Settled, hheld]
  | some opened =>
      cases hdispose : database.dispose opened with
      | ok _ => simp [disconnect, Settled, hheld, hdispose]
      | error text =>
          simp only [disconnect, hheld, hdispose]
          exact h

/-- A call that is no attempt to connect is orderly. -/
theorem orderly_of_ne_connect (h : connector.Settled) {call : Call} (hcall : call ≠ .connect) :
    connector.Orderly database call := by
  refine ⟨?_, fun heq => absurd heq hcall, fun hheld reply hreply other => ?_⟩
  · cases call with
    | connect => exact absurd rfl hcall
    | disconnect => exact settled_disconnect h
    | test => exact h
    | query sql params limit => exact settled_query h sql params limit
    | execute statements => exact settled_execute h statements
  · cases call with
    | connect => exact absurd rfl hcall
    | disconnect => cases hreply
    | test =>
        obtain rfl := Option.some.inj hreply
        rw [Connector.call, test, hheld]
    | query sql params limit =>
        obtain rfl := Option.some.inj hreply
        rw [Connector.call, query, hheld]
        rfl
    | execute statements =>
        obtain rfl := Option.some.inj hreply
        rw [Connector.call, execute, hheld]
        rfl

/-- An attempt that leaves no fault behind is orderly if it leaves the connector settled. -/
theorem orderly_of_connected {after : Connector σ}
    (h : connector.connect database = (.ok (), after))
    (hafter : after.Settled) : connector.Orderly database .connect := by
  have hcall : connector.call database .connect = (.done (.ok ()), after) := by
    rw [call, h]
    rfl
  refine ⟨?_, fun _ fault hfault => ?_, fun _ reply hreply => by cases hreply⟩
  · rw [hcall]
    exact hafter
  · rw [hcall] at hfault
    cases hfault

/-- An attempt that is given up with a report is orderly. -/
theorem orderly_of_refused {url text : String}
    (h : connector.connect database = connector.refused url text) :
    connector.Orderly database .connect := by
  have hcall : connector.call database .connect =
      (.done (.error (.unreachable (maskCredentials text) (maskCredentials url))),
        { connector with status := .error, held := none }) := by
    rw [call, h]
    rfl
  refine ⟨?_, fun _ fault hfault => ?_, fun _ reply hreply => by cases hreply⟩
  · rw [hcall]
    simp [Settled]
  · rw [hcall] at hfault ⊢
    cases hfault
    exact ⟨⟨_, _, rfl⟩, rfl, rfl, fun other => connect_eq_ok_iff rfl⟩

theorem not_orderly_of_spoils {call : Call} (h : connector.Spoils database call) :
    ¬ connector.Orderly database call := by
  intro horderly
  cases h with
  | address hheld haddress =>
      have hconnect : connector.connect database =
          (.error .addressUnmasked, { connector with status := .error }) := by
        rw [connect, hheld]
        cases hvalue : connector.address with
        | text url => exact absurd hvalue (haddress url)
        | _ => rfl
      have hfault : (connector.call database .connect).1 = .done (.error .addressUnmasked) := by
        rw [Connector.call, hconnect]
        rfl
      obtain ⟨⟨message, url, hfailure⟩, -⟩ := horderly.refused rfl _ hfault
      cases hfailure
  | @disposal url text fault opened hheld haddress hcreate hprobe hdispose =>
      have hconnect : connector.connect database =
          (.error (.disposal fault), { connector with status := .error, held := some opened }) := by
        simp only [connect, hheld, haddress, hcreate, hprobe, abandon, hdispose]
      have hsettled := horderly.settled
      rw [Connector.call, hconnect] at hsettled
      simp [Settled] at hsettled

/-- A call of a settled connector is orderly unless it is an attempt to connect that fails while its
failure is dealt with. -/
theorem orderly_iff_not_spoils (h : connector.Settled) {call : Call} :
    connector.Orderly database call ↔ ¬ connector.Spoils database call := by
  refine ⟨fun horderly hspoils => not_orderly_of_spoils hspoils horderly, fun hspoils => ?_⟩
  by_cases hcall : call = .connect
  · subst hcall
    cases hheld : connector.held with
    | some opened => exact orderly_of_connected (by rw [connect, hheld]) h
    | none =>
        by_cases htext : ∃ url, connector.address = .text url
        · obtain ⟨url, haddress⟩ := htext
          cases hcreate : database.create url with
          | error text =>
              apply orderly_of_refused
              simp only [connect, hheld, haddress, hcreate]
              rfl
          | ok opened =>
              cases hprobe : database.probe opened with
              | ok _ =>
                  apply orderly_of_connected
                  · simp only [connect, hheld, haddress, hcreate, hprobe]
                    rfl
                  · simp [Settled]
              | error text =>
                  cases hdispose : database.dispose opened with
                  | error fault =>
                      exact absurd (.disposal hheld haddress hcreate hprobe hdispose) hspoils
                  | ok _ =>
                      apply orderly_of_refused
                      simp only [connect, hheld, haddress, hcreate, hprobe, abandon, hdispose]
                      rfl
        · exact absurd (.address hheld fun url haddress => htext ⟨url, haddress⟩) hspoils
  · exact orderly_of_ne_connect h hcall

end Calls

/-- All calls of a run are orderly just if none of them fails to connect while the failure is dealt
with. -/
theorem throughout_orderly_iff {connector : Connector σ} (h : connector.Settled)
    {calls : List (Database σ × Call)} :
    connector.Throughout Orderly calls ↔
      connector.Throughout (fun connector database call => ¬ connector.Spoils database call)
        calls := by
  induction calls generalizing connector with
  | nil => exact Iff.rfl
  | cons first rest ih =>
      obtain ⟨database, call⟩ := first
      -- An orderly call leaves the connector settled, so the calls that follow are told in the same
      -- way.
      rw [Throughout, Throughout, ← orderly_iff_not_spoils h]
      exact and_congr_right fun horderly => ih horderly.settled

theorem settled_create {params : Keyed Value} {connector : Connector σ}
    (h : create params = .ok connector) : connector.Settled := by
  unfold create at h
  cases hurl : params.get? "url" with
  | none => simp [hurl] at h
  | some address =>
      rw [hurl] at h
      cases hempty : address.isEmpty <;> simp only [hempty] at h
      · obtain rfl := Except.ok.inj h
        simp [Settled]
      · cases h

/-- A new connector is orderly throughout a run just if the address is a text whenever it connects
without a database, and a database that is opened then and does not answer can be closed. -/
theorem orderly_of_create_iff {params : Keyed Value} {connector : Connector σ}
    (h : create params = .ok connector) (calls : List (Database σ × Call)) :
    connector.Throughout Orderly calls ↔
      connector.Throughout (fun connector database call => ¬ connector.Spoils database call)
        calls :=
  throughout_orderly_iff (settled_create h)

end Connector

namespace Database

/-- A database that cannot be opened. -/
def missing : Database Unit where
  dialect := "sqlite"
  create _ := .error "unable to open database file"
  probe _ := .ok ()
  dispose _ := .ok ()
  query opened _ := (.error (.failed "unable to open database file"), opened)
  execute opened _ := (.error "unable to open database file", opened)

/-- A database that answers. -/
def sound : Database Unit where
  dialect := "sqlite"
  create _ := .ok ()
  probe _ := .ok ()
  dispose _ := .ok ()
  query opened _ := (.ok ⟨[], []⟩, opened)
  execute opened _ := (.ok (), opened)

/-- A database that is opened but neither answers nor can be closed. -/
def stuck : Database Unit :=
  { sound with
    probe := fun _ => .error "connection was reset"
    dispose := fun _ => .error "connection was reset" }

end Database

namespace Connector

/-- The parameters of a connector that name an address only. -/
def paramsAt (address : Value) : Keyed Value :=
  [("url", address)]

/-- A new connector for an address. -/
def fresh (address : Value) : Connector Unit :=
  ⟨paramsAt address, address, .disconnected, none⟩

/-- A database that is missing at first is connected to when it is there. -/
theorem orderly_fresh :
    create (paramsAt (.text "sqlite:///w.db")) = .ok (fresh (.text "sqlite:///w.db")) ∧
      (fresh (.text "sqlite:///w.db")).Throughout Orderly
        [(.missing, .connect), (.missing, .test), (.sound, .connect),
          (.sound, .execute ["CREATE TABLE t (x)"]), (.stuck, .disconnect),
          (.sound, .disconnect)] := by
  have hcreate : create (paramsAt (.text "sqlite:///w.db")) =
      .ok (fresh (.text "sqlite:///w.db")) := rfl
  refine ⟨hcreate, (orderly_of_create_iff hcreate _).2 ?_⟩
  refine ⟨?_, ?_, ?_, ?_, ?_, ?_, trivial⟩
  · rintro (⟨-, haddress⟩ | ⟨-, -, hopened, -, -⟩)
    · exact haddress _ rfl
    · cases hopened
  · rintro ⟨⟩
  · rintro (⟨-, haddress⟩ | ⟨-, -, -, hprobe, -⟩)
    · exact haddress _ rfl
    · cases hprobe
  · rintro ⟨⟩
  · rintro ⟨⟩
  · rintro ⟨⟩

/-- A database that neither answers nor can be closed stays with a connector, whose next attempt to
connect then succeeds without one. An address that is no text is not even reported. -/
theorem exists_not_orderly :
    (∃ connector : Connector Unit, create (paramsAt (.text "sqlite:///w.db")) = .ok connector ∧
      ¬ connector.Throughout Orderly [(.stuck, .connect)] ∧
      ∃ after : Connector Unit,
        connector.call .stuck .connect =
          (.done (.error (.disposal "connection was reset")), after) ∧
          after.status = .error ∧ after.held.isSome = true ∧
          after.call .missing .connect = (.done (.ok ()), after)) ∧
      ∃ connector : Connector Unit, create (paramsAt (.bytes [0x78])) = .ok connector ∧
        ¬ connector.Throughout Orderly [(.sound, .connect)] ∧
        (connector.call .sound .connect).1 = .done (.error .addressUnmasked) := by
  constructor
  · refine ⟨fresh (.text "sqlite:///w.db"), rfl, fun horderly => ?_, _, rfl, rfl, rfl, rfl⟩
    exact not_orderly_of_spoils (.disposal rfl rfl rfl rfl rfl) horderly.1
  · refine ⟨fresh (.bytes [0x78]), rfl, fun horderly => ?_, rfl⟩
    have haddress (url : String) : (fresh (.bytes [0x78])).address ≠ .text url :=
      fun h => by cases h
    exact not_orderly_of_spoils (.address rfl haddress) horderly.1

end Connector

end StarCube
