import StarCube.Proofs.Engine.Alike
import StarCube.Proofs.Engine.Changes
import StarCube.Proofs.Engine.Definitions

/-!
What log records tell of failures. A failure that the store reports is told by the record written
next: the text of one that a query meets is masked before, while that of one that other statements
meet stands in the record as it is. A record without such a failure before it tells no more than why
a refresh is refused by the engine itself.
-/

namespace StarCube

/-- What is to be seen of a procedure: a request with what the store answers, statements with how
their execution ends, and a record that is written. -/
inductive Happening where
  | queried (request : StoreQuery) (answer : Except Failure QueryResult)
  | executed (statements : List String) (outcome : Except Failure Unit)
  | wrote (record : LogRecord)

namespace Happening

/-- The failure that the store reports. -/
def failure? : Happening → Option Failure
  | .queried _ (.error failure) => some failure
  | .executed _ (.error failure) => some failure
  | _ => none

/-- What the error field of the next record has to be, if the store reports a failure. A query that
has timed out is told by a record without such a field. -/
def owed : Happening → Option (Option Document)
  | .queried _ (.error (.store (.timeout _))) => some none
  | .queried _ (.error failure) => some (some (textField (maskCredentials failure.message)))
  | .executed _ (.error failure) => some (some (textField failure.message))
  | _ => none

theorem owed_queried {request : StoreQuery} {failure : Failure}
    (h : ∀ message, failure ≠ .store (.timeout message)) :
    (queried request (.error failure)).owed =
      some (some (textField (maskCredentials failure.message))) := by
  unfold owed
  split <;> simp_all

/-- Something is owed just for a failure of the store. -/
theorem exists_owed_iff (happening : Happening) :
    (∃ told, happening.owed = some told) ↔ ∃ failure, happening.failure? = some failure := by
  cases happening with
  | wrote record => simp [owed, failure?]
  | executed statements outcome => cases outcome <;> simp [owed, failure?]
  | queried request answer =>
      cases answer with
      | ok result => simp [owed, failure?]
      | error failure =>
          by_cases htimeout : ∃ message, failure = .store (.timeout message)
          · obtain ⟨message, rfl⟩ := htimeout
            simp [owed, failure?]
          · rw [owed_queried fun message hmessage => htimeout ⟨message, hmessage⟩]
            simp [failure?]

end Happening

/-- The error that a record tells of. -/
def LogRecord.error? (record : LogRecord) : Option Document :=
  record.fields.get? "error"

/-- A record reports what has happened: it is written next after it. -/
def Reported (trace : List Happening) (happening : Happening) (record : LogRecord) : Prop :=
  ∃ front back, trace = front ++ happening :: .wrote record :: back

/-- Where a record that reports a failure of the store tells of an error, that is the text of the
failure with its credentials masked. -/
def Discreet (trace : List Happening) : Prop :=
  ∀ happening failure record text, Reported trace happening record →
    happening.failure? = some failure → record.error? = some text →
      text = textField (maskCredentials failure.message)

/-- The failures with which a refresh is refused by the engine itself: a name that may not be
written in a statement, a cube that is not registered any more, and a version that has been
overtaken. -/
inductive Failure.Unasked : Failure → Prop
  | identifier (fault : IdentifierFault) : Unasked (.identifier fault)
  | reference (fault : ReferenceFault) : Unasked (.reference fault)
  | staleVersion (cube : String) (version current : Int) :
      Unasked (.staleVersion cube version current)

/-- What is told of failures. -/
structure Disclosed (trace : List Happening) : Prop where
  /-- Every failure of the store is reported. -/
  reported : ∀ happening failure, happening ∈ trace → happening.failure? = some failure →
    ∃ record, Reported trace happening record
  /-- The text of one that a query meets is masked, -/
  queries : ∀ request failure record, Reported trace (.queried request (.error failure)) record →
    (∀ message, failure ≠ .store (.timeout message)) →
      record.error? = some (textField (maskCredentials failure.message))
  /-- or left out if the query has timed out. -/
  timeouts : ∀ request message record,
    Reported trace (.queried request (.error (.store (.timeout message)))) record →
      record.error? = none
  /-- The text of one that other statements meet is told as it is. -/
  statements : ∀ statements failure record,
    Reported trace (.executed statements (.error failure)) record →
      record.error? = some (textField failure.message)
  /-- All other errors that are told of are failures of the engine itself. -/
  others : ∀ record text, .wrote record ∈ trace → record.error? = some text →
    (∃ happening failure, Reported trace happening record ∧ happening.failure? = some failure) ∨
      ∃ failure : Failure, failure.Unasked ∧ text = textField failure.message

/-- What an error field may be, by what is owed: if nothing is, it can tell of a failure of the
engine itself only. -/
def Paid : Option (Option Document) → Option Document → Prop
  | some told, field => field = told
  | none, field => ∀ text, field = some text →
      ∃ failure : Failure, failure.Unasked ∧ text = textField failure.message

/-- What happens, from what is owed before it to what is left owed: a failure of the store is told
before the store is asked again. -/
inductive Told : Option (Option Document) → List Happening → Option (Option Document) → Prop
  | nil (owed : Option (Option Document)) : Told owed [] owed
  | wrote {owed left : Option (Option Document)} {record : LogRecord} {rest : List Happening}
      (paid : Paid owed record.error?) (h : Told none rest left) :
      Told owed (.wrote record :: rest) left
  | queried {left : Option (Option Document)} {request : StoreQuery}
      {answer : Except Failure QueryResult} {rest : List Happening}
      (h : Told (Happening.queried request answer).owed rest left) :
      Told none (.queried request answer :: rest) left
  | executed {left : Option (Option Document)} {statements : List String}
      {outcome : Except Failure Unit} {rest : List Happening}
      (h : Told (Happening.executed statements outcome).owed rest left) :
      Told none (.executed statements outcome :: rest) left

namespace Told

variable {owed left : Option (Option Document)} {front back trace : List Happening}
  {happening : Happening} {record : LogRecord} {failure : Failure}

/-- What is owed between two parts. -/
theorem split (h : Told owed (front ++ back) left) :
    ∃ middle, Told owed front middle ∧ Told middle back left := by
  induction front generalizing owed with
  | nil => exact ⟨owed, .nil owed, h⟩
  | cons happening rest ih =>
      cases h with
      | wrote paid h =>
          obtain ⟨middle, hfront, hback⟩ := ih h
          exact ⟨middle, .wrote paid hfront, hback⟩
      | queried h =>
          obtain ⟨middle, hfront, hback⟩ := ih h
          exact ⟨middle, .queried hfront, hback⟩
      | executed h =>
          obtain ⟨middle, hfront, hback⟩ := ih h
          exact ⟨middle, .executed hfront, hback⟩

theorem append {middle : Option (Option Document)} (hfront : Told owed front middle)
    (hback : Told middle back left) : Told owed (front ++ back) left := by
  induction hfront with
  | nil owed => exact hback
  | wrote paid h ih => exact .wrote paid (ih hback)
  | queried h ih => exact .queried (ih hback)
  | executed h ih => exact .executed (ih hback)

/-- A happening leaves owed what it says. -/
theorem tail (h : Told owed (happening :: back) left) : Told happening.owed back left := by
  cases h with
  | wrote paid h => exact h
  | queried h => exact h
  | executed h => exact h

/-- A record pays what is owed before it. -/
theorem paid (h : Told owed (.wrote record :: back) left) : Paid owed record.error? := by
  cases h with
  | wrote paid h => exact paid

/-- What is owed in the end but was not before is owed for what has happened last. -/
theorem owed_last {told : Option Document} (h : Told none trace (some told)) :
    ∃ front happening, trace = front ++ [happening] ∧ happening.owed = some told := by
  rcases List.eq_nil_or_concat trace with rfl | ⟨front, happening, rfl⟩
  · cases h
  · rw [List.concat_eq_append] at h
    obtain ⟨middle, -, hlast⟩ := split h
    have hleft := hlast.tail
    generalize howed : happening.owed = owed at hleft
    cases hleft
    exact ⟨front, happening, List.concat_eq_append, howed⟩

/-- The record next after a happening pays what is owed for it. -/
theorem paid_of_reported (h : Told owed trace left) (hreported : Reported trace happening record) :
    Paid happening.owed record.error? := by
  obtain ⟨front, back, rfl⟩ := hreported
  obtain ⟨middle, -, hback⟩ := split h
  exact hback.tail.paid

theorem disclosed (h : Told none trace none) : Disclosed trace where
  reported := by
    intro happening failure hmem hfailure
    obtain ⟨told, howed⟩ := happening.exists_owed_iff.2 ⟨failure, hfailure⟩
    obtain ⟨front, back, rfl⟩ := List.append_of_mem hmem
    obtain ⟨middle, -, hback⟩ := split h
    have hnext := hback.tail
    rw [howed] at hnext
    cases hnext with
    | wrote paid hrest => exact ⟨_, front, _, rfl⟩
  queries := by
    intro request failure record hreported htimeout
    have hpaid := h.paid_of_reported hreported
    rw [Happening.owed_queried htimeout] at hpaid
    exact hpaid
  timeouts := by
    intro request message record hreported
    exact h.paid_of_reported hreported
  statements := by
    intro statements failure record hreported
    exact h.paid_of_reported hreported
  others := by
    intro record text hmem herror
    obtain ⟨front, back, rfl⟩ := List.append_of_mem hmem
    obtain ⟨middle, hfront, hback⟩ := split h
    have hpaid := hback.paid
    cases middle with
    | none => exact .inr (hpaid text herror)
    | some told =>
        obtain ⟨before, happening, rfl, howed⟩ := hfront.owed_last
        obtain ⟨failure, hfailure⟩ := happening.exists_owed_iff.1 ⟨told, howed⟩
        exact .inl ⟨happening, failure, ⟨before, back, by simp⟩, hfailure⟩

end Told

/-- Failures of the store are told discreetly just if masking leaves the texts as they are of those
that other statements than queries meet. -/
theorem Disclosed.discreet_iff {trace : List Happening} (h : Disclosed trace) :
    Discreet trace ↔ ∀ statements failure, .executed statements (.error failure) ∈ trace →
      maskCredentials failure.message = failure.message := by
  constructor
  · intro hdiscreet statements failure hmem
    obtain ⟨record, hreported⟩ := h.reported _ failure hmem rfl
    have herror := h.statements statements failure record hreported
    have hsame : textField failure.message = textField (maskCredentials failure.message) :=
      hdiscreet _ failure record _ hreported rfl herror
    simpa [textField] using hsame.symm
  · intro hplain happening failure record text hreported hfailure herror
    cases happening with
    | wrote other => cases hfailure
    | queried request answer =>
        cases answer with
        | ok _ => cases hfailure
        | error raised =>
            obtain rfl := Option.some.inj hfailure
            by_cases htimeout : ∃ message, raised = .store (.timeout message)
            · obtain ⟨message, rfl⟩ := htimeout
              rw [h.timeouts request message record hreported] at herror
              cases herror
            · have hmasked := h.queries request raised record hreported
                fun message hmessage => htimeout ⟨message, hmessage⟩
              exact Option.some.inj (herror.symm.trans hmasked)
    | executed statements outcome =>
        cases outcome with
        | ok _ => cases hfailure
        | error raised =>
            obtain rfl := Option.some.inj hfailure
            have hmem : .executed statements (.error raised) ∈ trace := by
              obtain ⟨front, back, rfl⟩ := hreported
              simp
            rw [hplain statements raised hmem]
            have htext := h.statements statements raised record hreported
            exact Option.some.inj (herror.symm.trans htext)

/-! ### Watching a procedure -/

/-- A run that is watched: the state of the engine and the log context, the number of steps taken,
and what has happened in its order. -/
structure Account where
  engine : Engine
  context : LogContext
  steps : Nat
  happenings : List Happening

def Account.noting (account : Account) (happening : Happening) : Account :=
  { account with steps := account.steps + 1, happenings := account.happenings ++ [happening] }

/-- A host that keeps an account. -/
def Surroundings.watch (around : Surroundings) : Host (StateM Account) where
  access update := fun account =>
    let engine := around.others account.steps account.engine
    (engine, { account with engine := update engine, steps := account.steps + 1 })
  context update := fun account =>
    (account.context, { account with
      context := update account.context
      steps := account.steps + 1 })
  emit record := fun account => ((), account.noting (.wrote record))
  query request := fun account =>
    (around.answer account.steps, account.noting (.queried request (around.answer account.steps)))
  choose _ := fun account =>
    (around.choice account.steps, { account with steps := account.steps + 1 })
  execute statements := fun account =>
    (around.acknowledge account.steps,
      account.noting (.executed statements (around.acknowledge account.steps)))

/-- What has happened from one account to a later one is told. -/
def Account.Tells (start later : Account) (owed left : Option (Option Document)) : Prop :=
  ∃ trace, later.happenings = start.happenings ++ trace ∧ Told owed trace left

theorem Account.Tells.refl (account : Account) (owed : Option (Option Document)) :
    account.Tells account owed owed :=
  ⟨[], (List.append_nil _).symm, .nil owed⟩

theorem Account.Tells.trans {first second third : Account}
    {owed middle left : Option (Option Document)} (h : first.Tells second owed middle)
    (hnext : second.Tells third middle left) : first.Tells third owed left := by
  obtain ⟨front, hfront, htold⟩ := h
  obtain ⟨back, hback, hleft⟩ := hnext
  exact ⟨front ++ back, by rw [hback, hfront, List.append_assoc], htold.append hleft⟩

/-- No error is bound around the calls of the log. -/
def LogContext.Clear (context : LogContext) : Prop :=
  context.bound.get? "error" = none

/-- A record has the error field of its call if none is bound around it. -/
theorem LogContext.Clear.error?_record {context : LogContext} (h : context.Clear) (level : LogLevel)
    (event : String) (own : Keyed Document) :
    (context.record level event own).error? = Keyed.get? own.reverse "error" := by
  have hcorrelation : ∀ fields, (context.correlationFields fields).get? "error" = none := by
    intro fields
    unfold correlationFields
    split
    · split <;> rfl
    · rfl
  have hfields : (context.record level event own).error? =
      ((context.bound.putAll own).get? "error").or
        ((context.correlationFields (context.bound.putAll own)).get? "error") := List.lookup_append
  have hbound : context.bound.get? "error" = none := h
  rw [hfields, hcorrelation, Option.or_none, Keyed.get?_putAll, hbound, Option.or_none]

theorem LogContext.Clear.bind {context : LogContext} (h : context.Clear) {fields : Keyed Document}
    (hfields : "error" ∉ fields.keys) : (context.bind fields).Clear := by
  rw [Clear, LogContext.bind, Keyed.get?_putAll, Keyed.get?_reverse_of_not_mem hfields]
  exact h

theorem paid_of_not_mem {fields : Keyed Document} (h : "error" ∉ fields.keys) :
    Paid none (Keyed.get? fields.reverse "error") := by
  rw [Keyed.get?_reverse_of_not_mem h]
  rintro text ⟨⟩

/-- The record that tells of an answer of the store pays what is owed for it. -/
theorem LogContext.Clear.paid_report {context : LogContext} (h : context.Clear)
    (request : StoreQuery) (answer : Except Failure QueryResult) :
    Paid (Happening.queried request answer).owed (context.report request answer).error? := by
  unfold LogContext.report
  split
  · rw [h.error?_record]
    exact paid_of_not_mem (by simp [Keyed.keys])
  · rw [h.error?_record]
    rfl
  · next failure htimeout =>
      rw [Happening.owed_queried fun message hmessage => htimeout message (by rw [hmessage]),
        h.error?_record]
      rfl

section Hearing

variable (around : Surroundings)

/-- The answer to a question, with the record that tells of it. -/
def Account.answering (account : Account) (request : StoreQuery)
    (answer : Except Failure QueryResult) :
    Account :=
  let asked := { account with steps := account.steps + 1 }.noting (.queried request answer)
  { asked with steps := asked.steps + 1 }.noting (.wrote (account.context.report request answer))

theorem LogContext.Clear.tells_answering {account : Account} (h : account.context.Clear)
    (request : StoreQuery) (answer : Except Failure QueryResult) :
    account.Tells (account.answering request answer) none none :=
  ⟨[.queried request answer, .wrote (account.context.report request answer)],
    List.append_assoc .., .queried (.wrote (h.paid_report request answer) (.nil none))⟩

/-- The host that keeps an account answers a question that is chosen, or none. -/
theorem Gathering.hear_watch_succ (waits : Gathering → Bool) (n : Nat) (gathering : Gathering)
    (start : Account) :
    gathering.hear around.watch waits (n + 1) start =
      let chosen := { start with steps := start.steps + 1 }
      let answer := around.answer (start.steps + 2)
      match gathering.next? (waits gathering) (around.choice start.steps) with
      | none => (gathering, chosen)
      | some (index, question) =>
          (gathering.settle index (question.outcome answer)).hear around.watch waits n
            (chosen.answering question.request answer) := by
  rw [Gathering.hear]
  simp only [bind, StateT.bind, Surroundings.watch]
  cases gathering.next? (waits gathering) (around.choice start.steps) <;> rfl

/-- Each answer to a question is told by the next record. -/
theorem Gathering.tells_hear (waits : Gathering → Bool) (n : Nat) (gathering : Gathering)
    (start : Account) (hclear : start.context.Clear) :
    start.Tells (gathering.hear around.watch waits n start).2 none none ∧
      (gathering.hear around.watch waits n start).2.context = start.context := by
  induction n generalizing gathering start with
  | zero => exact ⟨.refl start none, rfl⟩
  | succ n ih =>
      rw [hear_watch_succ]
      cases gathering.next? (waits gathering) (around.choice start.steps) with
      | none => exact ⟨⟨[], (List.append_nil _).symm, .nil none⟩, rfl⟩
      | some found =>
          let chosen := { start with steps := start.steps + 1 }
          have hchosen : chosen.context.Clear := hclear
          have hanswering := hchosen.tells_answering found.2.request
            (around.answer (start.steps + 2))
          obtain ⟨htells, hcontext⟩ := ih (gathering.settle found.1 _) (chosen.answering _ _) hclear
          exact ⟨hanswering.trans htells, hcontext⟩

/-- The answers to questions that have been left open are told likewise. -/
theorem Leftover.tells_finish {left : Leftover} (hclear : left.context.Clear) (start : Account) :
    start.Tells (left.finish around.watch start).2 none none := by
  let begun := { start with context := left.context, steps := start.steps + 1 }
  obtain ⟨⟨trace, htrace, htold⟩, -⟩ := Gathering.tells_hear around (fun _ => true)
    left.gathering.parts.length left.gathering begun hclear
  exact ⟨trace, htrace, htold⟩

theorem tells_finish_all {left : List Leftover} (hclear : ∀ each ∈ left, each.context.Clear)
    (start : Account) :
    start.Tells (left.forM (Leftover.finish around.watch) start).2 none none := by
  induction left generalizing start with
  | nil => exact .refl start none
  | cons first rest ih =>
      rw [List.forall_mem_cons] at hclear
      exact (first.tells_finish around hclear.1 start).trans (ih hclear.2 _)

end Hearing

namespace Procedure

variable {α β : Type}

/-- What happens when a procedure runs to its end. -/
def watched (procedure : Procedure α) (around : Surroundings) (engine : Engine)
    (context : LogContext) : List Happening :=
  (procedure.run around.watch ⟨engine, context, 0, []⟩).2.happenings

/-- A procedure that tells of failures of the store as soon as it writes a record, and writes one
before it asks the store again. Answers to questions that are put side by side are told as they come
in. `ends` holds of what is owed in the end and of how the procedure ends. -/
inductive Reports (ends : Option (Option Document) → Except Failure α → Prop) :
    Option (Option Document) → Procedure α → Prop
  | done {owed : Option (Option Document)} {outcome : Except Failure α} (h : ends owed outcome) :
      Reports ends owed (.done outcome)
  | access {owed : Option (Option Document)} (update : Engine → Engine)
      {next : Engine → Procedure α}
      (h : ∀ engine, Reports ends owed (next engine)) : Reports ends owed (.access update next)
  | context {owed : Option (Option Document)} {update : LogContext → LogContext}
      {next : LogContext → Procedure α} (clear : ∀ context, context.Clear → (update context).Clear)
      (h : ∀ context, context.Clear → Reports ends owed (next context)) :
      Reports ends owed (.context update next)
  | emit {owed : Option (Option Document)} {record : LogRecord} {next : Procedure α}
      (paid : Paid owed record.error?) (h : Reports ends none next) :
      Reports ends owed (.emit record next)
  | acquire {owed : Option (Option Document)} (cube : String) {next : Procedure α}
      (h : Reports ends owed next) : Reports ends owed (.acquire cube next)
  | query (request : StoreQuery) {next : Except Failure QueryResult → Procedure α}
      (h : ∀ answer, Reports ends (Happening.queried request answer).owed (next answer)) :
      Reports ends none (.query request next)
  | gather (gathering : Gathering) {next : Except Failure (List (List Row)) → Procedure α}
      (h : ∀ outcome, Reports ends none (next outcome)) : Reports ends none (.gather gathering next)
  | execute (statements : List String) {next : Except Failure Unit → Procedure α}
      (h : ∀ outcome, Reports ends (Happening.executed statements outcome).owed (next outcome)) :
      Reports ends none (.execute statements next)

/-- A procedure after which nothing is owed. -/
def Settles (owed : Option (Option Document)) (procedure : Procedure α) : Prop :=
  Reports (fun left _ => left = none) owed procedure

namespace Reports

variable {ends : Option (Option Document) → Except Failure α → Prop}
  {after : Option (Option Document) → Except Failure β → Prop} {owed : Option (Option Document)}
  {procedure : Procedure α}

/-- What happens while a procedure takes its steps is told, whatever happens around it. -/
theorem tells_steps (h : Reports ends owed procedure) (around : Surroundings) (start : Account)
    (hclear : start.context.Clear) :
    ∃ left, start.Tells (procedure.steps around.watch start).2 owed left ∧
      ends left (procedure.steps around.watch start).1.1 ∧
        ∀ each ∈ (procedure.steps around.watch start).1.2, each.context.Clear := by
  induction h generalizing start with
  | @done owed outcome h => exact ⟨owed, .refl start owed, h, fun each hmem => by cases hmem⟩
  | access update h ih => exact ih _ _ hclear
  | context clear h ih => exact ih _ hclear _ (clear _ hclear)
  | @emit owed record next paid h ih =>
      obtain ⟨left, htells, hends⟩ := ih (start.noting (.wrote record)) hclear
      have hwrote : start.Tells (start.noting (.wrote record)) owed none :=
        ⟨_, rfl, .wrote paid (.nil none)⟩
      exact ⟨left, hwrote.trans htells, hends⟩
  | acquire cube h ih => exact ih _ hclear
  | query request h ih =>
      obtain ⟨left, htells, hends⟩ := ih (around.answer start.steps)
        (start.noting (.queried request (around.answer start.steps))) hclear
      have hqueried : start.Tells (start.noting (.queried request (around.answer start.steps))) none
          (Happening.queried request (around.answer start.steps)).owed :=
            ⟨_, rfl, .queried (.nil _)⟩
      exact ⟨left, hqueried.trans htells, hends⟩
  | gather gathering h ih =>
      obtain ⟨hheard, hcontext⟩ := Gathering.tells_hear around (fun gathering => !gathering.ready)
        gathering.parts.length gathering start hclear
      rw [← hcontext] at hclear
      let heard := gathering.hear around.watch (fun gathering => !gathering.ready)
        gathering.parts.length start
      let resumed := { heard.2 with steps := heard.2.steps + 1 }
      have hresumed : start.Tells resumed none none := hheard
      obtain ⟨left, htells, hends, hleft⟩ := ih heard.1.outcome resumed hclear
      exact ⟨left, hresumed.trans htells, hends, List.forall_mem_cons.2 ⟨hclear, hleft⟩⟩
  | execute statements h ih =>
      obtain ⟨left, htells, hends⟩ := ih (around.acknowledge start.steps)
        (start.noting (.executed statements (around.acknowledge start.steps))) hclear
      have hexecuted : start.Tells
          (start.noting (.executed statements (around.acknowledge start.steps))) none
          (Happening.executed statements (around.acknowledge start.steps)).owed :=
        ⟨_, rfl, .executed (.nil _)⟩
      exact ⟨left, hexecuted.trans htells, hends⟩

theorem attempt {f : Except Failure α → Procedure β} (h : Reports ends owed procedure)
    (hnext : ∀ left outcome, ends left outcome → Reports after left (f outcome)) :
    Reports after owed (procedure.attempt f) := by
  induction h with
  | done h => exact hnext _ _ h
  | access update h ih => exact .access update ih
  | context clear h ih => exact .context clear ih
  | emit paid h ih => exact .emit paid ih
  | acquire cube h ih => exact .acquire cube ih
  | query request h ih => exact .query request ih
  | gather gathering h ih => exact .gather gathering ih
  | execute statements h ih => exact .execute statements ih

theorem mono {weaker : Option (Option Document) → Except Failure α → Prop}
    (h : Reports ends owed procedure)
    (hweaker : ∀ left outcome, ends left outcome → weaker left outcome) :
    Reports weaker owed procedure := by
  induction h with
  | done h => exact .done (hweaker _ _ h)
  | access update h ih => exact .access update ih
  | context clear h ih => exact .context clear ih
  | emit paid h ih => exact .emit paid ih
  | acquire cube h ih => exact .acquire cube ih
  | query request h ih => exact .query request ih
  | gather gathering h ih => exact .gather gathering ih
  | execute statements h ih => exact .execute statements ih

theorem bind {f : α → Procedure β} (h : Reports ends owed procedure)
    (hnext : ∀ left value, ends left (.ok value) → Reports after left (f value))
    (hfail : ∀ left failure, ends left (.error failure) → after left (.error failure)) :
    Reports after owed (procedure >>= f) := by
  rw [bind_eq_attempt]
  refine h.attempt fun left outcome hends => ?_
  cases outcome with
  | ok value => exact hnext left value hends
  | error failure => exact .done (hfail left failure hends)

/-- A call of the log pays what is owed by its own error field. -/
theorem log {level : LogLevel} {event : String} {fields : Keyed Document}
    (h : Paid owed (Keyed.get? fields.reverse "error")) :
    Reports (fun left outcome => left = none ∧ outcome = .ok ()) owed
      (Procedure.log level event fields) := by
  refine .context (fun _ => id) fun context hclear => .emit ?_ (.done ⟨rfl, rfl⟩)
  rwa [hclear.error?_record]

end Reports

namespace Settles

variable {owed : Option (Option Document)} {procedure : Procedure α}

/-- What happens while a procedure runs is told, with what it leaves open. -/
theorem told (h : Settles none procedure) (around : Surroundings) (engine : Engine)
    {context : LogContext} (hclear : context.Clear) :
    Told none (procedure.watched around engine context) none := by
  obtain ⟨left, hsteps, rfl, hleft⟩ := Reports.tells_steps h around ⟨engine, context, 0, []⟩ hclear
  obtain ⟨trace, htrace, htold⟩ := hsteps.trans (tells_finish_all around hleft _)
  have hwatched : procedure.watched around engine context = trace := htrace
  rwa [hwatched]

theorem done (outcome : Except Failure α) : Settles none (.done outcome) :=
  Reports.done rfl

theorem fail (failure : Failure) : Settles none (Procedure.fail failure : Procedure α) :=
  .done _

theorem attempt {f : Except Failure α → Procedure β} (h : Settles owed procedure)
    (hnext : ∀ outcome, Settles none (f outcome)) : Settles owed (procedure.attempt f) := by
  refine Reports.attempt h fun left outcome hleft => ?_
  rw [hleft]
  exact hnext outcome

theorem bind {f : α → Procedure β} (h : Settles owed procedure)
    (hnext : ∀ value, Settles none (f value)) : Settles owed (procedure >>= f) := by
  rw [bind_eq_attempt]
  refine h.attempt fun outcome => ?_
  cases outcome with
  | ok value => exact hnext value
  | error failure => exact .done _

theorem ensuring {cleanup : Procedure Unit} (h : Settles owed procedure)
    (hcleanup : Settles none cleanup) : Settles owed (procedure.ensuring cleanup) :=
  h.attempt fun outcome => hcleanup.bind fun _ => .done outcome

theorem engine : Settles none Procedure.engine :=
  Reports.access id fun _ => .done rfl

theorem update (change : Engine → Engine) : Settles none (Procedure.update change) :=
  Reports.access change fun _ => .done rfl

theorem log {level : LogLevel} {event : String} {fields : Keyed Document}
    (h : Paid owed (Keyed.get? fields.reverse "error")) :
    Settles owed (Procedure.log level event fields) :=
  (Reports.log h).mono fun _ _ hends => hends.1

theorem log_silent {level : LogLevel} {event : String} {fields : Keyed Document}
    (h : "error" ∉ fields.keys) : Settles none (Procedure.log level event fields) :=
  log (paid_of_not_mem h)

theorem within {fields : Keyed Document} (h : Settles none procedure)
    (hfields : "error" ∉ fields.keys) : Settles none (procedure.within fields) := by
  refine Reports.context (fun context hclear => hclear.bind hfields) fun before hbefore => ?_
  exact h.ensuring (Reports.context (fun _ _ => hbefore) fun _ _ => .done rfl)

theorem leasing (h : Settles none procedure) (tables : List String) :
    Settles none (procedure.leasing tables) :=
  (update _).bind fun _ => h.ensuring (update _)

theorem exclusively (h : Settles none procedure) (cube : String) :
    Settles none (procedure.exclusively cube) :=
  Reports.acquire cube (h.ensuring (update _))

theorem operation (h : Settles none procedure) (cube name : String) :
    Settles none (procedure.operation cube name) :=
  h.within (by simp [Keyed.keys])

end Settles

section Operations

variable {cube : Cube}

theorem settles_answered (request : StoreQuery) (answer : Except Failure QueryResult) :
    Settles (Happening.queried request answer).owed (answered request answer) :=
  Reports.context (fun _ => id) fun _ hclear =>
    .emit (hclear.paid_report request answer) (.done rfl)

theorem settles_send (sql : String) (params : List Value) (timeout : Value) :
    Settles none (send sql params timeout) :=
  Settles.engine.bind fun _ => Reports.query _ fun answer => settles_answered _ answer

theorem settles_requireCube (name : String) : Settles none (requireCube name) :=
  Settles.engine.bind fun _ => .done _

theorem settles_compile (query : Query) (cube : Cube) : Settles none (compile query cube) :=
  (Settles.done _).bind fun _ => (Settles.log_silent (by simp [Keyed.keys])).bind fun _ => .done _

theorem settles_evaluate (query : Query) (cube : Cube) (statement : Statement) :
    Settles none (evaluate query cube statement) :=
  ((settles_send _ _ _).leasing _).bind fun _ => .done _

theorem settles_runQuery (query : Query) : Settles none (runQuery query) :=
  (settles_requireCube query.cube).bind fun cube =>
    (settles_compile query cube).bind fun statement => settles_evaluate query cube statement

theorem settles_prepare (cube text : String) : Settles none (prepare cube text) := by
  refine (settles_requireCube cube).bind fun definition => ?_
  refine (Settles.done _).bind fun query => ?_
  split
  · exact .done _
  · exact (settles_compile query definition).bind fun _ => .done _

/-- The fields that tell of a failure by kind, message and details do not tell it as an error. -/
theorem error_not_mem_failureFields (failure : Failure) :
    "error" ∉ (failureFields failure).keys := by
  have hoptional : ∀ name content, ∀ detail ∈ Failure.optional name content, detail.1 = name := by
    intro name content detail hdetail
    cases content with
    | none => cases hdetail
    | some content => rw [List.mem_singleton.1 hdetail]
  have hdetails : ∀ detail ∈ failure.details, detail.1 ≠ "error" := by
    intro detail hdetail herror
    unfold Failure.details at hdetail
    split at hdetail <;> simp at hdetail <;> grind
  simp only [failureFields, Keyed.keys, List.map_cons, List.map_map, List.mem_cons, List.mem_map,
    Function.comp_apply, not_or, not_exists, not_and]
  exact ⟨by simp, by simp, hdetails⟩

theorem settles_prepareLogged (cube text : String) : Settles none (prepareLogged cube text) := by
  refine (settles_prepare cube text).attempt fun outcome => ?_
  cases outcome with
  | ok prepared => exact .done _
  | error failure =>
      have hlog :
          Settles none (Procedure.log .warning "cube_query_rejected" (failureFields failure)) :=
        .log_silent (error_not_mem_failureFields failure)
      by_cases hengine : failure.isEngine
      · simpa [hengine] using hlog.bind fun _ => Settles.fail failure
      · simpa [hengine] using Settles.fail failure

theorem settles_executeQuery (cube text : String) : Settles none (executeQuery cube text) :=
  .operation ((settles_prepareLogged cube text).bind fun _ => settles_evaluate _ _ _) _ _

theorem settles_compileQuery (cube text : String) : Settles none (compileQuery cube text) :=
  (settles_prepare cube text).bind fun _ => .done _

theorem settles_drillDown (cube text : String) (path : List String) :
    Settles none (drillDown cube text path) := by
  refine Settles.operation ((settles_prepareLogged cube text).bind fun prepared => ?_) _ _
  refine (settles_requireCube prepared.query.cube).bind fun definition => ?_
  exact (Settles.done _).bind fun drilled => settles_runQuery drilled

theorem settles_sliceAndDice (cube : String) (dimensions measures : List String)
    (filters : Keyed Value) : Settles none (sliceAndDice cube dimensions measures filters) := by
  refine Settles.operation ((settles_requireCube cube).bind fun definition => ?_) _ _
  exact (Settles.done _).bind fun query => settles_runQuery query

theorem settles_series (cube dimension measure what : String) (count : Int) :
    Settles none (series cube dimension measure what count) := by
  unfold series
  split
  · exact .done _
  · refine (settles_requireCube cube).bind fun definition => ?_
    exact (Settles.done _).bind fun query => settles_runQuery query

theorem settles_rankings (cube dimension measure : String) (count : Option Int) :
    Settles none (rankings cube dimension measure count) :=
  Settles.engine.bind fun _ => .operation ((settles_series _ _ _ _ _).bind fun _ => .done _) _ _

theorem settles_growthRates (cube dimension measure : String) (count : Option Int) :
    Settles none (growthRates cube dimension measure count) :=
  Settles.engine.bind fun _ => .operation ((settles_series _ _ _ _ _).bind fun _ => .done _) _ _

theorem settles_members (cube dimension : String) (hierarchy : Option String) :
    Settles none (members cube dimension hierarchy) := by
  refine Settles.operation (Settles.engine.bind fun state => ?_) _ _
  refine (Settles.done _).bind fun definition => ?_
  refine (Settles.done _).bind fun found => ?_
  refine (Settles.done _).bind fun statement => ?_
  exact ((settles_send _ _ _).leasing _).bind fun _ => .done _

/-- Questions that are put side by side leave nothing owed. -/
theorem settles_ask (questions : List (Except Failure Question)) : Settles none (ask questions) :=
  Reports.gather _ fun _ => .done rfl

theorem settles_statistics (cube : String) : Settles none (statistics cube) := by
  refine Settles.operation (Settles.engine.bind fun state => ?_) _ _
  refine (Settles.done _).bind fun entry => ?_
  refine (Settles.done _).bind fun table => ?_
  exact ((settles_ask _).leasing _).bind fun rows => .done _

theorem settles_read (operation : Read) : Settles none operation.procedure := by
  cases operation with
  | executeQuery cube text => exact settles_executeQuery cube text
  | runQuery query => exact settles_runQuery query
  | members cube dimension hierarchy => exact settles_members cube dimension hierarchy
  | sliceAndDice cube dimensions measures filters =>
      exact settles_sliceAndDice cube dimensions measures filters
  | drillDown cube text path => exact settles_drillDown cube text path
  | rankings cube dimension measure count => exact settles_rankings cube dimension measure count
  | growthRates cube dimension measure count =>
      exact settles_growthRates cube dimension measure count
  | statistics cube => exact settles_statistics cube

/-- A change of the catalog leaves nothing owed, and fails only if the catalog refuses it. -/
def Refuses (change : Change) (left : Option (Option Document)) (outcome : Except Failure Unit) :
    Prop :=
  left = none ∧ ∀ failure, outcome = .error failure →
    ∃ catalog, Change.Refused catalog change failure

theorem reports_change (change : Change) : Reports (Refuses change) none change.procedure := by
  have hchanged : Reports (Refuses change) none (changeCatalog change.applied) := by
    refine .access _ fun engine => .done ⟨rfl, fun failure hfailure => ⟨engine.catalog, ?_⟩⟩
    cases happlied : change.applied engine.catalog with
    | ok catalog =>
        rw [happlied] at hfailure
        cases hfailure
    | error raised =>
        rw [happlied] at hfailure
        obtain rfl := Except.error.inj hfailure
        exact Change.refused_of_applied happlied
  have hlogged : ∀ level event fields, "error" ∉ Keyed.keys fields →
      Reports (Refuses change) none
        (changeCatalog change.applied >>= fun _ => log level event fields) := by
    intro level event fields hfields
    refine hchanged.bind ?_ fun left failure hends => hends
    rintro left value ⟨rfl, -⟩
    refine (Reports.log (paid_of_not_mem hfields)).mono ?_
    rintro left outcome ⟨rfl, rfl⟩
    exact ⟨rfl, by simp⟩
  cases change with
  | register cube replace => exact hlogged _ _ _ (by simp [Keyed.keys])
  | unregister name => exact hlogged _ _ _ (by simp [Keyed.keys])
  | publish name published version => exact hlogged _ _ _ (by simp [Keyed.keys])

theorem settles_change (change : Change) : Settles none change.procedure :=
  (reports_change change).mono fun _ _ hends => hends.1

/-- What has prevented a refresh, if anything has, may be told by the next record. -/
def Tellable (owed : Option (Option Document)) : Option Failure → Prop
  | some failure => Paid owed (some (textField failure.message))
  | none => owed = none

theorem tellable_of_unasked {failure : Failure} (h : failure.Unasked) :
    Tellable none (some failure) := by
  intro text htext
  exact ⟨failure, h, (Option.some.inj htext).symm⟩

/-- Snapshots have been made, and what has prevented the rest is still to be told. -/
def Makes (left : Option (Option Document))
    (outcome : Except Failure (List String × Option Failure)) : Prop :=
  ∃ created failure, outcome = .ok (created, failure) ∧ Tellable left failure

theorem Makes.bind {f : List String × Option Failure → Procedure α}
    {ends : Option (Option Document) → Except Failure α → Prop}
    {procedure : Procedure (List String × Option Failure)} (h : Reports Makes none procedure)
    (hnext : ∀ left created failure, Tellable left failure →
      Reports ends left (f (created, failure))) :
    Reports ends none (procedure >>= f) := by
  refine h.bind ?_ ?_
  · rintro left ⟨created, failure⟩ ⟨_, _, ⟨⟩, htellable⟩
    exact hnext left created failure htellable
  · rintro left failure ⟨_, _, hended, -⟩
    cases hended

theorem reports_createSnapshots (snapshotOf : String → String) (tables : List String) :
    Reports Makes none (createSnapshots snapshotOf tables) := by
  induction tables with
  | nil => exact .done ⟨[], none, rfl, rfl⟩
  | cons table rest ih =>
      refine .execute _ fun outcome => ?_
      cases outcome with
      -- The failure goes up as a value and is told by the caller.
      | error failure => exact .done ⟨[], some failure, rfl, rfl⟩
      | ok _ =>
          exact Makes.bind ih fun left created failure htellable =>
            .done ⟨_, failure, rfl, htellable⟩

/-- Names that may not be written in a statement are no failures of the store. -/
theorem unasked_of_checkSnapshots {snapshotOf : String → String} {tables : List String}
    {failure : Failure} (h : checkSnapshots snapshotOf tables = .error failure) :
    failure.Unasked := by
  have hname : ∀ what text, requireIdentifier what text = .error failure → failure.Unasked := by
    intro what text hrefused
    unfold requireIdentifier at hrefused
    cases hcheck : checkIdentifier what text with
    | ok value =>
        rw [hcheck] at hrefused
        cases hrefused
    | error fault =>
        rw [hcheck] at hrefused
        obtain rfl := Except.error.inj hrefused
        exact .identifier fault
  obtain ⟨front, table, back, -, -, hrefused | ⟨-, hrefused⟩⟩ := checkSnapshots_eq_error_iff.1 h
  · exact hname _ _ hrefused
  · exact hname _ _ hrefused

theorem unasked_of_refused {catalog : Catalog} {name : String} {published : Cube} {version : Int}
    {failure : Failure} (h : Change.Refused catalog (.publish name published version) failure) :
    failure.Unasked := by
  cases h with
  | unpublishable unregistered => exact .reference _
  | stale registered older => exact .staleVersion _ _ _

theorem reports_buildSnapshots (source : Cube) (cube : String) (version : Int) :
    Reports Makes none (buildSnapshots source cube version) := by
  cases hcheck : checkSnapshots (snapshotTable cube version) source.tables with
  | error failure =>
      rw [Stage.buildSnapshots_of_error hcheck]
      exact .done ⟨[], some failure, rfl, tellable_of_unasked (unasked_of_checkSnapshots hcheck)⟩
  | ok _ =>
      simp only [buildSnapshots, hcheck]
      refine Makes.bind (reports_createSnapshots _ _) fun left created failure htellable => ?_
      cases failure with
      | some failure => exact .done ⟨created, some failure, rfl, htellable⟩
      | none =>
          obtain rfl : left = none := htellable
          -- The store takes no part in a publication, so nothing is owed for one that fails.
          refine (reports_change (.publish cube _ version)).attempt fun left outcome hends => ?_
          obtain ⟨rfl, hrefused⟩ := hends
          cases outcome with
          | ok _ => exact .done ⟨created, none, rfl, rfl⟩
          | error failure =>
              obtain ⟨catalog, hcatalog⟩ := hrefused failure rfl
              have hunasked := unasked_of_refused hcatalog
              exact .done ⟨created, some failure, rfl, tellable_of_unasked hunasked⟩

theorem settles_dropTables (cube : String) (version : Int) (tables : List String) :
    Settles none (dropTables (refreshFields cube version) tables) := by
  refine Reports.execute _ fun outcome => ?_
  cases outcome with
  | ok _ => exact Reports.done rfl
  | error failure =>
      refine Settles.log ?_
      exact rfl

theorem settles_expire (source : Cube) (cube : String) (version : Int) :
    Settles none (expire (refreshFields cube version) source cube version) := by
  refine Reports.access _ fun engine => ?_
  have hdropDue : ∀ held idle, Settles none (dropDue (refreshFields cube version) held idle) := by
    intro held idle
    have hdrop := settles_dropTables cube version idle
    have hlog : Settles none (log .info "cube_snapshot_drop_deferred"
        ((refreshFields cube version).putAll [("tables", .list (held.map textField))])) :=
      .log_silent (by simp [refreshFields, Keyed.putAll, Keyed.put, Keyed.keys])
    unfold dropDue
    cases held <;> cases idle
    · exact .done _
    · exact hdrop
    · exact hlog.bind fun _ => .done _
    · exact hlog.bind fun _ => hdrop
  exact hdropDue _ _

theorem settles_refreshSource (source : Cube) (cube : String) :
    Settles none (refreshSource source cube) := by
  refine Settles.engine.bind fun state => ?_
  refine (Settles.done _).bind fun entry => ?_
  refine Settles.bind (.log_silent ?_) fun _ => ?_
  · simp [Keyed.putAll, Keyed.put, Keyed.keys]
  refine Makes.bind (reports_buildSnapshots source cube _) fun left created failure htellable => ?_
  cases failure with
  | some failure =>
      -- This record pays before the roll-back asks the store again.
      refine Settles.bind (.log htellable) fun _ => ?_
      cases created with
      | nil => exact .done _
      | cons first rest => exact (settles_dropTables cube _ _).bind fun _ => .done _
  | none =>
      obtain rfl : left = none := htellable
      refine (settles_expire source cube _).bind fun _ => ?_
      exact Settles.bind (.log_silent (by simp [Keyed.keys])) fun _ => .done _

theorem settles_refresh (cube : String) : Settles none (refresh cube) := by
  refine Settles.engine.bind fun state => ?_
  refine (Settles.done _).bind fun entry => ?_
  exact (settles_refreshSource _ _).exclusively cube

end Operations

end Procedure

/-- What an engine is asked to do: a call, a publication, a statement that is sent as it is, a query
text that is compiled only, or a refresh on behalf of a caller. -/
inductive Service where
  | call (made : Call)
  | publish (name : String) (published : Cube) (version : Int)
  | send (sql : String) (params : List Value) (timeout : Value)
  | compileQuery (cube text : String)
  | refreshCube (cube : String)

namespace Service

def Result : Service → Type
  | .call made => made.Result
  | .publish .. => Unit
  | .send .. => List Row
  | .compileQuery .. => Statement
  | .refreshCube _ => Int

def procedure : (service : Service) → Procedure service.Result
  | .call made => made.procedure
  | .publish name published version => Procedure.publish name published version
  | .send sql params timeout => Procedure.send sql params timeout
  | .compileQuery cube text => Procedure.compileQuery cube text
  | .refreshCube cube => Procedure.refreshCube cube

/-- Whatever an engine is asked to do, it tells of every failure of the store before it asks
again. -/
theorem settles (service : Service) : Procedure.Settles none service.procedure := by
  cases service with
  | call made =>
      cases made with
      | register cube replace => exact Procedure.settles_change (.register cube replace)
      | unregister name => exact Procedure.settles_change (.unregister name)
      | refresh cube => exact Procedure.settles_refresh cube
      | read operation => exact Procedure.settles_read operation
  | publish name published version =>
      exact Procedure.settles_change (.publish name published version)
  | send sql params timeout => exact Procedure.settles_send sql params timeout
  | compileQuery cube text => exact Procedure.settles_compileQuery cube text
  | refreshCube cube => exact (Procedure.settles_refresh cube).operation cube _

/-- Whatever an engine is asked to do and whatever goes on around it, failures of the store are told
with their credentials masked just if the texts of those that creating or dropping tables meets need
no masking. -/
theorem discreet_watched_iff (service : Service) (around : Surroundings) (engine : Engine)
    (context : LogContext) (hclear : context.Clear) :
    (Discreet (service.procedure.watched around engine context) ↔
      ∀ statements failure,
        .executed statements (.error failure) ∈ service.procedure.watched around engine context →
        maskCredentials failure.message = failure.message) ∧
    Disclosed (service.procedure.watched around engine context) := by
  have hdisclosed := (service.settles.told around engine hclear).disclosed
  exact ⟨hdisclosed.discreet_iff, hdisclosed⟩

/-- An engine with a cube over facts. -/
def engineOfFacts : Engine :=
  ((World.fresh .standard).run [.call (.register (.ofFacts "sales" "facts") false) .empty]).engine

/-- A store that fails with a text when it is to execute statements. -/
def refusing (text : String) : Surroundings where
  others _ := id
  answer _ := .ok ⟨[], []⟩
  choice _ := none
  acknowledge _ := .error (.store (.query text ""))

/-- A text without credentials is told as it is. -/
theorem discreet_diskFull :
    LogContext.empty.Clear ∧
      Discreet ((refreshCube "sales").procedure.watched
        (refusing "disk full") engineOfFacts .empty) := by
  refine ⟨rfl, (discreet_watched_iff (refreshCube "sales") (refusing "disk full") engineOfFacts
    .empty rfl).1.2 ?_⟩
  intro statements failure hmem
  have htexts : ((refreshCube "sales").procedure.watched (refusing "disk full") engineOfFacts
      .empty).map (fun happening => happening.failure?.map Failure.message) =
        [none, some "disk full", none] := by
    decide +kernel
  have htext : some failure.message ∈ [none, some "disk full", none] := by
    rw [← htexts]
    exact List.mem_map.2 ⟨_, hmem, rfl⟩
  obtain hmessage : failure.message = "disk full" := by simpa using htext
  rw [hmessage]
  decide +kernel

/-- A password in the text of the failure stands in the log when no snapshot can be created. -/
theorem exists_not_discreet :
    ¬ ∀ (service : Service) (around : Surroundings) (engine : Engine) (context : LogContext),
      context.Clear → Discreet (service.procedure.watched around engine context) := by
  intro h
  have hdiscreet := h (refreshCube "sales") (refusing "password=hunter2") engineOfFacts .empty rfl
  have hdisclosed := ((refreshCube "sales").settles.told (refusing "password=hunter2") engineOfFacts
    (show LogContext.empty.Clear from rfl)).disclosed
  have hcreate : ((refreshCube "sales").procedure.watched (refusing "password=hunter2")
      engineOfFacts .empty)[1]? =
        some (.executed ["CREATE TABLE facts__sales_v1 AS SELECT * FROM facts"]
          (.error (.store (.query "password=hunter2" "")))) := rfl
  have hmasked := hdisclosed.discreet_iff.1 hdiscreet _ _ (List.mem_of_getElem? hcreate)
  exact absurd hmasked (by decide +kernel)

end Service

end StarCube
