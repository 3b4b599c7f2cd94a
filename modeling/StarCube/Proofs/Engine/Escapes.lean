import StarCube.Proofs.Engine.Dialogue
import StarCube.Proofs.Foreign

/-!
How dialogues with the store end: when they are closed, and when with a failure that is none of the
engine's own. A failure of the store itself is not one of these, since it becomes the cause of an
execution failure.
-/

namespace StarCube

/-- What the store answers to an operation that asks once. -/
def answersIn (signals : List Signal) : List (Except Failure QueryResult) :=
  signals.filterMap Signal.answer?

namespace Dialogue

variable {α β γ : Type} {signals : List Signal}

theorem bind_assoc (dialogue : Dialogue α) (f : α → Dialogue β) (g : β → Dialogue γ) :
    dialogue >>= f >>= g = dialogue >>= fun value => f value >>= g := by
  refine (attempt_attempt dialogue _ _).trans (congrArg dialogue.attempt (funext fun outcome => ?_))
  cases outcome <;> rfl

theorem bind_closed_ok (dialogue : Dialogue α) :
    (dialogue >>= fun value => closed (.ok value)) = dialogue := by
  refine Eq.trans (congrArg dialogue.attempt (funext fun outcome => ?_)) dialogue.attempt_closed
  cases outcome <;> rfl

/-- The dialogue is closed after some signals, with a failure that is none of the engine's own. -/
def Escapes (dialogue : Dialogue α) (signals : List Signal) : Prop :=
  ∃ outcome, dialogue.hear signals = .closed outcome ∧ Foreign outcome

@[simp] theorem escapes_closed_iff {outcome : Except Failure α} :
    (closed outcome).Escapes signals ↔ Foreign outcome := by
  simp [Escapes]

theorem escapes_closed_bind_iff {outcome : Except Failure α} {f : α → Dialogue β} :
    (closed outcome >>= f).Escapes signals ↔
      Foreign outcome ∨ ∃ value, outcome = .ok value ∧ (f value).Escapes signals := by
  cases outcome with
  | ok value => simp [Bind.bind, bind, attempt]
  | error failure => simp [Bind.bind, bind, attempt]

theorem not_foreign_rowsOf {sql : String} {answer : Except Failure QueryResult} :
    ¬ Foreign (rowsOf sql answer) := by
  cases answer <;> simp [rowsOf, Failure.isEngine]

theorem send_bind_eq_ask {settings : Settings} {sql : String} {params : List Value}
    {finish : List Row → Except Failure β} :
    (send settings sql params >>= fun rows => closed (finish rows)) =
      ask ⟨sql, params, settings.timeout⟩ fun answer => closed (rowsOf sql answer >>= finish) :=
  congrArg (ask _) (funext fun _ => closed_bind _ finish)

/-- What is made of the rows of a statement fails so, if it does for the rows that the first answer
has. -/
theorem escapes_send_bind_iff {settings : Settings} {sql : String} {params : List Value}
    {finish : List Row → Except Failure β} :
    (send settings sql params >>= fun rows => closed (finish rows)).Escapes signals ↔
      ∃ result rest, answersIn signals = .ok result :: rest ∧ Foreign (finish result.rows) := by
  rw [send_bind_eq_ask, Escapes, hear_ask_closed, answersIn]
  cases signals.filterMap Signal.answer? with
  | nil => simp
  | cons answer rest =>
      simp only [closed.injEq, exists_eq_left', foreign_bind_iff, not_foreign_rowsOf, false_or,
        List.cons.injEq]
      cases answer <;> simp [rowsOf]

theorem gather_bind_eq_gather {gathering : Gathering}
    {finish : List (List Row) → Except Failure β} :
    (gather gathering closed >>= fun rows => closed (finish rows)) =
      gather gathering fun rows => closed (rows >>= finish) :=
  congrArg (gather gathering) (funext fun rows => closed_bind rows finish)

/-- What is made of the rows of several statements fails so, if it does for what the questions have
come to when the dialogue goes on. -/
theorem escapes_gather_bind_iff {gathering : Gathering}
    {finish : List (List Row) → Except Failure β} :
    (gather gathering closed >>= fun rows => closed (finish rows)).Escapes signals ↔
      ∃ front back, signals = front ++ .wake :: back ∧ (gathering.after front).ready = true ∧
        Foreign ((gathering.after front).outcome >>= finish) := by
  simp only [gather_bind_eq_gather, Escapes, hear_gather_eq_closed_iff]
  constructor
  · rintro ⟨_, ⟨front, back, hsignals, hready, rfl⟩, hforeign⟩
    exact ⟨front, back, hsignals, hready, hforeign⟩
  · rintro ⟨front, back, hsignals, hready, hforeign⟩
    exact ⟨_, ⟨front, back, hsignals, hready, rfl⟩, hforeign⟩

/-- A dialogue that is closed, or asks once. -/
inductive Brief : Dialogue α → Prop
  | closed (outcome : Except Failure α) : Brief (.closed outcome)
  | ask (request : StoreQuery) (result : Except Failure QueryResult → Except Failure α) :
      Brief (.ask request fun answer => .closed (result answer))

namespace Brief

variable {dialogue : Dialogue α}

/-- It is closed once the store has answered. -/
theorem hear_eq_closed (h : dialogue.Brief) (hanswer : answersIn signals ≠ []) :
    ∃ outcome, dialogue.hear signals = .closed outcome := by
  cases h with
  | closed outcome => exact ⟨outcome, hear_closed outcome signals⟩
  | ask request result =>
      rw [hear_ask_closed]
      rw [answersIn] at hanswer
      cases hanswers : signals.filterMap Signal.answer? with
      | nil => exact absurd hanswers hanswer
      | cons answer rest => exact ⟨result answer, rfl⟩

theorem bind_closed (h : dialogue.Brief) (finish : α → Except Failure β) :
    (dialogue >>= fun value => Dialogue.closed (finish value)).Brief := by
  cases h with
  | closed outcome =>
      rw [closed_bind]
      exact .closed _
  | ask request result =>
      have hask : (Dialogue.ask request (fun answer => .closed (result answer)) >>= fun value =>
          Dialogue.closed (finish value)) =
            .ask request fun answer => .closed (result answer >>= finish) :=
        congrArg (Dialogue.ask request) (funext fun answer => closed_bind _ finish)
      rw [hask]
      exact .ask request _

theorem closed_bind {outcome : Except Failure α} {f : α → Dialogue β}
    (h : ∀ value, (f value).Brief) : (Dialogue.closed outcome >>= f).Brief := by
  cases outcome with
  | ok value => exact h value
  | error failure => exact .closed (.error failure)

theorem send (settings : Settings) (sql : String) (params : List Value) :
    (Dialogue.send settings sql params).Brief :=
  .ask _ _

theorem evaluate (settings : Settings) (query : Query) (cube : Cube) (statement : Statement) :
    (Dialogue.evaluate settings query cube statement).Brief :=
  (send settings _ _).bind_closed _

theorem runQuery (engine : Engine) (query : Query) : (Dialogue.runQuery engine query).Brief :=
  closed_bind fun cube => closed_bind fun statement => evaluate _ query cube statement

theorem series (engine : Engine) (cube dimension measure what : String) (count : Int) :
    (Dialogue.series engine cube dimension measure what count).Brief := by
  unfold Dialogue.series
  split
  · exact .closed _
  · exact closed_bind fun _ => closed_bind fun query => runQuery engine query

end Brief

end Dialogue

/-- The operation asks the store for several things at once. -/
def Read.asksTogether : Read → Bool
  | .statistics _ => true
  | _ => false

/-- All operations that do not ask for several things at once are closed, or ask once. -/
theorem Read.brief (engine : Engine) {operation : Read} (h : operation.asksTogether = false) :
    (operation.dialogue engine).Brief := by
  cases operation with
  | executeQuery cube text => exact .closed_bind fun prepared => .evaluate _ _ _ _
  | runQuery query => exact .runQuery engine query
  | members cube dimension hierarchy =>
      refine .closed_bind fun definition => .closed_bind fun found =>
        .closed_bind fun statement => ?_
      exact (Dialogue.Brief.send _ _ _).bind_closed _
  | sliceAndDice cube dimensions measures filters =>
      exact .closed_bind fun definition => .closed_bind fun query => .runQuery engine query
  | drillDown cube text path =>
      refine .closed_bind fun prepared => .closed_bind fun definition => ?_
      exact .closed_bind fun drilled => .runQuery engine drilled
  | rankings cube dimension measure count =>
      exact (Dialogue.Brief.series engine cube dimension measure "top_n" _).bind_closed _
  | growthRates cube dimension measure count =>
      exact (Dialogue.Brief.series engine cube dimension measure "periods" _).bind_closed _
  | statistics cube => cases h

end StarCube
