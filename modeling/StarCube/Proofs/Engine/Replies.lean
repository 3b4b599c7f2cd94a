import StarCube.Proofs.Engine.Dialogue
import StarCube.Proofs.Engine.Requests

/-!
Operations that make one request. What they ask is settled when they are called, and what they are
over with depends on the answer alone, whatever else goes on meanwhile.
-/

namespace StarCube.World

/-- However a world goes on, an operation that is called in it waits for the answer to one request,
and is over with what comes of the first answer that it is given. -/
def Asks (world : World) (operation : Read) (request : StoreQuery)
    (result : Except Failure QueryResult → Except Failure operation.Result) : Prop :=
  ∀ context events, ∃ bound rest,
    ((world.next (.call (.read operation) context)).run events).tasks[world.tasks.length]? =
        some ⟨.read operation, world.engine, bound, rest⟩ ∧
      match events.filterMap (Event.answer? world.tasks.length) with
      | [] => rest.asked? = some request
      | answer :: _ => rest = .done (result answer)

variable {settings : Settings} {before : List Event} {world : World} {operation : Read}
  {request : StoreQuery} {result : Except Failure QueryResult → Except Failure operation.Result}

theorem asks_of_dialogue (hworld : world = (fresh settings).run before)
    (hdialogue : operation.dialogue world.engine = .ask request fun answer =>
      .closed (result answer)) :
    world.Asks operation request result := by
  intro context events
  obtain ⟨bound, rest, htask, hstands⟩ := stands_of_read before operation context events hworld
  refine ⟨bound, rest, htask, ?_⟩
  rw [hdialogue, Dialogue.hear_ask_closed, ← Event.filterMap_answer?] at hstands
  cases hanswers : events.filterMap (Event.answer? world.tasks.length) with
  | nil =>
      rw [hanswers] at hstands
      cases hstands
      rfl
  | cons answer others =>
      rw [hanswers] at hstands
      cases hstands
      rfl

/-- What a call is over with is settled by the call. -/
theorem Asks.result_eq (h : world.Asks operation request result) {other : StoreQuery}
    {otherResult : Except Failure QueryResult → Except Failure operation.Result}
    (hother : world.Asks operation other otherResult) : result = otherResult := by
  funext answer
  have hanswers : [Event.signal world.tasks.length (.answer answer)].filterMap
      (Event.answer? world.tasks.length) = [answer] := by
    simp [Event.answer?, Event.signal?, Signal.answer?]
  obtain ⟨bound, rest, htask, hrest⟩ := h .empty [.signal world.tasks.length (.answer answer)]
  obtain ⟨otherBound, otherRest, hotherTask, hotherRest⟩ :=
    hother .empty [.signal world.tasks.length (.answer answer)]
  rw [hanswers] at hrest hotherRest
  rw [htask] at hotherTask
  obtain ⟨-, hsame⟩ : bound = otherBound ∧ rest = otherRest := by simpa using hotherTask
  rw [hrest, hotherRest] at hsame
  exact Procedure.done.inj hsame

/-- An operation makes one request and gives a value when that is answered. -/
def Gives (world : World) (operation : Read) (request : StoreQuery) (answer : QueryResult)
    (value : operation.Result) : Prop :=
  ∃ result, world.Asks operation request result ∧ result (.ok answer) = .ok value

theorem Asks.gives_iff (h : world.Asks operation request result) {answer : QueryResult}
    {value : operation.Result} :
    world.Gives operation request answer value ↔ result (.ok answer) = .ok value :=
  ⟨fun ⟨_, hother, hvalue⟩ => h.result_eq hother ▸ hvalue, fun hvalue => ⟨result, h, hvalue⟩⟩

end StarCube.World
