import StarCube.Proofs.Engine.Schedule

/-!
What becomes of questions that are put to the store side by side. Each keeps the first answer that
it is given. The first answer in time that fails its question is the failure of all, and stays it
whatever is answered later; without one they have come to something when each has been answered.
-/

namespace StarCube

/-- The answer that a signal gives to one of several questions. -/
def Signal.reply? (index : Nat) : Signal → Option (Except Failure QueryResult)
  | .part other result => if other = index then some result else none
  | _ => none

/-- The first answer to one of several questions. -/
def replyTo (index : Nat) (signals : List Signal) : Option (Except Failure QueryResult) :=
  signals.findSome? (Signal.reply? index)

theorem replyTo_cons (index : Nat) (signal : Signal) (rest : List Signal) :
    replyTo index (signal :: rest) = (signal.reply? index).or (replyTo index rest) := by
  cases h : signal.reply? index <;> simp [replyTo, h]

theorem replyTo_append (index : Nat) (front back : List Signal) :
    replyTo index (front ++ back) = (replyTo index front).or (replyTo index back) :=
  List.findSome?_append

theorem Signal.reply?_eq_some_iff {index : Nat} {signal : Signal}
    {answer : Except Failure QueryResult} :
    signal.reply? index = some answer ↔ signal = .part index answer := by
  cases signal with
  | part other result =>
      rw [reply?, Option.ite_none_right_eq_some, Option.some.injEq, Signal.part.injEq]
  | _ => simp [reply?]

/-- What an answer makes of a question. One that is over keeps its outcome. -/
def Part.heard (part : Part) (answer : Option (Except Failure QueryResult)) : Part :=
  match part, answer with
  | .asked question, some answer => .settled (question.outcome answer)
  | part, _ => part

theorem Part.heard_none (part : Part) : part.heard none = part := by
  cases part <;> rfl

theorem Part.heard_heard (part : Part) (first second : Option (Except Failure QueryResult)) :
    (part.heard first).heard second = part.heard (first.or second) := by
  cases part with
  | settled outcome => rfl
  | asked question => cases first <;> rfl

theorem Part.question?_heard_iff {part : Part} {answer : Option (Except Failure QueryResult)}
    {question : Question} :
    (part.heard answer).question? = some question ↔ part.question? = some question ∧
      answer = none := by
  cases part <;> cases answer <;> simp [heard, question?]

namespace Gathering

/-- What an answer makes of questions: only one that is open is answered. -/
def answered (gathering : Gathering) (index : Nat) (result : Except Failure QueryResult) :
    Gathering :=
  match gathering.question? index with
  | some question => gathering.settle index (question.outcome result)
  | none => gathering

/-- What a signal makes of questions. -/
def told (gathering : Gathering) : Signal → Gathering
  | .part index result => gathering.answered index result
  | _ => gathering

/-- What signals make of questions. -/
def after (gathering : Gathering) (signals : List Signal) : Gathering :=
  signals.foldl told gathering

theorem after_append (gathering : Gathering) (front back : List Signal) :
    gathering.after (front ++ back) = (gathering.after front).after back :=
  List.foldl_append

theorem question?_eq_some_iff {gathering : Gathering} {index : Nat} {question : Question} :
    gathering.question? index = some question ↔
      gathering.parts[index]? = some (.asked question) := by
  rw [question?, Option.bind_eq_some_iff]
  constructor
  · rintro ⟨part, hpart, hquestion⟩
    cases part with
    | asked other =>
        obtain rfl := Option.some.inj hquestion
        exact hpart
    | settled outcome => cases hquestion
  · exact fun hpart => ⟨_, hpart, rfl⟩

theorem mem_requests_iff {gathering : Gathering} {request : StoreQuery} :
    request ∈ gathering.requests ↔
      ∃ question, .asked question ∈ gathering.parts ∧ question.request = request := by
  simp only [requests, List.mem_filterMap, Option.map_eq_some_iff]
  constructor
  · rintro ⟨part, hpart, question, hquestion, rfl⟩
    cases part with
    | asked other =>
        obtain rfl := Option.some.inj hquestion
        exact ⟨other, hpart, rfl⟩
    | settled outcome => cases hquestion
  · rintro ⟨question, hpart, rfl⟩
    exact ⟨_, hpart, question, rfl, rfl⟩

theorem requests_eq_nil_iff {gathering : Gathering} :
    gathering.requests = [] ↔ ∀ index, gathering.question? index = none := by
  simp only [requests, List.filterMap_eq_nil_iff, Option.map_eq_none_iff, question?,
    Option.bind_eq_none_iff]
  constructor
  · exact fun h index part hpart => h part (List.mem_of_getElem? hpart)
  · intro h part hpart
    obtain ⟨index, hindex⟩ := List.mem_iff_getElem?.1 hpart
    exact h index part hindex

/-- What is left of questions when one is over. -/
theorem mem_requests_of_settle {gathering : Gathering} {index : Nat}
    {outcome : Except Failure (List Row)} {request : StoreQuery}
    (h : request ∈ (gathering.settle index outcome).requests) : request ∈ gathering.requests := by
  rw [mem_requests_iff] at h ⊢
  obtain ⟨question, hpart, rfl⟩ := h
  rcases List.mem_or_eq_of_mem_set hpart with hold | hnew
  · exact ⟨question, hold, rfl⟩
  · cases hnew

theorem length_settle (gathering : Gathering) (index : Nat) (outcome : Except Failure (List Row)) :
    (gathering.settle index outcome).parts.length = gathering.parts.length :=
  List.length_set

/-- Without a failure there are rows for each part. -/
theorem length_of_outcome {gathering : Gathering} {rows : List (List Row)}
    (h : gathering.outcome = .ok rows) : rows.length = gathering.parts.length := by
  unfold outcome at h
  split at h
  · cases h
  · rw [← Except.ok.inj h, List.length_map]

/-- Where there are rows for all parts, none has failed. -/
theorem failure_of_outcome {gathering : Gathering} {rows : List (List Row)}
    (h : gathering.outcome = .ok rows) : gathering.failure = none := by
  unfold outcome at h
  split at h
  · cases h
  · assumption

theorem failure_of_settle {gathering : Gathering} {index : Nat}
    {outcome : Except Failure (List Row)}
    (h : (gathering.settle index outcome).failure = none) : gathering.failure = none :=
  (Option.or_eq_none_iff.1 h).1

/-- Where no part has failed, all questions could be put. -/
theorem exists_question_of_failure {questions : List (Except Failure Question)}
    (h : (ofQuestions questions).failure = none) :
    ∀ outcome ∈ questions, ∃ question, outcome = .ok question := by
  intro outcome houtcome
  have hpart := List.findSome?_eq_none_iff.1 h _ (List.mem_map_of_mem houtcome)
  cases outcome with
  | ok question => exact ⟨question, rfl⟩
  | error failure => cases hpart

/-- What is asked are the questions that could be put. -/
theorem mem_requests_ofQuestions {questions : List (Except Failure Question)} {request : StoreQuery}
    (h : request ∈ (ofQuestions questions).requests) :
    ∃ question, .ok question ∈ questions ∧ question.request = request := by
  obtain ⟨question, hquestion, rfl⟩ := mem_requests_iff.1 h
  obtain ⟨outcome, houtcome, hpart⟩ := List.mem_map.1 hquestion
  cases outcome with
  | error failure => cases hpart
  | ok other =>
      obtain rfl := Part.asked.inj hpart
      exact ⟨other, houtcome, rfl⟩

section Answered

variable {gathering : Gathering}

theorem told_of_failure {failure : Failure} (h : gathering.failure = some failure)
    (signal : Signal) : (gathering.told signal).failure = some failure := by
  cases signal with
  | part index result =>
      rw [told, answered]
      split
      · simp [settle, h]
      · exact h
  | _ => exact h

/-- The first failure stays the first. -/
theorem after_of_failure {failure : Failure} (h : gathering.failure = some failure)
    (signals : List Signal) : (gathering.after signals).failure = some failure := by
  induction signals generalizing gathering with
  | nil => exact h
  | cons signal rest ih => exact ih (told_of_failure h signal)

/-- Where no question is open no more is answered. -/
theorem after_of_over (h : gathering.requests = []) (signals : List Signal) :
    gathering.after signals = gathering := by
  induction signals with
  | nil => rfl
  | cons signal rest ih =>
      have htold : gathering.told signal = gathering := by
        cases signal with
        | part index result => simp [told, answered, requests_eq_nil_iff.1 h index]
        | _ => rfl
      show (gathering.told signal).after rest = gathering
      rw [htold, ih]

/-- What questions have come to is not changed by later answers. -/
theorem outcome_after (h : gathering.ready = true) (signals : List Signal) :
    (gathering.after signals).outcome = gathering.outcome := by
  cases hfailure : gathering.failure with
  | some failure => simp only [outcome, after_of_failure hfailure, hfailure]
  | none =>
      have hover : gathering.requests = [] := by simpa [ready, hfailure] using h
      rw [after_of_over hover]

end Answered

section After

variable {gathering : Gathering} {question : Question}

theorem parts_told (gathering : Gathering) (signal : Signal) (index : Nat) :
    (gathering.told signal).parts[index]? =
      gathering.parts[index]?.map (·.heard (signal.reply? index)) := by
  cases signal with
  | part other result =>
      rw [told, answered, Signal.reply?]
      cases hquestion : gathering.question? other with
      | some question =>
          rw [question?_eq_some_iff] at hquestion
          simp only [settle, List.getElem?_set]
          by_cases hother : other = index
          · subst hother
            have hlength := (List.getElem?_eq_some_iff.1 hquestion).1
            rw [if_pos rfl, if_pos hlength, if_pos rfl, hquestion]
            rfl
          · simp [hother, Part.heard_none]
      | none =>
          by_cases hother : other = index
          · subst hother
            rw [question?] at hquestion
            cases hpart : gathering.parts[other]? with
            | none => rfl
            | some part =>
                cases part with
                | asked question => simp [hpart, Part.question?] at hquestion
                | settled outcome => rfl
          · simp [hother, Part.heard_none]
  | _ => simp [told, Signal.reply?, Part.heard_none]

/-- Each question keeps the first answer to it. -/
theorem parts_after (gathering : Gathering) (signals : List Signal) (index : Nat) :
    (gathering.after signals).parts[index]? =
      gathering.parts[index]?.map (·.heard (replyTo index signals)) := by
  induction signals generalizing gathering with
  | nil => simp [after, replyTo, Part.heard_none]
  | cons signal rest ih =>
      rw [replyTo_cons, after, List.foldl_cons]
      refine (ih _).trans ?_
      rw [parts_told, Option.map_map]
      exact congrArg (gathering.parts[index]?.map ·) (funext fun part => part.heard_heard _ _)

theorem question?_after_iff {signals : List Signal} {index : Nat} :
    (gathering.after signals).question? index = some question ↔
      gathering.question? index = some question ∧ replyTo index signals = none := by
  rw [question?, parts_after, question?]
  cases gathering.parts[index]? with
  | none => simp
  | some part => exact Part.question?_heard_iff

/-- No answer fails the question that it is given to. -/
def Unfailing (gathering : Gathering) (signals : List Signal) : Prop :=
  ∀ index question answer, gathering.question? index = some question →
    replyTo index signals = some answer → ∃ rows, question.outcome answer = .ok rows

theorem unfailing_append_iff {front back : List Signal} :
    gathering.Unfailing (front ++ back) ↔
      gathering.Unfailing front ∧ (gathering.after front).Unfailing back := by
  simp only [Unfailing, replyTo_append, question?_after_iff, Option.or_eq_some_iff]
  constructor
  · refine fun h => ⟨fun index question answer hquestion hanswer => ?_,
      fun index question answer hquestion hanswer => ?_⟩
    · exact h index question answer hquestion (.inl hanswer)
    · exact h index question answer hquestion.1 (.inr ⟨hquestion.2, hanswer⟩)
  · rintro ⟨hfront, hback⟩ index question answer hquestion (hanswer | ⟨hopen, hanswer⟩)
    · exact hfront index question answer hquestion hanswer
    · exact hback index question answer ⟨hquestion, hopen⟩ hanswer

theorem failure_told_eq_some_iff (h : gathering.failure = none) {signal : Signal}
    {failure : Failure} :
    (gathering.told signal).failure = some failure ↔
      ∃ index answer question, signal = .part index answer ∧
        gathering.question? index = some question ∧ question.outcome answer = .error failure := by
  cases signal with
  | part index answer =>
      have houtcome (outcome : Except Failure (List Row)) :
          (Part.settled outcome).failure? = some failure ↔ outcome = .error failure := by
        cases outcome <;> simp [Part.failure?]
      rw [told, answered]
      cases hquestion : gathering.question? index with
      | none =>
          simp only [h, reduceCtorEq, false_iff]
          rintro ⟨other, result, question, heq, hother, -⟩
          obtain ⟨rfl, rfl⟩ := Signal.part.inj heq
          simp [hquestion] at hother
      | some question =>
          simp only [settle, h, Option.none_or, houtcome]
          constructor
          · exact fun hfailure => ⟨index, answer, question, rfl, hquestion, hfailure⟩
          · rintro ⟨other, result, asked, heq, hasked, hfailure⟩
            obtain ⟨rfl, rfl⟩ := Signal.part.inj heq
            obtain rfl : question = asked := Option.some.inj (hquestion.symm.trans hasked)
            exact hfailure
  | _ => simp [told, h]

theorem failure_told_eq_none_iff {signal : Signal} :
    (gathering.told signal).failure = none ↔
      gathering.failure = none ∧ gathering.Unfailing [signal] := by
  have hreply (index : Nat) (answer : Except Failure QueryResult) :
      replyTo index [signal] = some answer ↔ signal = .part index answer := by
    rw [replyTo_cons, show replyTo index [] = none from rfl, Option.or_none,
      Signal.reply?_eq_some_iff]
  simp only [Unfailing, hreply]
  constructor
  · intro hnone
    have h : gathering.failure = none := by
      cases hfailure : gathering.failure with
      | none => rfl
      | some failure => simp [told_of_failure hfailure] at hnone
    refine ⟨h, fun index question answer hquestion hsignal => ?_⟩
    cases houtcome : question.outcome answer with
    | ok rows => exact ⟨rows, rfl⟩
    | error failure =>
        have hsome := (failure_told_eq_some_iff h).2
          ⟨index, answer, question, hsignal, hquestion, houtcome⟩
        simp [hnone] at hsome
  · rintro ⟨h, hunfailing⟩
    cases hfailure : (gathering.told signal).failure with
    | none => rfl
    | some failure =>
        obtain ⟨index, answer, question, hsignal, hquestion, houtcome⟩ :=
          (failure_told_eq_some_iff h).1 hfailure
        obtain ⟨rows, hrows⟩ := hunfailing index question answer hquestion hsignal
        simp [hrows] at houtcome

/-- There is no failure as long as no answer fails its question. -/
theorem failure_after_eq_none_iff {signals : List Signal} :
    (gathering.after signals).failure = none ↔
      gathering.failure = none ∧ gathering.Unfailing signals := by
  induction signals generalizing gathering with
  | nil => simp [after, Unfailing, replyTo]
  | cons signal rest ih =>
      have hcons : signal :: rest = [signal] ++ rest := rfl
      rw [hcons, unfailing_append_iff, after_append, ← and_assoc, ← failure_told_eq_none_iff]
      exact ih

/-- The failure is that of the answer that is the first to fail its question. -/
theorem failure_after_eq_some_iff (h : gathering.failure = none) {signals : List Signal}
    {failure : Failure} :
    (gathering.after signals).failure = some failure ↔
      ∃ front index answer back question, signals = front ++ .part index answer :: back ∧
        gathering.question? index = some question ∧ replyTo index front = none ∧
          gathering.Unfailing front ∧ question.outcome answer = .error failure := by
  constructor
  · intro hsome
    induction signals generalizing gathering with
    | nil => exact absurd (h.symm.trans hsome) (by simp)
    | cons signal rest ih =>
        cases htold : (gathering.told signal).failure with
        | none =>
            obtain ⟨front, index, answer, back, question, rfl, hquestion, hopen, hfront,
                houtcome⟩ :=
              ih htold hsome
            have hfirst := (failure_told_eq_none_iff.1 htold).2
            obtain ⟨hquestion, hunanswered⟩ :
                gathering.question? index = some question ∧ replyTo index [signal] = none :=
              question?_after_iff.1 hquestion
            refine ⟨signal :: front, index, answer, back, question, rfl, hquestion, ?_, ?_,
              houtcome⟩
            · exact (replyTo_append index [signal] front).trans (by rw [hunanswered, hopen]; rfl)
            · show gathering.Unfailing ([signal] ++ front)
              exact unfailing_append_iff.2 ⟨hfirst, hfront⟩
        | some first =>
            obtain rfl : first = failure :=
              Option.some.inj ((after_of_failure htold rest).symm.trans hsome)
            obtain ⟨index, answer, question, rfl, hquestion, houtcome⟩ :=
              (failure_told_eq_some_iff h).1 htold
            refine ⟨[], index, answer, rest, question, rfl, hquestion, rfl, ?_, houtcome⟩
            intro other asked result _ hreply
            cases hreply
  · rintro ⟨front, index, answer, back, question, rfl, hquestion, hopen, hfront, houtcome⟩
    rw [after_append]
    have hnone : (gathering.after front).failure = none := failure_after_eq_none_iff.2 ⟨h, hfront⟩
    show (((gathering.after front).told (.part index answer)).after back).failure = some failure
    apply after_of_failure
    rw [told, answered, question?_after_iff.2 ⟨hquestion, hopen⟩]
    simp [settle, hnone, houtcome, Part.failure?]

end After

section Asking

variable {questions : List Question} {signals : List Signal}

/-- Questions that can all be put. -/
def asking (questions : List Question) : Gathering :=
  .ofQuestions (questions.map .ok)

theorem parts_asking : (asking questions).parts = questions.map .asked := by
  simp [asking, ofQuestions, Part.ofQuestion]

theorem failure_asking : (asking questions).failure = none := by
  simp [asking, ofQuestions, Part.ofQuestion, Part.failure?]

theorem question?_asking (index : Nat) :
    (asking questions).question? index = questions[index]? := by
  rw [question?, parts_asking, List.getElem?_map]
  cases questions[index]? <;> rfl

/-- Without a failure one goes on when all questions have been answered. -/
theorem ready_after_iff (h : (asking questions).Unfailing signals) :
    ((asking questions).after signals).ready = true ↔
      ∀ index < questions.length, ∃ answer, replyTo index signals = some answer := by
  have hnone := failure_after_eq_none_iff.2 ⟨failure_asking, h⟩
  simp only [ready, hnone, Option.isSome_none, Bool.false_or, List.isEmpty_iff, requests_eq_nil_iff,
    Option.eq_none_iff_forall_ne_some, ne_eq, question?_after_iff, question?_asking]
  constructor
  · intro hover index hindex
    cases hreply : replyTo index signals with
    | some answer => exact ⟨answer, rfl⟩
    | none =>
        have hopen := hover index _ ⟨List.getElem?_eq_getElem hindex, ?_⟩
        · exact hopen.elim
        · exact fun answer hanswer => by simp [hreply] at hanswer
  · rintro hreplied index question ⟨hquestion, hopen⟩
    obtain ⟨answer, hanswer⟩ := hreplied index (List.getElem?_eq_some_iff.1 hquestion).1
    exact hopen answer hanswer

/-- The rows that a question has come to are those of its first answer. -/
theorem rows_after {index : Nat} {question : Question}
    (hquestion : questions[index]? = some question)
    {answer : Except Failure QueryResult} (hanswer : replyTo index signals = some answer)
    {rows : List Row} (hrows : question.outcome answer = .ok rows) :
    (((asking questions).after signals).parts.map Part.rows)[index]? = some rows := by
  rw [List.getElem?_map, parts_after, parts_asking, List.getElem?_map, hquestion, hanswer]
  simp [Part.heard, hrows, Part.rows]

end Asking

end Gathering

end StarCube
