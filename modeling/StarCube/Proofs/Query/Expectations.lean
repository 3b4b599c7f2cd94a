import StarCube.Proofs.Query.RoundTrip

/-!
What is expected next in a query. The grammar has no nesting, so the tokens from the front are told
by one of finitely many expectations, and a token that does not meet one is in no query behind them.
-/

namespace StarCube

namespace TokenKind

def name? : TokenKind → Option String
  | .name text => some text
  | _ => none

@[simp, grind =] theorem name?_eq_some_iff {kind : TokenKind} {text : String} :
    kind.name? = some text ↔ kind = .name text := by
  cases kind <;> simp [name?]

def isLiteral : TokenKind → Bool
  | .string _ | .integer _ | .real _ | .keyword .true | .keyword .false => true
  | _ => false

def isCube : TokenKind → Bool
  | .name _ | .word _ => true
  | _ => false

end TokenKind

/-- What a reference is read for: as a measure or a level of a select list, or in a condition. -/
inductive Purpose where
  | measure
  | level
  | filter
deriving DecidableEq

/-- What the next token of a query has to be, by what is before it. -/
inductive Expectation where
  | start
  | item
  | named (purpose : Purpose)
  | pointed (purpose : Purpose)
  | second (purpose : Purpose)
  | pointedAgain (purpose : Purpose)
  | third (purpose : Purpose)
  | source
  | sourced
  | condition
  | value
  | list
  | listValue
  | listed
  | compared
  | ended
  | finished
deriving DecidableEq

namespace Expectation

/-- What may follow a reference. -/
def leave (purpose : Purpose) (kind : TokenKind) : Option Expectation :=
  if purpose = .filter then
    if kind = .mark .equals then some value else if kind = .keyword .in then some list else none
  else if kind = .mark .comma then some item
  else if kind = .keyword .from then some source
  else none

/-- What may end a query. -/
def close (kind : TokenKind) : Option Expectation :=
  if kind = .mark .semicolon then some ended else if kind = .finish then some finished else none

/-- What is expected behind the next token, if the token is as expected. -/
def step (expectation : Expectation) (kind : TokenKind) : Option Expectation :=
  match expectation with
  | start => if kind = .keyword .select then some item else none
  | item => kind.name?.map fun word => named (if Reserved word then .measure else .level)
  | named purpose => if kind = .mark .point then some (pointed purpose) else none
  | pointed purpose => kind.name?.map fun _ => second purpose
  | second purpose =>
      if kind = .mark .point ∧ purpose ≠ .measure then some (pointedAgain purpose)
      else leave purpose kind
  | pointedAgain purpose => kind.name?.map fun _ => third purpose
  | third purpose => leave purpose kind
  | source => if kind.isCube then some sourced else none
  | sourced => if kind = .keyword .where then some condition else close kind
  | condition => kind.name?.bind fun word => if Reserved word then none else some (named .filter)
  | value => if kind.isLiteral then some compared else none
  | list => if kind = .mark .openParenthesis then some listValue else none
  | listValue => if kind.isLiteral then some listed else none
  | listed =>
      if kind = .mark .comma then some listValue
      else if kind = .mark .closeParenthesis then some compared
      else none
  | compared => if kind = .keyword .and then some condition else close kind
  | ended => if kind = .finish then some finished else none
  | finished => none

/-- What is expected behind tokens, if all of them are as expected. -/
def run (expectation : Expectation) (kinds : List TokenKind) : Option Expectation :=
  kinds.foldlM step expectation

@[simp] theorem run_nil (expectation : Expectation) : expectation.run [] = some expectation := rfl

@[simp] theorem run_cons (expectation : Expectation) (kind : TokenKind) (kinds : List TokenKind) :
    expectation.run (kind :: kinds) =
      (expectation.step kind).bind fun next => next.run kinds := rfl

theorem run_append (expectation : Expectation) (front back : List TokenKind) :
    expectation.run (front ++ back) =
      (expectation.run front).bind fun middle => middle.run back :=
  List.foldlM_append

/-- Behind the end of a text nothing is expected. -/
theorem step_finish {expectation next : Expectation} (h : expectation.step .finish = some next) :
    next = finished := by
  cases expectation <;>
    simp_all [step, leave, close, TokenKind.name?, TokenKind.isLiteral, TokenKind.isCube]

theorem run_finished_eq_some_iff {kinds : List TokenKind} {last : Expectation} :
    finished.run kinds = some last ↔ kinds = [] ∧ last = finished := by
  cases kinds with
  | nil => simp [eq_comm]
  | cons kind kinds => simp [step]

/-- Tokens behind which something is expected have no end among them. -/
theorem finish_not_mem {expectation last : Expectation} {kinds : List TokenKind}
    (h : expectation.run kinds = some last) (hlast : last ≠ finished) : .finish ∉ kinds := by
  intro hmem
  obtain ⟨front, back, rfl⟩ := List.append_of_mem hmem
  obtain ⟨middle, -, hback⟩ := Option.bind_eq_some_iff.1 (run_append _ _ _ ▸ h)
  obtain ⟨next, hstep, hrun⟩ := Option.bind_eq_some_iff.1 (run_cons _ _ _ ▸ hback)
  obtain rfl := step_finish hstep
  exact hlast (run_finished_eq_some_iff.1 hrun).2

/-! What has been read is told in part by what is expected. -/

variable {expectation last : Expectation} {kind : TokenKind} {kinds : List TokenKind}
  {purpose : Purpose}

theorem step_eq_second_iff : expectation.step kind = some (second purpose) ↔
    expectation = pointed purpose ∧ ∃ name, kind = .name name := by
  cases expectation <;>
    grind [step, leave, close, TokenKind.name?, Option.map_eq_some_iff, Option.bind_eq_some_iff]

theorem step_eq_pointed_iff : expectation.step kind = some (pointed purpose) ↔
    expectation = named purpose ∧ kind = .mark .point := by
  cases expectation <;>
    grind [step, leave, close, TokenKind.name?, Option.map_eq_some_iff, Option.bind_eq_some_iff]

theorem step_eq_named_measure_iff : expectation.step kind = some (named .measure) ↔
    expectation = item ∧ ∃ word, kind = .name word ∧ Reserved word := by
  cases expectation <;>
    grind [step, leave, close, TokenKind.name?, Option.map_eq_some_iff, Option.bind_eq_some_iff]

theorem mem_of_step_eq_item (h : expectation.step kind = some item) :
    kind ∈ [.keyword .select, .mark .comma] := by
  cases expectation <;>
    grind [step, leave, close, TokenKind.name?, Option.map_eq_some_iff, Option.bind_eq_some_iff]

theorem mem_of_step_eq_condition (h : expectation.step kind = some condition) :
    kind ∈ [.keyword .where, .keyword .and] := by
  cases expectation <;>
    grind [step, leave, close, TokenKind.name?, Option.map_eq_some_iff, Option.bind_eq_some_iff]

/-- A comma is followed by an item or by a literal. -/
theorem eq_of_step_opening (h : expectation.step kind = some last)
    (hkind : kind ∈ [.keyword .select, .mark .comma]) : last = item ∨ last = listValue := by
  simp only [List.mem_cons, List.not_mem_nil, or_false] at hkind
  rcases hkind with rfl | rfl <;> cases expectation <;>
    grind [step, leave, close, TokenKind.name?, TokenKind.isLiteral, TokenKind.isCube]

theorem eq_of_step_where (h : expectation.step kind = some last)
    (hkind : kind ∈ [.keyword .where, .keyword .and]) : last = condition := by
  simp only [List.mem_cons, List.not_mem_nil, or_false] at hkind
  rcases hkind with rfl | rfl <;> cases expectation <;>
    grind [step, leave, close, TokenKind.name?, TokenKind.isLiteral, TokenKind.isCube]

theorem run_concat_eq_some_iff : start.run (kinds ++ [kind]) = some last ↔
    ∃ middle, start.run kinds = some middle ∧ middle.step kind = some last := by
  simp [run_append, Option.bind_eq_some_iff]

theorem exists_concat_of_run (h : start.run kinds = some last) (hlast : last ≠ start) :
    ∃ before kind middle, kinds = before ++ [kind] ∧ start.run before = some middle ∧
      middle.step kind = some last := by
  obtain rfl | ⟨before, kind, rfl⟩ := List.eq_nil_or_concat kinds
  · exact absurd (Option.some.inj h).symm hlast
  · rw [List.concat_eq_append] at h ⊢
    obtain ⟨middle, hbefore, hstep⟩ := run_concat_eq_some_iff.1 h
    exact ⟨before, kind, middle, rfl, hbefore, hstep⟩

/-- The reference of a measure has been read. -/
theorem eq_second_measure_iff (h : start.run kinds = some last) : last = second .measure ↔
    ∃ before opening word name, opening ∈ [.keyword .select, .mark .comma] ∧ Reserved word ∧
      kinds = before ++ [opening, .name word, .mark .point, .name name] := by
  constructor
  · rintro rfl
    obtain ⟨_, _, _, rfl, hrun, hsecond⟩ := exists_concat_of_run h (by simp)
    obtain ⟨rfl, name, rfl⟩ := step_eq_second_iff.1 hsecond
    obtain ⟨_, _, _, rfl, hrun', hpointed⟩ := exists_concat_of_run hrun (by simp)
    obtain ⟨rfl, rfl⟩ := step_eq_pointed_iff.1 hpointed
    obtain ⟨_, _, _, rfl, hrun'', hnamed⟩ := exists_concat_of_run hrun' (by simp)
    obtain ⟨rfl, word, rfl, hword⟩ := step_eq_named_measure_iff.1 hnamed
    obtain ⟨before, opening, _, rfl, -, hitem⟩ := exists_concat_of_run hrun'' (by simp)
    exact ⟨before, opening, word, name, mem_of_step_eq_item hitem, hword, by simp⟩
  · rintro ⟨before, opening, word, name, hopening, hword, rfl⟩
    have hsplit : before ++ [opening, .name word, .mark .point, .name name] =
        before ++ [opening] ++ [.name word] ++ [.mark .point] ++ [.name name] := by simp
    rw [hsplit] at h
    obtain ⟨_, hrun, hsecond⟩ := run_concat_eq_some_iff.1 h
    obtain ⟨_, hrun', hpointed⟩ := run_concat_eq_some_iff.1 hrun
    obtain ⟨_, hrun'', hnamed⟩ := run_concat_eq_some_iff.1 hrun'
    obtain ⟨_, -, hitem⟩ := run_concat_eq_some_iff.1 hrun''
    rcases eq_of_step_opening hitem hopening with rfl | rfl
    · obtain rfl : named .measure = _ := by simpa [step, TokenKind.name?, hword] using hnamed
      obtain rfl : pointed .measure = _ := by simpa [step] using hpointed
      simpa [step, TokenKind.name?] using hsecond.symm
    · simp [step, TokenKind.isLiteral] at hnamed

theorem eq_condition_iff (h : start.run kinds = some last) : last = condition ↔
    ∃ before opening, opening ∈ [.keyword .where, .keyword .and] ∧ kinds = before ++ [opening] := by
  constructor
  · rintro rfl
    obtain ⟨before, opening, _, rfl, -, hstep⟩ := exists_concat_of_run h (by simp)
    exact ⟨before, opening, mem_of_step_eq_condition hstep, rfl⟩
  · rintro ⟨before, opening, hopening, rfl⟩
    obtain ⟨_, -, hstep⟩ := run_concat_eq_some_iff.1 h
    exact eq_of_step_where hstep hopening

end Expectation

/-! ### Tokens that are not as expected -/

open Token

namespace Token

/-- Behind the first name of a reference, tokens break it off in front of the rest. -/
inductive BrokenOff : List Token → List Token → Prop where
  | point {tokens : List Token} (h : (front tokens).kind ≠ .mark .point) : BrokenOff tokens tokens
  | second {point : Token} {rest : List Token} (hpoint : point.kind = .mark .point)
      (h : (front rest).kind.name? = none) : BrokenOff (point :: rest) rest
  | third {point second again : Token} {name : String} {rest : List Token}
      (hpoint : point.kind = .mark .point) (hsecond : second.kind = .name name)
      (hagain : again.kind = .mark .point)
      (h : (front rest).kind.name? = none) : BrokenOff (point :: second :: again :: rest) rest

/-- A fault is laid on the token that `count` tokens stand before, none of them the end. -/
def Blames (tokens : List Token) (count : Nat) (fault : QueryTextFault) : Prop :=
  (∀ token ∈ tokens.take count, token.kind ≠ .finish) ∧
    ∃ reason, fault = (front (tokens.drop count)).fault reason

end Token

namespace Expectation

/-- The parser reads on over the next token although it is not expected: over a point behind a
measure, and over a reserved name in a condition if the reference is broken off behind it. -/
def Overlooks (expectation : Expectation) (tokens : List Token) : Prop :=
  (expectation = second .measure ∧ (front tokens).kind = .mark .point) ∨
    (expectation = condition ∧ ∃ token more rest, tokens = token :: more ∧
      (∃ word, token.kind = .name word ∧ Reserved word) ∧ BrokenOff more rest)

/-- No token that is not expected is read on over. -/
def heeds : Expectation → Bool
  | second _ | condition | finished => false
  | _ => true

/-- Tokens up to the rest are as expected, and what is next is expected as at `exit`. -/
def Passes (entry exit : Expectation) (tokens rest : List Token) : Prop :=
  ∃ taken last, tokens = taken ++ rest ∧ entry.run (taken.map Token.kind) = some last ∧
    last ≠ finished ∧ last.step (front rest).kind = exit.step (front rest).kind ∧
      (last.Overlooks rest ↔ exit.Overlooks rest)

/-- Tokens go as expected up to one that does not. A fault is laid on that one, unless the parser
reads on over it. -/
def Halts (entry : Expectation) (tokens : List Token) (fault : QueryTextFault) : Prop :=
  ∃ taken rest last count, tokens = taken ++ rest ∧
    entry.run (taken.map Token.kind) = some last ∧ last ≠ finished ∧
      last.step (front rest).kind = none ∧ Blames tokens count fault ∧
        (count = taken.length ↔ ¬ last.Overlooks rest)

variable {entry middle exit : Expectation} {tokens more rest : List Token} {fault : QueryTextFault}

theorem ne_finished_of_heeds (h : entry.heeds = true) : entry ≠ finished := by
  rintro rfl
  cases h

theorem not_overlooks_of_heeds (h : entry.heeds = true) (tokens : List Token) :
    ¬ entry.Overlooks tokens := by
  rintro (⟨rfl, -⟩ | ⟨rfl, -⟩) <;> cases h

theorem Passes.nil (h : entry ≠ finished) (tokens : List Token) :
    entry.Passes entry tokens tokens :=
  ⟨[], entry, rfl, rfl, h, rfl, Iff.rfl⟩

theorem Passes.of_run (taken : List Token) (htokens : tokens = taken ++ rest)
    (hrun : entry.run (taken.map Token.kind) = some exit) (h : exit ≠ finished) :
    entry.Passes exit tokens rest :=
  ⟨taken, exit, htokens, hrun, h, rfl, Iff.rfl⟩

theorem Passes.trans (h : entry.Passes middle tokens more) (h' : middle.Passes exit more rest) :
    entry.Passes exit tokens rest := by
  obtain ⟨taken, last, rfl, hrun, hgoing, hstep, hoverlooks⟩ := h
  obtain ⟨taken', last', rfl, hrun', hgoing', hstep', hoverlooks'⟩ := h'
  cases taken' with
  | nil =>
      obtain rfl := Option.some.inj hrun'
      exact ⟨taken, last, rfl, hrun, hgoing, hstep.trans hstep', hoverlooks.trans hoverlooks'⟩
  | cons token taken' =>
      refine ⟨taken ++ token :: taken', last', by simp, ?_, hgoing', hstep', hoverlooks'⟩
      simp only [front, List.cons_append] at hstep
      rw [List.map_append, run_append, hrun, Option.bind_some, ← hrun', List.map_cons, run_cons,
        run_cons, hstep]

theorem Passes.halts (h : entry.Passes middle tokens more) (h' : middle.Halts more fault) :
    entry.Halts tokens fault := by
  obtain ⟨taken, last, rfl, hrun, hgoing, hstep, hoverlooks⟩ := h
  obtain ⟨taken', rest, last', count, rfl, hrun', hgoing', hnone, ⟨hopen, reason, hfault⟩,
    hcount⟩ := h'
  have hblames : Blames (taken ++ (taken' ++ rest)) (taken.length + count) fault := by
    refine ⟨?_, reason, by rw [List.drop_length_add_append, hfault]⟩
    rw [List.take_length_add_append]
    refine List.forall_mem_append.2 ⟨fun token htoken heq => ?_, hopen⟩
    exact finish_not_mem hrun hgoing (heq ▸ List.mem_map_of_mem htoken)
  cases taken' with
  | nil =>
      obtain rfl := Option.some.inj hrun'
      refine ⟨taken, rest, last, taken.length + count, rfl, hrun, hgoing, hstep.trans hnone,
        hblames, ?_⟩
      rw [List.nil_append] at hoverlooks
      rw [hoverlooks, ← hcount]
      simp
  | cons token taken' =>
      refine ⟨taken ++ token :: taken', rest, last', taken.length + count, by simp, ?_, hgoing',
        hnone, hblames, ?_⟩
      · simp only [front, List.cons_append] at hstep
        rw [List.map_append, run_append, hrun, Option.bind_some, ← hrun', List.map_cons, run_cons,
          run_cons, hstep]
      · rw [← hcount, List.length_append]
        omega

theorem Passes.run_eq_finished (h : entry.Passes exit tokens rest) (hclosed : Token.Closed tokens)
    (hrest : (front rest).kind = .finish) (hexit : exit.step .finish = some finished) :
    entry.run (tokens.map Token.kind) = some finished := by
  obtain ⟨taken, last, rfl, hrun, hgoing, hstep, -⟩ := h
  have hlast : rest.map Token.kind = [.finish] :=
    hclosed.map_kind_rest ⟨taken, rfl, rfl⟩ (finish_not_mem hrun hgoing) hrest
  rw [hrest, hexit] at hstep
  simp [run_append, hrun, hlast, hstep]

/-- A fault that is laid on the next token, which is not expected. -/
theorem Halts.of_step (h : entry ≠ finished) (hstep : entry.step (front tokens).kind = none)
    (hoverlooks : ¬ entry.Overlooks tokens) (reason : SyntaxReason) :
    entry.Halts tokens ((front tokens).fault reason) :=
  ⟨[], tokens, entry, 0, rfl, rfl, h, hstep, ⟨by simp, reason, rfl⟩, by simpa using hoverlooks⟩

theorem Halts.of_heeds (h : entry.heeds = true) (hstep : entry.step (front tokens).kind = none)
    (reason : SyntaxReason) : entry.Halts tokens ((front tokens).fault reason) :=
  .of_step (ne_finished_of_heeds h) hstep (not_overlooks_of_heeds h tokens) reason

end Expectation

end StarCube
