import Mathlib.Data.List.Infix
import StarCube.Masking
import StarCube.Proofs.Text.Blank
import StarCube.Proofs.Text.Bracketed

/-!
Passes of masks over a text. A pass goes from left to right, and each match of its shape is a front
of what is left. Where no match runs over the end of a part of the text, the part is masked as if it
stood alone.
-/

namespace StarCube.Masking

/-! ### Where a shape matches -/

theorem afterSeparator_eq_some_iff {text after : List Char} :
    afterSeparator text = some after ↔
      ∃ separator rest, (separator = '=' ∨ separator = ':') ∧ text = separator :: rest ∧
        after = rest.dropWhile Text.isBlank := by
  cases text with
  | nil => simp [afterSeparator]
  | cons c rest =>
      simp only [afterSeparator, Bool.or_eq_true, decide_eq_true_eq, List.cons.injEq]
      constructor
      · intro h
        split at h
        · rename_i hc
          exact ⟨c, rest, hc, ⟨rfl, rfl⟩, (Option.some.inj h).symm⟩
        · cases h
      · rintro ⟨_, _, hc, ⟨rfl, rfl⟩, rfl⟩
        rw [if_pos hc]

theorem afterRun_eq_some_iff {kind : Char → Bool} {text after : List Char} :
    afterRun kind text = some after ↔
      ∃ run, run ≠ [] ∧ (∀ c ∈ run, kind c = true) ∧ text = run ++ after ∧
        ∀ c ∈ after.head?, kind c = false := by
  constructor
  · intro h
    cases text with
    | nil => cases h
    | cons c rest =>
        rw [afterRun] at h
        split at h
        · rename_i hc
          obtain rfl := Option.some.inj h
          refine ⟨c :: rest.takeWhile kind, List.cons_ne_nil _ _, ?_, ?_, ?_⟩
          · simpa [hc] using fun d hd => List.mem_takeWhile_imp hd
          · rw [List.cons_append, List.takeWhile_append_dropWhile]
          · intro d hd
            have hne : rest.dropWhile kind ≠ [] := by rintro heq; simp [heq] at hd
            rw [List.head?_eq_some_head hne, Option.mem_def, Option.some.injEq] at hd
            simpa [hd] using List.head_dropWhile_not kind hne
        · cases h
  · rintro ⟨run, hne, hrun, rfl, hafter⟩
    cases run with
    | nil => exact absurd rfl hne
    | cons c run =>
        have hstop : after.dropWhile kind = after := by
          cases after with
          | nil => rfl
          | cons d after => exact List.dropWhile_cons_of_neg (by simp [hafter d rfl])
        rw [List.cons_append, afterRun, if_pos (hrun c List.mem_cons_self),
          List.dropWhile_append_of_pos fun d hd => hrun d (List.mem_cons_of_mem c hd), hstop]

theorem afterOne_eq_some_iff {kind : Char → Bool} {text after : List Char} :
    afterOne kind text = some after ↔ ∃ c, kind c = true ∧ text = c :: after := by
  cases text with
  | nil => simp [afterOne]
  | cons c rest =>
      by_cases h : kind c = true
      · simp [afterOne, h]
      · simp only [afterOne, if_neg h, reduceCtorEq, List.cons.injEq, false_iff]
        rintro ⟨_, hc, rfl, rfl⟩
        exact h hc

/-- Every match of a shape is a front of the text, and not an empty one. -/
def Consumes (shape : SecretShape) : Prop :=
  ∀ ⦃text after : List Char⦄, shape text = some after → ∃ front, front ≠ [] ∧ text = front ++ after

theorem Consumes.length_lt {shape : SecretShape} (h : Consumes shape) {text after : List Char}
    (hmatch : shape text = some after) : after.length < text.length := by
  obtain ⟨front, hne, rfl⟩ := h hmatch
  rw [List.length_append]
  exact Nat.lt_add_of_pos_left (List.length_pos_iff.2 hne)

/-- The shapes start with a keyword, and look at nothing before they have passed it. -/
theorem Consumes.of_keyword {keyword : String} (hkeyword : keyword.toList ≠ [])
    {next : List Char → Option (List Char)}
    (hnext : ∀ ⦃text after⦄, next text = some after → after <:+ text) :
    Consumes fun text => (Text.afterKeyword keyword.toList text).bind next := by
  intro text after h
  obtain ⟨rest, hword, hafter⟩ := Option.bind_eq_some_iff.1 h
  obtain ⟨word, rfl, hforms⟩ := Text.afterKeyword_eq_some_iff.1 hword
  obtain ⟨between, rfl⟩ := hnext hafter
  refine ⟨word ++ between, ?_, (List.append_assoc _ _ _).symm⟩
  rintro hnil
  obtain rfl := (List.append_eq_nil_iff.1 hnil).1
  cases hkey : keyword.toList with
  | nil => exact hkeyword hkey
  | cons => rw [hkey] at hforms; cases hforms

theorem afterSeparator_suffix {text after : List Char} (h : afterSeparator text = some after) :
    after <:+ text := by
  obtain ⟨separator, rest, -, rfl, rfl⟩ := afterSeparator_eq_some_iff.1 h
  exact (List.dropWhile_suffix _).trans (List.suffix_cons _ _)

theorem afterRun_suffix {kind : Char → Bool} {text after : List Char}
    (h : afterRun kind text = some after) : after <:+ text := by
  obtain ⟨run, -, -, rfl, -⟩ := afterRun_eq_some_iff.1 h
  exact List.suffix_append _ _

theorem afterOne_suffix {kind : Char → Bool} {text after : List Char}
    (h : afterOne kind text = some after) : after <:+ text := by
  obtain ⟨c, -, rfl⟩ := afterOne_eq_some_iff.1 h
  exact List.suffix_cons _ _

/-- Readers that go on in a text go on in it one after the other. -/
theorem suffix_of_bind {first next : List Char → Option (List Char)}
    (hfirst : ∀ ⦃text after⦄, first text = some after → after <:+ text)
    (hnext : ∀ ⦃text after⦄, next text = some after → after <:+ text) ⦃text after : List Char⦄
    (h : (first text).bind next = some after) : after <:+ text := by
  obtain ⟨rest, hrest, hafter⟩ := Option.bind_eq_some_iff.1 h
  exact (hnext hafter).trans (hfirst hrest)

theorem consumes_quotedSecret {keyword : String} (h : keyword.toList ≠ []) :
    Consumes (quotedSecret keyword) :=
  .of_keyword h <| suffix_of_bind (fun _ _ => afterSeparator_suffix) <|
    suffix_of_bind (fun _ _ => afterOne_suffix) <|
      suffix_of_bind (fun _ _ => afterRun_suffix) fun _ _ => afterOne_suffix

theorem consumes_bareSecret {keyword : String} (h : keyword.toList ≠ []) :
    Consumes (bareSecret keyword) :=
  .of_keyword h <| suffix_of_bind (fun _ _ => afterSeparator_suffix) fun _ _ => afterRun_suffix

theorem consumes_addressSecret : Consumes addressSecret :=
  .of_keyword (by decide) <| suffix_of_bind (fun _ _ => afterRun_suffix) <|
    suffix_of_bind (fun _ _ => afterOne_suffix) <|
      suffix_of_bind (fun _ _ => afterRun_suffix) fun _ _ => afterOne_suffix

theorem consumes_of_mem_rules {rule : SecretShape × String} (h : rule ∈ rules) :
    Consumes rule.1 := by
  simp only [rules, List.mem_cons, List.not_mem_nil, or_false] at h
  rcases h with rfl | rfl | rfl | rfl | rfl | rfl
  · exact consumes_quotedSecret (by decide)
  · exact consumes_bareSecret (by decide)
  · exact consumes_quotedSecret (by decide)
  · exact consumes_quotedSecret (by decide)
  · exact consumes_quotedSecret (by decide)
  · exact consumes_addressSecret

/-! ### One pass -/

section Pass

variable {shape : SecretShape} {mask : List Char}

theorem replaceFor_eq_replaceAll (h : Consumes shape) {rounds : Nat} {text : List Char}
    (hrounds : text.length ≤ rounds) :
    replaceFor shape mask rounds text = replaceAll shape mask text := by
  suffices ∀ (m n : Nat) (text : List Char), text.length ≤ m → text.length ≤ n →
      replaceFor shape mask m text = replaceFor shape mask n text from
    this _ _ _ hrounds le_rfl
  intro m
  induction m with
  | zero =>
      intro n text hm _
      obtain rfl := List.length_eq_zero_iff.1 (Nat.le_zero.1 hm)
      cases n <;> rfl
  | succ m ih =>
      intro n text hm hn
      cases text with
      | nil => cases n <;> rfl
      | cons c rest =>
          obtain ⟨n, rfl⟩ : ∃ k, n = k + 1 := ⟨n - 1, by simp at hn; omega⟩
          simp only [replaceFor]
          cases hshape : shape (c :: rest) with
          | none => simp only [ih n rest (by simpa using hm) (by simpa using hn)]
          | some after =>
              have hshort := h.length_lt hshape
              rw [List.length_cons] at hm hn hshort
              simp only [ih n after (by omega) (by omega)]

@[simp] theorem replaceAll_nil : replaceAll shape mask [] = [] := rfl

theorem replaceAll_of_none {c : Char} {rest : List Char} (h : shape (c :: rest) = none) :
    replaceAll shape mask (c :: rest) = c :: replaceAll shape mask rest := by
  simp only [replaceAll, List.length_cons, replaceFor, h]

theorem replaceAll_of_some (hshape : Consumes shape) {text after : List Char}
    (h : shape text = some after) :
    replaceAll shape mask text = mask ++ replaceAll shape mask after := by
  obtain ⟨front, hne, rfl⟩ := hshape h
  cases front with
  | nil => exact absurd rfl hne
  | cons c front =>
      rw [List.cons_append] at h
      simp only [List.cons_append, replaceAll, List.length_cons, replaceFor, h]
      rw [replaceFor_eq_replaceAll hshape (by simp), replaceAll]

/-- Where no match starts, a pass copies. -/
theorem replaceAll_append_of_none {front rest : List Char}
    (h : ∀ s, s <:+ front → s ≠ [] → shape (s ++ rest) = none) :
    replaceAll shape mask (front ++ rest) = front ++ replaceAll shape mask rest := by
  induction front with
  | nil => rfl
  | cons c front ih =>
      have hfirst := h (c :: front) List.suffix_rfl (List.cons_ne_nil c front)
      rw [List.cons_append] at hfirst
      rw [List.cons_append, replaceAll_of_none hfirst,
        ih fun s hs => h s (hs.trans (List.suffix_cons c front)), List.cons_append]

theorem replaceAll_of_forall_none {text : List Char}
    (h : ∀ s, s <:+ text → s ≠ [] → shape s = none) : replaceAll shape mask text = text := by
  have hcopied : replaceAll shape mask (text ++ []) = text ++ replaceAll shape mask [] :=
    replaceAll_append_of_none fun s hs hne => by rw [List.append_nil, h s hs hne]
  simpa using hcopied

theorem replaceAll_ne_nil (hshape : Consumes shape) (hmask : mask ≠ []) {text : List Char}
    (h : text ≠ []) : replaceAll shape mask text ≠ [] := by
  obtain ⟨c, rest, rfl⟩ := List.exists_cons_of_ne_nil h
  cases hmatch : shape (c :: rest) with
  | none => simp [replaceAll_of_none hmatch]
  | some after => simp [replaceAll_of_some hshape hmatch, hmask]

theorem replaceAll_eq_nil_iff (hshape : Consumes shape) (hmask : mask ≠ []) {text : List Char} :
    replaceAll shape mask text = [] ↔ text = [] :=
  ⟨fun h => by_contra fun hne => replaceAll_ne_nil hshape hmask hne h,
    fun h => by rw [h, replaceAll_nil]⟩

/-- A pass that leaves no mask has found no match. -/
theorem replaceAll_eq_self (hshape : Consumes shape) {text : List Char}
    (h : ¬ mask <:+: replaceAll shape mask text) : replaceAll shape mask text = text := by
  induction text with
  | nil => rfl
  | cons c rest ih =>
      cases hmatch : shape (c :: rest) with
      | none =>
          rw [replaceAll_of_none hmatch] at h ⊢
          rw [ih fun hmask => h (hmask.trans (List.suffix_cons c _).isInfix)]
      | some after =>
          rw [replaceAll_of_some hshape hmatch] at h
          exact absurd (List.prefix_append _ _).isInfix h

/-- A pass leaves the bare mask of what is one match, or was the mask before. -/
theorem eq_of_replaceAll_eq_mask (hshape : Consumes shape) (hmask : mask ≠ []) {text : List Char}
    (h : replaceAll shape mask text = mask) : shape text = some [] ∨ text = mask := by
  cases text with
  | nil => exact absurd h.symm hmask
  | cons c rest =>
      cases hmatch : shape (c :: rest) with
      | none =>
          rw [replaceAll_of_none hmatch] at h
          have hshort : ¬ mask <:+: replaceAll shape mask rest := fun hpart => by
            have := hpart.length_le
            rw [← congrArg List.length h, List.length_cons] at this
            omega
          rw [replaceAll_eq_self hshape hshort] at h
          exact .inr h
      | some after =>
          rw [replaceAll_of_some hshape hmatch, List.append_right_eq_self,
            replaceAll_eq_nil_iff hshape hmask] at h
          exact .inl (by rw [h])

/-- No match that starts in a part of a text runs over its end, and none stops short of there
because the part ends. -/
def Apart (shape : SecretShape) (part rest : List Char) : Prop :=
  ∀ s, s <:+ part → s ≠ [] → shape (s ++ rest) = (shape s).map (· ++ rest)

instance (shape : SecretShape) (part rest : List Char) : Decidable (Apart shape part rest) :=
  decidable_of_iff
    (∀ s ∈ part.tails, s ≠ [] → shape (s ++ rest) = (shape s).map (· ++ rest))
    (by simp only [List.mem_tails, Apart])

theorem Apart.replaceAll_append (hshape : Consumes shape) {part rest : List Char}
    (h : Apart shape part rest) :
    replaceAll shape mask (part ++ rest) =
      replaceAll shape mask part ++ replaceAll shape mask rest := by
  induction hn : part.length using Nat.strong_induction_on generalizing part with
  | _ n ih =>
      cases part with
      | nil => rfl
      | cons c part =>
          have hfirst := h (c :: part) List.suffix_rfl (List.cons_ne_nil c part)
          rw [List.cons_append] at hfirst
          have hlater : ∀ after, after <:+ c :: part → Apart shape after rest :=
            fun after hafter s hs => h s (hs.trans hafter)
          cases hmatch : shape (c :: part) with
          | none =>
              rw [hmatch] at hfirst
              rw [List.cons_append, replaceAll_of_none hfirst, replaceAll_of_none hmatch,
                ih part.length (by simp [← hn]) (hlater part (List.suffix_cons c part)) rfl,
                List.cons_append]
          | some after =>
              rw [hmatch] at hfirst
              obtain ⟨front, -, hpart⟩ := hshape hmatch
              have hshort := hn ▸ hshape.length_lt hmatch
              have hafter := hlater after (hpart ▸ List.suffix_append front after)
              rw [List.cons_append, replaceAll_of_some hshape hfirst,
                replaceAll_of_some hshape hmatch, ih after.length hshort hafter rfl,
                List.append_assoc]

end Pass

/-! ### All passes -/

/-- A text after passes of masks. -/
def maskWith (passes : List (SecretShape × String)) (text : List Char) : List Char :=
  passes.foldl (fun text rule => replaceAll rule.1 rule.2.toList text) text

variable {rule : SecretShape × String} {passes : List (SecretShape × String)}

theorem maskWith_cons (text : List Char) :
    maskWith (rule :: passes) text = maskWith passes (replaceAll rule.1 rule.2.toList text) := rfl

theorem maskWith_append (first later : List (SecretShape × String)) (text : List Char) :
    maskWith (first ++ later) text = maskWith later (maskWith first text) :=
  List.foldl_append

/-- Passes whose shapes consume and whose masks are not empty. -/
def Proper (passes : List (SecretShape × String)) : Prop :=
  ∀ rule ∈ passes, Consumes rule.1 ∧ rule.2.toList ≠ []

theorem proper_rules : Proper rules := fun rule h =>
  ⟨consumes_of_mem_rules h, by revert h; revert rule; decide⟩

theorem Proper.of_subset {passes' : List (SecretShape × String)} (h : Proper passes)
    (hsub : passes' ⊆ passes) : Proper passes' :=
  fun rule hrule => h rule (hsub hrule)

/-- Passes that leave none of their masks have found no match. -/
theorem Proper.eq_of_maskWith_eq (h : Proper passes) {text out : List Char}
    (hmasks : ∀ rule ∈ passes, ¬ rule.2.toList <:+: out) (hout : maskWith passes text = out) :
    text = out := by
  induction passes generalizing text with
  | nil => exact hout
  | cons rule passes ih =>
      have hself : replaceAll rule.1 rule.2.toList text = out :=
        ih (h.of_subset (List.subset_cons_self _ _))
          (fun rule' hrule' => hmasks rule' (List.mem_cons_of_mem rule hrule')) hout
      have hnone : ¬ rule.2.toList <:+: replaceAll rule.1 rule.2.toList text := by
        rw [hself]
        exact hmasks rule List.mem_cons_self
      rw [← hself, replaceAll_eq_self (h rule List.mem_cons_self).1 hnone]

/-- In none of the passes a match starts in a front, whatever follows it. -/
def Inert (passes : List (SecretShape × String)) (front : List Char) : Prop :=
  ∀ rule ∈ passes, ∀ s, s <:+ front → s ≠ [] → ∀ rest, rule.1 (s ++ rest) = none

theorem Inert.maskWith_append {front : List Char} (h : Inert passes front) (rest : List Char) :
    maskWith passes (front ++ rest) = front ++ maskWith passes rest := by
  induction passes generalizing rest with
  | nil => rfl
  | cons rule passes ih =>
      rw [maskWith_cons, replaceAll_append_of_none fun s hs hne =>
          h rule List.mem_cons_self s hs hne rest,
        ih (fun rule' hrule' => h rule' (List.mem_cons_of_mem rule hrule')), maskWith_cons]

theorem Inert.append {front back : List Char} (h : Inert passes front) (h' : Inert passes back) :
    Inert passes (front ++ back) := by
  intro rule hrule s ⟨before, hs⟩ hne rest
  obtain ⟨between, hfront, rfl⟩ | ⟨between, rfl, hback⟩ := List.append_eq_append_iff.1 hs
  · cases between with
    | nil =>
        exact h' rule hrule back List.suffix_rfl hne rest
    | cons c between =>
        rw [List.append_assoc]
        exact h rule hrule _ ⟨before, hfront.symm⟩ (List.cons_ne_nil c between) _
  · exact h' rule hrule s ⟨between, hback.symm⟩ hne rest

/-- A credential stands apart from what is before and behind it: in each pass, over what the
earlier passes have left of the three, no match runs from one of them into the next. -/
def Separate : List (SecretShape × String) → (before credential behind : List Char) → Prop
  | [], _, _, _ => True
  | rule :: passes, before, credential, behind =>
      Apart rule.1 before (credential ++ behind) ∧ Apart rule.1 credential behind ∧
        Separate passes (replaceAll rule.1 rule.2.toList before)
          (replaceAll rule.1 rule.2.toList credential) (replaceAll rule.1 rule.2.toList behind)

instance Separate.decidable : (passes : List (SecretShape × String)) →
    (before credential behind : List Char) → Decidable (Separate passes before credential behind)
  | [], _, _, _ => .isTrue trivial
  | _ :: passes, _, _, _ =>
      have := Separate.decidable passes
      inferInstanceAs (Decidable (_ ∧ _ ∧ _))

theorem Separate.maskWith_append (hpasses : Proper passes) {before credential behind : List Char}
    (h : Separate passes before credential behind) :
    maskWith passes (before ++ (credential ++ behind)) =
      maskWith passes before ++ (maskWith passes credential ++ maskWith passes behind) := by
  induction passes generalizing before credential behind with
  | nil => rfl
  | cons rule passes ih =>
      obtain ⟨hbefore, hcredential, hlater⟩ := h
      have hshape := (hpasses rule List.mem_cons_self).1
      simp only [maskWith_cons]
      rw [hbefore.replaceAll_append hshape, hcredential.replaceAll_append hshape,
        ih (hpasses.of_subset (List.subset_cons_self _ _)) hlater]

end StarCube.Masking
