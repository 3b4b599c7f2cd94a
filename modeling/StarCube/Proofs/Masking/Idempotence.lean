import StarCube.Proofs.Masking.Remains

/-!
Masking a message twice. The passes over labels come first and leave nothing that they would find
again, but the pass over addresses, which comes last, takes in quotes and semicolons: behind a label
it may leave a value between quotes where there was none, and the next masking takes that value in.
There is no other way in which a second masking makes a difference.
-/

namespace StarCube.Masking

variable {text : List Char}

/-- A text with the users and passwords of its addresses masked. -/
def maskAddresses (text : List Char) : List Char :=
  replaceAll addressSecret "://***:***@".toList text

theorem maskWith_rules_eq (text : List Char) :
    maskWith rules text = maskAddresses (maskWith (rules.take 5) text) := rfl

/-! ### Addresses twice -/

/-- Behind the first character of an address no masked address starts. -/
theorem ne_mask_of_suffix {user password s : List Char}
    (huser : ∀ c ∈ user, isUserPart c = true) (hpassword : ∀ c ∈ password, isPasswordPart c = true)
    (hs : s <:+ '/' :: '/' :: (user ++ ':' :: (password ++ ['@']))) (hne : s ≠ [])
    (rest more : List Char) : s ++ rest ≠ "://***:***@".toList ++ more := by
  intro heq
  have hmask : "://***:***@".toList = ':' :: '/' :: "/***:***@".toList := by decide
  obtain ⟨c, s, rfl⟩ := List.exists_cons_of_ne_nil hne
  rw [hmask, List.cons_append, List.cons_append, List.cons_append, List.cons.injEq] at heq
  obtain ⟨rfl, heq⟩ := heq
  cases s with
  | nil =>
      have hlast : '/' :: '/' :: (user ++ ':' :: (password ++ ['@'])) =
          ('/' :: '/' :: (user ++ ':' :: password)) ++ ['@'] := by simp
      rw [hlast, List.singleton_suffix_append_singleton_iff] at hs
      cases hs
  | cons d s =>
      obtain ⟨rfl, -⟩ := List.cons.inj heq
      have hlater : ':' :: '/' :: s <:+ user ++ ':' :: (password ++ ['@']) := by
        simpa [List.suffix_cons_iff] using hs
      have hslash : '/' ∈ user ++ ':' :: (password ++ ['@']) := hlater.subset (by simp)
      simp only [List.mem_append, List.mem_cons] at hslash
      rcases hslash with hmem | hmem | hmem | hmem | hmem
      · cases huser _ hmem
      · cases hmem
      · cases hpassword _ hmem
      · cases hmem
      · cases hmem

/-- Masked addresses are masked. -/
theorem maskAddresses_maskAddresses (text : List Char) :
    maskAddresses (maskAddresses text) = maskAddresses text := by
  refine closed_addressSecret.replaceAll_replaceAll consumes_addressSecret (by decide) ?_
  intro c front rest hmatch s hs hne
  obtain ⟨user, password, heq, -, huser, -, hpassword⟩ := addressSecret_eq_some_iff.1 hmatch
  have hopening : "://".toList = ':' :: '/' :: ['/'] := by decide
  have hfront : front = '/' :: '/' :: (user ++ ':' :: (password ++ ['@'])) := by
    rw [hopening, List.cons_append, List.cons.injEq] at heq
    exact List.append_cancel_right (heq.2.trans (by simp))
  exact ne_mask_of_suffix huser hpassword (hfront ▸ hs) hne rest

/-! ### When nothing is left to find -/

theorem maskWith_eq_self {passes : List (SecretShape × String)}
    (h : ∀ rule ∈ passes, Free rule.1 text) : maskWith passes text = text := by
  induction passes with
  | nil => rfl
  | cons rule passes ih =>
      rw [List.forall_mem_cons] at h
      rw [maskWith_cons, h.1.replaceAll_eq, ih h.2]

/-- No mask has quotes. -/
theorem isQuote_of_mem_rules {rule : SecretShape × String} (h : rule ∈ rules) :
    ∀ c ∈ rule.2.toList, isQuote c = false := by
  have hall : (rules.all fun rule => rule.2.toList.all fun c => !isQuote c) = true := by decide
  intro c hc
  simpa using List.all_eq_true.1 (List.all_eq_true.1 hall rule h) c hc

theorem countP_maskWith_le {passes : List (SecretShape × String)} (h : passes ⊆ rules) :
    (maskWith passes text).countP isQuote ≤ text.countP isQuote := by
  induction passes generalizing text with
  | nil => exact Nat.le_refl _
  | cons rule passes ih =>
      have hrule := h List.mem_cons_self
      rw [maskWith_cons]
      exact (ih fun _ hmem => h (List.mem_cons_of_mem rule hmem)).trans
        (countP_replaceAll_le (consumes_of_mem_rules hrule) (isQuote_of_mem_rules hrule))

/-- Passes that take in quotes with what they find leave less of them, or find nothing. -/
theorem free_or_countP_maskWith_lt {passes : List (SecretShape × String)} (hrules : passes ⊆ rules)
    (h : ∀ rule ∈ passes, Free rule.1 text ∨
      ∀ s after, rule.1 s = some after → after.countP isQuote < s.countP isQuote) :
    (∀ rule ∈ passes, Free rule.1 text) ∨
      (maskWith passes text).countP isQuote < text.countP isQuote := by
  induction passes with
  | nil => exact .inl fun _ hrule => nomatch hrule
  | cons rule passes ih =>
      rw [List.forall_mem_cons] at h
      have hrule := hrules List.mem_cons_self
      have hlater : passes ⊆ rules := fun _ hmem => hrules (List.mem_cons_of_mem rule hmem)
      have hfirst : Free rule.1 text ∨
          (replaceAll rule.1 rule.2.toList text).countP isQuote < text.countP isQuote :=
        h.1.elim .inl
          (free_or_countP_lt (consumes_of_mem_rules hrule) (isQuote_of_mem_rules hrule))
      rw [maskWith_cons]
      rcases hfirst with hfree | hless
      · rw [hfree.replaceAll_eq]
        exact (ih hlater h.2).imp_left fun hall => List.forall_mem_cons.2 ⟨hfree, hall⟩
      · exact .inr (Nat.lt_of_le_of_lt (countP_maskWith_le hlater) hless)

theorem countP_lt_of_quotedSecret {field : Field} {after : List Char}
    (h : quotedSecret field.keyword text = some after) :
    after.countP isQuote < text.countP isQuote := by
  obtain ⟨label, opening, value, closing, rfl, hopening, -⟩ := quotedSecret_eq_some_iff.1 h
  simp only [List.countP_append, List.countP_cons, hopening, if_true]
  omega

/-- Masked addresses are left by all passes just if no quoted value stands behind a label. -/
theorem maskWith_rules_maskAddresses_iff (hbare : ¬ Shows .password .bare (maskAddresses text)) :
    maskWith rules (maskAddresses text) = maskAddresses text ↔
      ∀ field, ¬ Shows field .quoted (maskAddresses text) := by
  have hfree := free_shape_iff.2 hbare
  constructor
  · intro hself
    rcases free_or_countP_maskWith_lt (List.take_subset 5 rules) (forall_mem_earlier_iff.2
      ⟨fun _ => .inr fun _ _ hmatch => countP_lt_of_quotedSecret hmatch, .inl hfree⟩)
      with hall | hless
    · exact fun field => free_shape_iff.1 ((forall_mem_earlier_iff.1 hall).1 field)
    · -- The passes over labels leave less quotes, and that over addresses does not bring any.
      have hle := @countP_maskWith_le (maskWith (rules.take 5) (maskAddresses text))
        (rules.drop 5) (List.drop_subset 5 rules)
      rw [← maskWith_append, List.take_append_drop, hself] at hle
      exact absurd hle (Nat.not_le_of_lt hless)
  · intro hquoted
    have hall : ∀ rule ∈ rules.take 5, Free rule.1 (maskAddresses text) :=
      forall_mem_earlier_iff.2 ⟨fun field => free_shape_iff.2 (hquoted field), hfree⟩
    rw [maskWith_rules_eq, maskWith_eq_self hall, maskAddresses_maskAddresses]

/-! ### Values that are uncovered -/

/-- Behind a label stand two quotes around something that is no value, because a quote or a
semicolon is in it, and that becomes one when addresses are masked. No address runs over the label
or the quotes: what is before, between and behind them is masked as if it stood alone. -/
def Uncovers (text : List Char) : Prop :=
  ∃ (field : Field) (label : Label field) (opening closing : Char)
    (before value behind : List Char),
    isQuote opening = true ∧ isQuote closing = true ∧
    text = before ++ (label.chars ++ opening :: (value ++ closing :: behind)) ∧
    maskAddresses text = maskAddresses before ++ (label.chars ++
      opening :: (maskAddresses value ++ closing :: maskAddresses behind)) ∧
    (∃ c ∈ value, isQuotedPart c = false) ∧ ∀ c ∈ maskAddresses value, isQuotedPart c = true

theorem Uncovers.shows (h : Uncovers text) : ∃ field, Shows field .quoted (maskAddresses text) := by
  obtain ⟨field, label, opening, closing, before, value, behind, hopening, hclosing, -, hleft,
    ⟨c, hc, -⟩, hvalue⟩ := h
  have hne : maskAddresses value ≠ [] :=
    replaceAll_ne_nil consumes_addressSecret (by decide) (List.ne_nil_of_mem hc)
  have hstarts := starts_quoted_iff.2
    ⟨hopening, _, closing, maskAddresses behind, rfl, hne, hvalue, hclosing⟩
  exact ⟨field, label, _, hstarts, hleft ▸ List.suffix_append _ _⟩

theorem quote_not_mem_address {c : Char} (hc : isQuote c = true) : c ∉ "://***:***@".toList := by
  intro hmem
  have := isQuote_of_mem_rules (List.getLast_mem (by decide : rules ≠ [])) c hmem
  simp [hc] at this

theorem Shows.uncovers {field : Field} (hnone : ¬ Shows field .quoted text)
    (h : Shows field .quoted (maskAddresses text)) : Uncovers text := by
  have hshape := consumes_addressSecret
  have hclosed := closed_addressSecret
  have hmask : "://***:***@".toList ≠ [] := by decide
  obtain ⟨label, rest, hstarts, front, hleft⟩ := h
  obtain ⟨before, quoted, rfl, -, hquoted, hbefore⟩ :=
    exists_split_label hshape aloof_address label hstarts hleft.symm
  obtain ⟨opening, inner, rfl, -⟩ := id hstarts
  obtain ⟨hopening, masked, closing, last, rfl, hne, hmasked, hclosing⟩ :=
    starts_quoted_iff.1 hstarts
  obtain ⟨inner, rfl, hinner⟩ :=
    exists_copy_cons hshape hmask (quote_not_mem_address hopening) hquoted
  obtain ⟨value, behind, rfl, rfl, rfl⟩ :=
    exists_split_cons hshape hclosed hmask (quote_not_mem_address hclosing) hinner
  refine ⟨field, label, opening, closing, before, value, behind, hopening, hclosing, rfl, ?_, ?_,
    hmasked⟩
  · rw [← hleft, ← hbefore hclosed]
    rfl
  · -- A value without quotes and semicolons would have been masked before.
    by_contra hparts
    have hvalue : ∀ c ∈ value, isQuotedPart c = true := fun c hc => by
      by_contra hpart
      exact hparts ⟨c, hc, Bool.eq_false_iff.2 hpart⟩
    have hvne : value ≠ [] := fun heq => hne (by rw [heq, replaceAll_nil])
    exact hnone ⟨label, _, starts_quoted_iff.2 ⟨hopening, value, closing, behind, rfl, hvne, hvalue,
      hclosing⟩, List.suffix_append before _⟩

/-- Masking a message twice is masking it once, unless the masks of addresses uncover a value. -/
theorem maskCredentials_maskCredentials_iff (message : String) :
    maskCredentials (maskCredentials message) = maskCredentials message ↔
      ¬ Uncovers (maskWith (rules.take 5) message.toList) := by
  have hmasked : ∀ message : String,
      maskCredentials message = String.ofList (maskWith rules message.toList) := fun _ => rfl
  have hbare : ¬ Shows .password .bare (maskAddresses (maskWith (rules.take 5) message.toList)) :=
    fun hshows => not_shows_maskWith (mem_labelled_iff.2 (.inr rfl)) hshows.of_address
  rw [hmasked, hmasked message, String.toList_ofList, String.ofList_inj,
    maskWith_rules_eq message.toList,
    maskWith_rules_maskAddresses_iff hbare, ← not_exists, not_iff_not]
  constructor
  · rintro ⟨field, hshows⟩
    exact hshows.uncovers (not_shows_maskWith (mem_labelled_iff.2 (.inl rfl)))
  · exact Uncovers.shows

/-- The semicolon keeps the value from the pass over tokens, and the mask of the address takes
it. -/
theorem exists_maskCredentials_ne :
    ∃ message, maskCredentials (maskCredentials message) ≠ maskCredentials message :=
  ⟨"token='https://ada;x:pw@db/key'", by decide +kernel⟩

end StarCube.Masking
