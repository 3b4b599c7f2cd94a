import StarCube.Proofs.Masking.Shapes

/-!
Credentials in messages. The secret of a credential is hidden if and only if its shape takes in all
of the credential when its turn comes: then what is left does not depend on the secret.
-/

namespace StarCube.Masking

/-- How a credential is written around its secret. -/
inductive Credential where
  | quoted (field : Field) (label : Label field) (quote : Char) (isQuote : isQuote quote = true)
  | bare (label : Label .password)
  | address

namespace Credential

/-- The message text of a credential. The secret of an address is its user and password. -/
def write : Credential → List Char → List Char
  | quoted _ label quote _, secret => label.chars ++ quote :: (secret ++ [quote])
  | bare label, secret => label.chars ++ secret
  | address, secret => "://".toList ++ (secret ++ ['@'])

/-- What stands in a credential as its secret: up to the closing quote, up to the next white space,
or a user and a password around a colon. -/
def Holds : Credential → List Char → Prop
  | quoted _ _ quote _, secret => quote ∉ secret
  | bare _, secret =>
      secret ≠ [] ∧ (∀ c ∈ secret, Text.isBlank c = false) ∧ ∀ c ∈ secret.head?, isQuote c = false
  | address, secret =>
      ∃ user password, secret = user ++ ':' :: password ∧ (∀ c ∈ user, isUserPart c = true) ∧
        ∀ c ∈ password, isPasswordPart c = true

/-- The number of passes before the one that is meant for a credential. -/
def rank : Credential → Nat
  | quoted field _ _ _ => field.rank
  | bare _ => 1
  | address => 5

/-- The pass that is meant for a credential. -/
def rule : Credential → SecretShape × String
  | quoted field _ _ _ => (quotedSecret field.keyword, field.keyword ++ "=***")
  | bare _ => (bareSecret Field.password.keyword, "password=***")
  | address => (addressSecret, "://***:***@")

def mask (credential : Credential) : List Char :=
  credential.rule.2.toList

/-- The secrets that a shape takes in whole: between quotes, something without quotes and
semicolons; behind a bare password, word characters alone; in an address, a user and a password. A
pass sees what the passes before it have left. -/
def Admits : Credential → List Char → Prop
  | quoted field _ quote _, secret =>
      ∃ inner closing, maskWith (rules.take field.rank) (secret ++ [quote]) = inner ++ [closing] ∧
        inner ≠ [] ∧ (∀ c ∈ inner, isQuotedPart c = true) ∧ isQuote closing = true
  | bare _, secret => secret ≠ [] ∧ ∀ c ∈ secret, Text.isWordCharacter c = true
  | address, secret =>
      ∃ user password,
        maskWith (rules.take 5) (secret ++ ['@']) = user ++ ':' :: (password ++ ['@']) ∧
        user ≠ [] ∧ (∀ c ∈ user, isUserPart c = true) ∧
        password ≠ [] ∧ ∀ c ∈ password, isPasswordPart c = true

theorem rules_eq (credential : Credential) :
    rules = rules.take credential.rank ++ credential.rule :: rules.drop (credential.rank + 1) := by
  rcases credential with ⟨_ | _ | _ | _, _, _, _⟩ | _ | _ <;> rfl

theorem maskWith_rules (credential : Credential) (text : List Char) :
    maskWith rules text = maskWith (rules.drop (credential.rank + 1))
      (replaceAll credential.rule.1 credential.mask
        (maskWith (rules.take credential.rank) text)) := by
  conv_lhs => rw [credential.rules_eq]
  rw [maskWith_append, maskWith_cons]
  rfl

/-! ### What earlier passes leave of a credential -/

theorem maskWith_quoted {field : Field} (label : Label field) {quote : Char}
    (hquote : isQuote quote = true) (rest : List Char) :
    maskWith (rules.take field.rank) (label.chars ++ quote :: rest) =
      label.chars ++ quote :: maskWith (rules.take field.rank) rest := by
  have hlabel := label.inert fun _ h => keyed_of_mem_take h
  have hmark : Inert (rules.take field.rank) [quote] :=
    inert_of_foreign (fun _ h => (keyed_of_mem_take h).imp fun _ hk => hk.2)
      (by simpa using foreign_of_isQuote hquote)
  simpa using (hlabel.append hmark).maskWith_append rest

theorem maskWith_address (rest : List Char) :
    maskWith (rules.take 5) ("://".toList ++ rest) = "://".toList ++ maskWith (rules.take 5) rest :=
  (inert_of_foreign (fun _ h => keyed_of_mem_earlier h)
    (forall_mem_of_all (by decide))).maskWith_append rest

theorem quotedSecret_eq_some_nil_iff {field : Field} (label : Label field) {quote : Char}
    (hquote : isQuote quote = true) {rest : List Char} :
    quotedSecret field.keyword (label.chars ++ quote :: rest) = some [] ↔
      ∃ inner closing, rest = inner ++ [closing] ∧ inner ≠ [] ∧
        (∀ c ∈ inner, isQuotedPart c = true) ∧ isQuote closing = true := by
  rw [label.quotedSecret_chars (isBlank_of_isQuote hquote), afterOne, if_pos hquote,
    Option.bind_some, Option.bind_eq_some_iff]
  constructor
  · rintro ⟨last, hrun, hlast⟩
    obtain ⟨closing, hclosing, rfl⟩ := afterOne_eq_some_iff.1 hlast
    obtain ⟨inner, hne, hinner, rfl, -⟩ := afterRun_eq_some_iff.1 hrun
    exact ⟨inner, closing, rfl, hne, hinner, hclosing⟩
  · rintro ⟨inner, closing, rfl, hne, hinner, hclosing⟩
    refine ⟨[closing], afterRun_eq_some_iff.2 ⟨inner, hne, hinner, rfl, ?_⟩,
      afterOne_eq_some_iff.2 ⟨closing, hclosing, rfl⟩⟩
    simpa [isQuotedPart] using fun h => absurd hclosing (by simp [h])

theorem addressSecret_eq_some_nil_iff {rest : List Char} :
    addressSecret ("://".toList ++ rest) = some [] ↔
      ∃ user password, rest = user ++ ':' :: (password ++ ['@']) ∧
        user ≠ [] ∧ (∀ c ∈ user, isUserPart c = true) ∧
        password ≠ [] ∧ ∀ c ∈ password, isPasswordPart c = true := by
  simp only [addressSecret_eq_some_iff, List.append_cancel_left_eq]

theorem exists_separator {keyword : String} {text after : List Char}
    (h : quotedSecret keyword text = some after) : ∃ c ∈ text, c = '=' ∨ c = ':' := by
  obtain ⟨rest, hword, h⟩ := Option.bind_eq_some_iff.1 h
  obtain ⟨behind, hseparator, -⟩ := Option.bind_eq_some_iff.1 h
  obtain ⟨word, rfl, -⟩ := Text.afterKeyword_eq_some_iff.1 hword
  obtain ⟨separator, rest, hc, rfl, -⟩ := afterSeparator_eq_some_iff.1 hseparator
  exact ⟨separator, List.mem_append_right _ List.mem_cons_self, hc⟩

theorem forall_isWordCharacter_iff {text : List Char} :
    (∀ c ∈ maskWith (rules.take 1) text, Text.isWordCharacter c = true) ↔
      ∀ c ∈ text, Text.isWordCharacter c = true := by
  have hseparator : ∀ c, c = '=' ∨ c = ':' → Text.isWordCharacter c = false := by
    rintro c (rfl | rfl) <;> exact isWordCharacter_of_mark (by simp)
  have hconsumes : Consumes (quotedSecret "password") := consumes_quotedSecret (by decide)
  change (∀ c ∈ replaceAll (quotedSecret "password") "password=***".toList text, _) ↔ _
  constructor
  · intro h
    rw [replaceAll_eq_self hconsumes] at h
    · exact h
    · intro hmask
      have := h '=' (hmask.subset (by decide))
      simp [hseparator] at this
  · intro h
    rw [replaceAll_of_forall_none fun s hs _ => ?_]
    · exact h
    · cases hmatch : quotedSecret "password" s with
      | none => rfl
      | some after =>
          obtain ⟨c, hc, hsep⟩ := exists_separator hmatch
          have := h c (hs.subset hc)
          simp [hseparator c hsep] at this

theorem quotedSecret_of_bare (label : Label .password) {secret : List Char}
    (h : (bare label).Holds secret) :
    quotedSecret Field.password.keyword (label.chars ++ secret) = none := by
  obtain ⟨hne, hblank, hquote⟩ := h
  obtain ⟨c, rest, rfl⟩ := List.exists_cons_of_ne_nil hne
  rw [label.quotedSecret_chars (hblank c List.mem_cons_self) rest, afterOne,
    if_neg (by simp [hquote c rfl]), Option.bind_none]

theorem bareSecret_eq_some_nil_iff (label : Label .password) {secret : List Char}
    (h : (bare label).Holds secret) :
    bareSecret Field.password.keyword (maskWith (rules.take 1) (label.chars ++ secret)) = some [] ↔
      (bare label).Admits secret := by
  have hnone := quotedSecret_of_bare label h
  obtain ⟨hne, hblank, -⟩ := h
  have hlabel : maskWith (rules.take 1) (label.chars ++ secret) =
      label.chars ++ maskWith (rules.take 1) secret :=
    label.replaceAll_chars (keyed_quotedSecret .password) hnone
  -- What is left of the secret starts with its first character or with a mask.
  obtain ⟨c, rest, hleft, hc⟩ : ∃ c rest, maskWith (rules.take 1) secret = c :: rest ∧
      Text.isBlank c = false := by
    obtain ⟨c, rest, rfl⟩ := List.exists_cons_of_ne_nil hne
    have hconsumes : Consumes (quotedSecret "password") := consumes_quotedSecret (by decide)
    change ∃ d left, replaceAll (quotedSecret "password") "password=***".toList (c :: rest) =
      d :: left ∧ Text.isBlank d = false
    cases hmatch : quotedSecret "password" (c :: rest) with
    | none => exact ⟨c, _, replaceAll_of_none hmatch, hblank c List.mem_cons_self⟩
    | some after => exact ⟨'p', _, replaceAll_of_some hconsumes hmatch, by decide⟩
  rw [hlabel, hleft, label.bareSecret_chars hc, ← hleft, afterRun_eq_some_iff, Admits,
    ← forall_isWordCharacter_iff]
  constructor
  · rintro ⟨run, -, hrun, heq, -⟩
    rw [List.append_nil] at heq
    exact ⟨hne, heq ▸ hrun⟩
  · rintro ⟨-, hword⟩
    exact ⟨_, by simp [hleft], hword, (List.append_nil _).symm, by simp⟩

/-- The pass that is meant for a credential takes it in whole just for the secrets it admits. -/
theorem rule_eq_some_nil_iff (credential : Credential) {secret : List Char}
    (h : credential.Holds secret) :
    credential.rule.1 (maskWith (rules.take credential.rank) (credential.write secret)) = some [] ↔
      credential.Admits secret := by
  cases credential with
  | quoted field label quote hquote =>
      rw [write, rank, maskWith_quoted label hquote]
      exact quotedSecret_eq_some_nil_iff label hquote
  | bare label => exact bareSecret_eq_some_nil_iff label h
  | address =>
      rw [write, rank, maskWith_address]
      exact addressSecret_eq_some_nil_iff

theorem getElem?_rules (credential : Credential) :
    rules[credential.rank]? = some credential.rule := by
  rcases credential with ⟨_ | _ | _ | _, _, _, _⟩ | _ | _ <;> rfl

theorem mem_rules (credential : Credential) : credential.rule ∈ rules :=
  List.mem_of_getElem? credential.getElem?_rules

/-- No pass finds anything in a mask. -/
theorem maskWith_mask (credential : Credential) {passes : List (SecretShape × String)}
    (h : passes ⊆ rules) : maskWith passes credential.mask = credential.mask := by
  have hmasks : ∀ rule ∈ rules, ∀ other ∈ rules,
      replaceAll other.1 other.2.toList rule.2.toList = rule.2.toList := by decide +kernel
  induction passes with
  | nil => rfl
  | cons rule passes ih =>
      rw [maskWith_cons, mask, hmasks _ credential.mem_rules rule (h List.mem_cons_self)]
      exact ih fun _ hrule => h (List.mem_cons_of_mem rule hrule)

/-- But for the passes over passwords, no later pass has a mask that is part of an earlier one. -/
theorem not_infix_mask (credential : Credential) :
    ∀ rule ∈ rules.drop (max 2 (credential.rank + 1)), ¬ rule.2.toList <:+: credential.mask := by
  have hmasks : ∀ rank < 6, ∀ rule ∈ rules.drop (max 2 (rank + 1)), ∀ own ∈ rules[rank]?,
      ¬ rule.2.toList <:+: own.2.toList := by decide +kernel
  have hrank := (List.getElem?_eq_some_iff.1 credential.getElem?_rules).1
  exact fun rule hrule => hmasks _ hrank rule hrule _ credential.getElem?_rules

/-- Behind a quoted password, which has its mask in common with it, the pass over bare passwords
finds nothing at the front of what is left. -/
theorem bareSecret_of_quoted (label : Label .password) {quote : Char}
    (hquote : isQuote quote = true) (rest : List Char) :
    bareSecret Field.password.keyword (replaceAll (quotedSecret Field.password.keyword)
      "password=***".toList (label.chars ++ quote :: rest)) ≠ some [] := by
  have hkeyed := keyed_quotedSecret .password
  cases hmatch : quotedSecret Field.password.keyword (label.chars ++ quote :: rest) with
  | some after =>
      have hstar : Text.isWordCharacter '*' = false := isWordCharacter_of_mark (by simp)
      rw [replaceAll_of_some (consumes_quotedSecret (by decide)) hmatch]
      simp [bareSecret, Field.keyword, Text.afterKeyword, Text.isLetterForm, afterSeparator,
        afterRun, Text.isBlank, hstar]
  | none =>
      have hforeign : ∀ rest', quotedSecret Field.password.keyword (quote :: rest') = none :=
        fun rest' => hkeyed _ (afterKeyword_of_foreign _ (foreign_of_isQuote hquote) rest')
      have hword := isWordCharacter_of_isQuote hquote
      rw [label.replaceAll_chars hkeyed hmatch, replaceAll_of_none (hforeign rest),
        label.bareSecret_chars (isBlank_of_isQuote hquote), afterRun, if_neg (by simp [hword])]
      simp

/-- A credential of which its mask is left has been masked by the pass that is meant for it. -/
theorem replaceAll_eq_mask (credential : Credential) {secret : List Char}
    (h : maskWith rules (credential.write secret) = credential.mask) :
    replaceAll credential.rule.1 credential.mask
      (maskWith (rules.take credential.rank) (credential.write secret)) = credential.mask := by
  rw [credential.maskWith_rules] at h
  have hproper : ∀ n, Proper (rules.drop n) :=
    fun n => proper_rules.of_subset (List.drop_subset n _)
  have hlater := credential.not_infix_mask
  by_cases hfirst : credential.rank = 0
  · -- The one pass of rank zero is over quoted passwords, and the next is over bare ones.
    rcases credential with ⟨_ | _ | _ | _, label, quote, hquote⟩ | _ | _ <;> try cases hfirst
    have hnext : rules.drop 1 =
        (bareSecret Field.password.keyword, "password=***") :: rules.drop 2 := rfl
    rw [show (quoted .password label quote hquote).rank + 1 = 1 from rfl, hnext, maskWith_cons] at h
    have hbare := (hproper 2).eq_of_maskWith_eq hlater h
    have hcases := eq_of_replaceAll_eq_mask (consumes_bareSecret (by decide)) (by decide) hbare
    exact hcases.resolve_left (bareSecret_of_quoted label hquote _)
  · rw [max_eq_right (by omega)] at hlater
    exact (hproper _).eq_of_maskWith_eq hlater h

/-- What is left of a credential is its mask just if it admits the secret or is the mask already. -/
theorem maskWith_write_eq_mask_iff (credential : Credential) {secret : List Char}
    (h : credential.Holds secret) :
    maskWith rules (credential.write secret) = credential.mask ↔
      credential.Admits secret ∨ credential.write secret = credential.mask := by
  have hproper := proper_rules credential.rule credential.mem_rules
  constructor
  · intro hmask
    rcases eq_of_replaceAll_eq_mask hproper.1 hproper.2 (credential.replaceAll_eq_mask hmask)
      with hall | hbefore
    · exact .inl ((credential.rule_eq_some_nil_iff h).1 hall)
    · cases credential with
      | quoted field label quote hquote =>
          have hnone : ∀ c ∈ (field.keyword ++ "=***").toList, isQuote c ≠ true := by
            cases field <;> exact forall_mem_of_all (by decide)
          rw [write, rank, maskWith_quoted label hquote] at hbefore
          have hmem := hbefore ▸ List.mem_append_right label.chars List.mem_cons_self
          exact absurd hquote (hnone quote hmem)
      | bare label =>
          have hquoted : replaceAll (quotedSecret Field.password.keyword) "password=***".toList
              (label.chars ++ secret) = "password=***".toList := hbefore
          have hcases :=
            eq_of_replaceAll_eq_mask (consumes_quotedSecret (by decide)) (by decide) hquoted
          rw [quotedSecret_of_bare label h] at hcases
          exact .inr (hcases.resolve_left (by simp))
      | address =>
          refine .inl ((address.rule_eq_some_nil_iff h).1 ?_)
          rw [hbefore]
          decide
  · rintro (hadmits | hwrite)
    · have hall := (credential.rule_eq_some_nil_iff h).2 hadmits
      rw [credential.maskWith_rules, replaceAll_of_some hproper.1 hall, replaceAll_nil,
        List.append_nil, credential.maskWith_mask (List.drop_subset _ _)]
    · rw [hwrite, credential.maskWith_mask fun _ hrule => hrule]

/-- Every value without quotes and semicolons is admitted between quotes. -/
theorem admits_of_quotedPart {field : Field} (label : Label field) {quote : Char}
    (hquote : Masking.isQuote quote = true) {secret : List Char} (hne : secret ≠ [])
    (h : ∀ c ∈ secret, isQuotedPart c = true) :
    (quoted field label quote hquote).Admits secret := by
  have hearlier : rules.take field.rank ⊆ rules.take 4 := by
    refine (List.take_prefix_take_left ?_).subset
    cases field <;> decide
  obtain ⟨inner, hleft, hinner⟩ :=
    EndsQuoted.maskWith hearlier hquote ⟨secret, rfl, h⟩
  refine ⟨inner, quote, hleft, ?_, hinner, hquote⟩
  rintro rfl
  -- No pass leaves the bare quote, because none of the masks is part of it.
  have hproper := proper_rules.of_subset (List.take_subset field.rank rules)
  have hself := hproper.eq_of_maskWith_eq (fun rule hrule hpart => ?_) hleft
  · simp [hne] at hself
  · have hlong : ∀ rule ∈ rules, 1 < rule.2.toList.length := by decide
    have := hlong rule (List.mem_of_mem_take hrule)
    have := hpart.length_le
    simp at this
    omega

/-- A credential that stands apart in a message is left as its mask if and only if it admits the
secret, or is the mask already. -/
theorem masked_eq_mask_iff (credential : Credential) {before behind secret : List Char}
    (hsecret : credential.Holds secret)
    (hapart : Separate rules before (credential.write secret) behind) :
    maskCredentials (String.ofList (before ++ (credential.write secret ++ behind))) =
        String.ofList (maskWith rules before ++ (credential.mask ++ maskWith rules behind)) ↔
      credential.Admits secret ∨ credential.write secret = credential.mask := by
  have hmasked : maskCredentials (String.ofList (before ++ (credential.write secret ++ behind))) =
      String.ofList (maskWith rules (before ++ (credential.write secret ++ behind))) := by
    rw [maskCredentials, String.toList_ofList]
    rfl
  rw [hmasked, String.ofList_inj, hapart.maskWith_append proper_rules,
    List.append_cancel_left_eq, List.append_cancel_right_eq,
    credential.maskWith_write_eq_mask_iff hsecret]

/-- A secret of a credential that stands apart in a message is hidden, so that the message is masked
as it is with any secret the credential admits, if and only if the credential admits it. The one
other secret that makes no difference is the mask itself. -/
theorem masked_eq_iff (credential : Credential) {before behind secret other : List Char}
    (hsecret : credential.Holds secret) (hother : credential.Holds other)
    (hadmits : credential.Admits other)
    (hapart : Separate rules before (credential.write secret) behind)
    (hapart' : Separate rules before (credential.write other) behind) :
    maskCredentials (String.ofList (before ++ (credential.write secret ++ behind))) =
        maskCredentials (String.ofList (before ++ (credential.write other ++ behind))) ↔
      credential.Admits secret ∨ credential.write secret = credential.mask := by
  rw [(credential.masked_eq_mask_iff hother hapart').2 (.inl hadmits)]
  exact credential.masked_eq_mask_iff hsecret hapart

/-- Masking a password before the credential joins a quote left open to the quote of the credential:
the two do not stand apart, and the secret shows. -/
example : maskCredentials "user='a password='x' user='v'" = "user=***v'" := by decide +kernel

/-- A bare password behind a colon and a space. -/
def barePassword : Credential :=
  bare ⟨"Password".toList, ':', [' '], by decide, by decide, by simp [Text.Blanks, Text.isBlank]⟩

theorem masked_eq_barePassword :
    barePassword.Holds "hunter2".toList ∧ barePassword.Admits "hunter2".toList ∧
      Separate rules "user='ada', ".toList (barePassword.write "hunter2".toList) " expired".toList ∧
      maskCredentials "user='ada', Password: hunter2 expired" =
        maskCredentials "user='ada', Password: s3cret expired" := by
  have hholds : ∀ secret ∈ ["hunter2", "s3cret"], barePassword.Holds secret.toList := by
    simp only [List.forall_mem_cons, List.not_mem_nil, false_implies, implies_true, and_true]
    exact ⟨⟨by decide, forall_mem_of_all (by decide), fun c hc => by cases hc; decide⟩,
      ⟨by decide, forall_mem_of_all (by decide), fun c hc => by cases hc; decide⟩⟩
  have hadmits : ∀ secret ∈ ["hunter2", "s3cret"], barePassword.Admits secret.toList := by
    simp only [List.forall_mem_cons, List.not_mem_nil, false_implies, implies_true, and_true]
    exact ⟨⟨by decide, forall_mem_of_all (by decide +kernel)⟩,
      ⟨by decide, forall_mem_of_all (by decide +kernel)⟩⟩
  have hapart : ∀ secret ∈ ["hunter2", "s3cret"], Separate rules "user='ada', ".toList
      (barePassword.write secret.toList) " expired".toList := by decide +kernel
  have htext : ∀ secret ∈ ["hunter2", "s3cret"], String.ofList ("user='ada', ".toList ++
      (barePassword.write secret.toList ++ " expired".toList)) =
        "user='ada', Password: " ++ secret ++ " expired" := by decide +kernel
  have hmasked := (masked_eq_iff barePassword (hholds "hunter2" (by simp))
    (hholds "s3cret" (by simp)) (hadmits "s3cret" (by simp)) (hapart "hunter2" (by simp))
    (hapart "s3cret" (by simp))).2 (.inl (hadmits "hunter2" (by simp)))
  rw [htext _ (by simp), htext _ (by simp)] at hmasked
  exact ⟨hholds _ (by simp), hadmits _ (by simp), hapart _ (by simp), hmasked⟩

/-- A secret that its shape does not take in whole shows. -/
theorem exists_masked_ne : ∃ (credential : Credential) (secret other : List Char),
    credential.Holds secret ∧ credential.Holds other ∧
      maskCredentials (String.ofList (credential.write secret)) ≠
        maskCredentials (String.ofList (credential.write other)) :=
  ⟨barePassword, "ab-cd".toList, "ab".toList,
    ⟨by decide, forall_mem_of_all (by decide), fun c hc => by cases hc; decide⟩,
    ⟨by decide, forall_mem_of_all (by decide), fun c hc => by cases hc; decide⟩,
    by decide +kernel⟩

end Credential

end StarCube.Masking
