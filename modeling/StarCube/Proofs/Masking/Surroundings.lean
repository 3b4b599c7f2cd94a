import StarCube.Proofs.Masking.Credentials

/-!
What may stand around a credential. A semicolon with a blank behind it fences off parts of a
message: no match runs through it, so each part is masked as if it stood alone. An address needs no
fence behind it, and none before it where there is no keyword.
-/

namespace StarCube.Masking

/-! ### Fences -/

/-- A semicolon, which is part of no quoted value, and a blank, which is part of no address. -/
def fence : List Char :=
  [';', ' ']

/-- A reader reads what is before a fence as if the text ended there. -/
def Stops (reader : List Char → Option (List Char)) : Prop :=
  ∀ text rest, reader (text ++ (fence ++ rest)) = (reader text).map (· ++ (fence ++ rest))

theorem Stops.bind {first next : List Char → Option (List Char)} (hfirst : Stops first)
    (hnext : Stops next) : Stops fun text => (first text).bind next := by
  intro text rest
  simp only [hfirst text rest]
  cases first text with
  | none => rfl
  | some after => exact hnext after rest

/-- A keyword does not go on at a character that is a form of none of its letters. -/
theorem afterKeyword_append_cons {keyword : List Char} {c : Char}
    (h : ∀ small ∈ keyword, Text.isLetterForm small c = false) (text rest : List Char) :
    Text.afterKeyword keyword (text ++ c :: rest) =
      (Text.afterKeyword keyword text).map (· ++ c :: rest) := by
  induction keyword generalizing text with
  | nil => rfl
  | cons small smalls ih =>
      rw [List.forall_mem_cons] at h
      cases text with
      | nil => simp [Text.afterKeyword, h.1]
      | cons first text =>
          rw [List.cons_append, Text.afterKeyword, Text.afterKeyword, ih h.2]
          split <;> rfl

theorem dropWhile_append_cons {kind : Char → Bool} {c : Char} (h : kind c = false)
    (text rest : List Char) :
    (text ++ c :: rest).dropWhile kind = text.dropWhile kind ++ c :: rest := by
  rw [List.dropWhile_append]
  split
  · rename_i hempty
    rw [List.dropWhile_cons_of_neg (by simp [h]), List.isEmpty_iff.1 hempty, List.nil_append]
  · rfl

theorem stops_afterKeyword {keyword : List Char}
    (h : ∀ small ∈ keyword, Text.isLetterForm small ';' = false) :
    Stops (Text.afterKeyword keyword) :=
  fun text rest => afterKeyword_append_cons h text (' ' :: rest)

theorem stops_afterSeparator : Stops afterSeparator := by
  intro text rest
  cases text with
  | nil => rfl
  | cons c text =>
      have hblank : Text.isBlank ';' = false := by decide
      rw [List.cons_append, afterSeparator, afterSeparator]
      split
      · exact congrArg some (dropWhile_append_cons hblank text (' ' :: rest))
      · rfl

theorem stops_afterOne {kind : Char → Bool} (h : kind ';' = false) : Stops (afterOne kind) := by
  intro text rest
  cases text with
  | nil => exact if_neg (by simp [h])
  | cons c text =>
      rw [List.cons_append, afterOne, afterOne]
      split <;> rfl

theorem stops_afterRun {kind : Char → Bool} (h : kind ';' = false) : Stops (afterRun kind) := by
  intro text rest
  cases text with
  | nil => exact if_neg (by simp [h])
  | cons c text =>
      rw [List.cons_append, afterRun, afterRun]
      split
      · exact congrArg some (dropWhile_append_cons h text (' ' :: rest))
      · rfl

/-- A run that goes on behind the semicolon ends at the blank, which closes nothing. -/
theorem stops_afterRun_bind (kind close : Char → Bool) (hsemicolon : kind ';' = true)
    (hblank : kind ' ' = false) (hclose : close ' ' = false) :
    Stops fun text => (afterRun kind text).bind (afterOne close) := by
  intro text rest
  cases text with
  | nil => simp [fence, afterRun, afterOne, hsemicolon, hblank, hclose]
  | cons c text =>
      simp only [List.cons_append, afterRun]
      split
      · rw [Option.bind_some, Option.bind_some, List.dropWhile_append]
        cases hleft : text.dropWhile kind with
        | nil => simp [fence, afterOne, hsemicolon, hblank, hclose]
        | cons d left =>
            rw [if_neg (by simp), List.cons_append, afterOne, afterOne]
            split <;> rfl
      · rfl

theorem stops_quotedSecret (field : Field) : Stops (quotedSecret field.keyword) := by
  have hforeign : Foreign ';' := by decide
  have hkeyword : Stops (Text.afterKeyword field.keyword.toList) :=
    stops_afterKeyword fun small hsmall => hforeign small (field.mem_alphabet small hsmall)
  exact hkeyword.bind <| stops_afterSeparator.bind <| (stops_afterOne rfl).bind <|
    (stops_afterRun rfl).bind (stops_afterOne rfl)

theorem stops_bareSecret (field : Field) : Stops (bareSecret field.keyword) := by
  have hforeign : Foreign ';' := by decide
  have hkeyword : Stops (Text.afterKeyword field.keyword.toList) :=
    stops_afterKeyword fun small hsmall => hforeign small (field.mem_alphabet small hsmall)
  exact hkeyword.bind <| stops_afterSeparator.bind <|
    stops_afterRun (isWordCharacter_of_mark (by simp))

theorem stops_addressSecret : Stops addressSecret := by
  have hopening : Stops (Text.afterKeyword "://".toList) :=
    stops_afterKeyword (forall_mem_of_all (by decide))
  have huser := stops_afterRun_bind isUserPart (· == ':') rfl rfl rfl
  have hpassword := stops_afterRun_bind isPasswordPart (· == '@') rfl rfl rfl
  have h := hopening.bind (huser.bind hpassword)
  intro text rest
  simpa only [addressSecret, Option.bind_assoc] using h text rest

theorem stops_of_mem_rules {rule : SecretShape × String} (h : rule ∈ rules) : Stops rule.1 := by
  simp only [rules, List.mem_cons, List.not_mem_nil, or_false] at h
  rcases h with rfl | rfl | rfl | rfl | rfl | rfl
  · exact stops_quotedSecret .password
  · exact stops_bareSecret .password
  · exact stops_quotedSecret .user
  · exact stops_quotedSecret .token
  · exact stops_quotedSecret .host
  · exact stops_addressSecret

/-- Every pass but the last looks for a keyword first. -/
theorem cases_of_mem_rules {rule : SecretShape × String} (h : rule ∈ rules) :
    (∃ field, Keyed field rule.1) ∨ rule = (addressSecret, "://***:***@") := by
  have hrules : rules = rules.take 5 ++ [(addressSecret, "://***:***@")] := rfl
  rw [hrules, List.mem_append, List.mem_singleton] at h
  exact h.imp_left keyed_of_mem_earlier

/-- No match starts in a fence. -/
theorem inert_fence : Inert rules fence := by
  intro rule hrule s hs hne rest
  obtain ⟨c, s, rfl⟩ := List.exists_cons_of_ne_nil hne
  have hc : c ∈ fence := hs.subset List.mem_cons_self
  obtain ⟨field, hfield⟩ | rfl := cases_of_mem_rules hrule
  · have hforeign : ∀ c ∈ fence, Foreign c := forall_mem_of_all (by decide)
    exact hfield _ (afterKeyword_of_foreign field (hforeign c hc) _)
  · have hopening : ∀ c ∈ fence, Text.isLetterForm ':' c = false :=
      forall_mem_of_all (by decide)
    change (Text.afterKeyword (':' :: "//".toList) (c :: (s ++ rest))).bind _ = none
    rw [Text.afterKeyword, if_neg (by simp [hopening c hc]), Option.bind_none]

section Fences

variable {rule : SecretShape × String} {passes : List (SecretShape × String)}

theorem apart_fence (h : Stops rule.1) (part rest : List Char) :
    Apart rule.1 part (fence ++ rest) :=
  fun s _ _ => h s rest

/-- A fence belongs to what is before it as much as to what is behind it. -/
theorem apart_append_fence (hrule : rule ∈ rules) (front rest : List Char) :
    Apart rule.1 (front ++ fence) rest := by
  intro s ⟨before, hs⟩ hne
  obtain ⟨between, -, rfl⟩ | ⟨between, rfl, hfence⟩ := List.append_eq_append_iff.1 hs
  · have hstops := stops_of_mem_rules hrule between
    have halone := hstops []
    rw [List.append_nil] at halone
    rw [List.append_assoc, hstops, halone, Option.map_map]
    exact congrArg (Option.map · _) (funext fun after => (List.append_assoc after fence rest).symm)
  · have hnone := inert_fence rule hrule s ⟨between, hfence.symm⟩ hne
    rw [hnone, ← List.append_nil s, hnone, Option.map_none]

theorem replaceAll_append_fence (hrule : rule ∈ rules) (front back : List Char) :
    replaceAll rule.1 rule.2.toList (front ++ (fence ++ back)) =
      replaceAll rule.1 rule.2.toList front ++
        (fence ++ replaceAll rule.1 rule.2.toList back) := by
  rw [(apart_fence (stops_of_mem_rules hrule) front back).replaceAll_append
    (consumes_of_mem_rules hrule), replaceAll_append_of_none fun s hs hne =>
      inert_fence rule hrule s hs hne back]

/-- The parts of a message on both sides of a fence are masked each by itself. -/
theorem maskWith_append_fence (hpasses : passes ⊆ rules) (front back : List Char) :
    maskWith passes (front ++ (fence ++ back)) =
      maskWith passes front ++ (fence ++ maskWith passes back) := by
  induction passes generalizing front back with
  | nil => rfl
  | cons rule passes ih =>
      rw [List.cons_subset] at hpasses
      simp only [maskWith_cons]
      rw [replaceAll_append_fence hpasses.1, ih hpasses.2]

/-- Between two fences a credential stands apart, whatever is behind them. -/
theorem separate_of_fences (hpasses : passes ⊆ rules) (front credential back : List Char) :
    Separate passes (front ++ fence) credential (fence ++ back) := by
  induction passes generalizing front credential back with
  | nil => trivial
  | cons rule passes ih =>
      rw [List.cons_subset] at hpasses
      refine ⟨apart_append_fence hpasses.1 front _,
        apart_fence (stops_of_mem_rules hpasses.1) credential back, ?_⟩
      have hfront := replaceAll_append_fence hpasses.1 front []
      have hback := replaceAll_append_fence hpasses.1 [] back
      rw [replaceAll_nil, List.append_nil] at hfront
      rw [replaceAll_nil, List.nil_append, List.nil_append] at hback
      rw [hfront, hback]
      exact ih hpasses.2 _ _ _

end Fences

/-! ### Addresses -/

/-- No keyword stands in a text, in any letter case. -/
def Unkeyed (text : List Char) : Prop :=
  ∀ (field : Field) s, s <:+ text → Text.afterKeyword field.keyword.toList s = none

namespace Unkeyed

variable {text : List Char} {passes : List (SecretShape × String)}

/-- No keyword starts in such a text where the next character is a form of no letter. -/
theorem afterKeyword_eq_none (h : Unkeyed text) {c : Char} (hc : Foreign c) (field : Field)
    {s : List Char} (hs : s <:+ text) (rest : List Char) :
    Text.afterKeyword field.keyword.toList (s ++ c :: rest) = none := by
  rw [afterKeyword_append_cons fun small hsmall => hc small (field.mem_alphabet small hsmall),
    h field s hs, Option.map_none]

theorem inert (h : Unkeyed text) {c : Char} (hc : Foreign c) :
    Inert (rules.take 5) (text ++ [c]) := by
  intro rule hrule s ⟨before, hs⟩ hne rest
  obtain ⟨field, hfield⟩ := keyed_of_mem_earlier hrule
  refine hfield _ ?_
  obtain ⟨between, rfl, rfl⟩ | ⟨between, rfl, hend⟩ := List.append_eq_append_iff.1 hs
  · rw [List.append_assoc]
    exact h.afterKeyword_eq_none hc field (List.suffix_append _ _) rest
  · obtain ⟨rfl, rfl⟩ : between = [] ∧ s = [c] := by
      cases between with
      | nil => exact ⟨rfl, hend.symm⟩
      | cons d between => simp_all
    exact afterKeyword_of_foreign field hc rest

end Unkeyed

/-- A text is split in one way at the first place of a character. -/
theorem eq_of_append_cons_eq {c : Char} {front front' back back' : List Char} (h : c ∉ front)
    (h' : c ∉ front') (heq : front ++ c :: back = front' ++ c :: back') :
    front = front' ∧ back = back' := by
  obtain ⟨between, rfl, hback⟩ | ⟨between, rfl, hback⟩ := List.append_eq_append_iff.1 heq
  · cases between with
    | nil => exact ⟨(List.append_nil _).symm, (List.cons.inj hback).2⟩
    | cons d between =>
        obtain ⟨rfl, -⟩ := List.cons.inj hback
        exact absurd (List.mem_append_right _ List.mem_cons_self) h'
  · cases between with
    | nil => exact ⟨List.append_nil _, (List.cons.inj hback).2.symm⟩
    | cons d between =>
        obtain ⟨rfl, -⟩ := List.cons.inj hback
        exact absurd (List.mem_append_right _ List.mem_cons_self) h

/-- The first at sign behind an opening ends an address, if there is one. -/
theorem addressSecret_at_iff {part back after : List Char} (h : '@' ∉ part) :
    addressSecret (part ++ '@' :: back) = some after ↔
      addressSecret (part ++ ['@']) = some [] ∧ after = back := by
  simp only [addressSecret_eq_some_iff]
  constructor
  · rintro ⟨user, password, heq, hune, huser, hpne, hpassword⟩
    have hwhole : '@' ∉ "://".toList ++ (user ++ ':' :: password) := by
      simp only [List.mem_append, List.mem_cons, not_or]
      exact ⟨by decide, fun hmem => by simpa [isUserPart] using huser _ hmem, by decide,
        fun hmem => by simpa [isPasswordPart] using hpassword _ hmem⟩
    have hsplit : part ++ '@' :: back =
        ("://".toList ++ (user ++ ':' :: password)) ++ '@' :: after := by simpa using heq
    obtain ⟨rfl, rfl⟩ := eq_of_append_cons_eq h hwhole hsplit
    exact ⟨⟨user, password, by simp, hune, huser, hpne, hpassword⟩, rfl⟩
  · rintro ⟨⟨user, password, heq, hparts⟩, rfl⟩
    have hsplit : part ++ ['@'] = ("://".toList ++ (user ++ ':' :: password)) ++ ['@'] := by
      simpa using heq
    obtain rfl := List.append_cancel_right hsplit
    exact ⟨user, password, by simp, hparts⟩

theorem apart_at {front : List Char} (h : '@' ∉ front) (rest : List Char) :
    Apart addressSecret (front ++ ['@']) rest := by
  intro s ⟨before, hs⟩ hne
  obtain ⟨part, last, rfl⟩ := (List.eq_nil_or_concat' s).resolve_left hne
  rw [← List.append_assoc] at hs
  obtain ⟨rfl, hlast⟩ := List.append_inj' hs rfl
  obtain rfl := List.singleton_inj.1 hlast
  have hpart : '@' ∉ part := fun hmem => h (List.mem_append_right before hmem)
  ext after
  rw [List.append_assoc, List.singleton_append, addressSecret_at_iff hpart,
    Option.map_eq_some_iff]
  constructor
  · rintro ⟨hread, rfl⟩
    exact ⟨[], hread, rfl⟩
  · rintro ⟨left, hread, rfl⟩
    obtain ⟨hread, rfl⟩ := (addressSecret_at_iff hpart).1 hread
    exact ⟨hread, rfl⟩

/-- An address whose user and password have no keyword in them is taken in whole. -/
theorem Credential.admits_address {user password : List Char}
    (hfree : Unkeyed (user ++ ':' :: password)) (hune : user ≠ [])
    (huser : ∀ c ∈ user, isUserPart c = true) (hpne : password ≠ [])
    (hpassword : ∀ c ∈ password, isPasswordPart c = true) :
    address.Admits (user ++ ':' :: password) := by
  have hforeign : Foreign '@' := by decide
  have hleft := (hfree.inert hforeign).maskWith_append []
  have hnil : maskWith (rules.take 5) [] = [] := rfl
  rw [hnil, List.append_nil] at hleft
  exact ⟨user, password, by simpa using hleft, hune, huser, hpne, hpassword⟩

/-- No opening of an address stands in a text or goes on behind it in another one. -/
theorem addressSecret_of_unopened {text : List Char} (h : ¬ "://".toList <:+: text) {s : List Char}
    (hs : s <:+ text) (hne : s ≠ []) (rest : List Char) :
    addressSecret (s ++ ':' :: rest) = none ∧ addressSecret s = none := by
  have hopening : Text.afterKeyword "://".toList s = none := by
    cases hread : Text.afterKeyword "://".toList s with
    | none => rfl
    | some after =>
        rw [afterKeyword_opening_iff] at hread
        exact absurd ((hread ▸ List.prefix_append _ after).isInfix.trans hs.isInfix) h
  refine ⟨?_, by rw [addressSecret, hopening, Option.bind_none]⟩
  obtain ⟨c, s, rfl⟩ := List.exists_cons_of_ne_nil hne
  have hmarks : ∀ small ∈ "//".toList, Text.isLetterForm small ':' = false :=
    forall_mem_of_all (by decide)
  have hgoes : Text.afterKeyword "://".toList (c :: (s ++ ':' :: rest)) =
      (Text.afterKeyword "://".toList (c :: s)).map (· ++ ':' :: rest) := by
    change (if _ then Text.afterKeyword "//".toList (s ++ ':' :: rest) else none) = _
    rw [afterKeyword_append_cons hmarks]
    change _ = (if _ then Text.afterKeyword "//".toList s else none).map _
    split <;> rfl
  rw [List.cons_append, addressSecret, hgoes, hopening, Option.map_none, Option.bind_none]

/-- A text with neither keywords nor addresses is left as it is. -/
theorem Unkeyed.maskWith_eq_self {text : List Char} (h : Unkeyed text)
    (hunopened : ¬ "://".toList <:+: text) {passes : List (SecretShape × String)}
    (hpasses : passes ⊆ rules) : maskWith passes text = text := by
  induction passes with
  | nil => rfl
  | cons rule passes ih =>
      rw [List.cons_subset] at hpasses
      have hnone : ∀ s, s <:+ text → s ≠ [] → rule.1 s = none := by
        intro s hs hne
        obtain ⟨field, hfield⟩ | rfl := cases_of_mem_rules hpasses.1
        · exact hfield s (h field s hs)
        · exact (addressSecret_of_unopened hunopened hs hne []).2
      rw [maskWith_cons, replaceAll_of_forall_none hnone, ih hpasses.2]

/-- An address stands apart from what is before it where there is no keyword and no other address,
and from whatever is behind it where there is no keyword in it. -/
theorem separate_address {before secret : List Char} (hbefore : Unkeyed before)
    (hunopened : ¬ "://".toList <:+: before) (hsecret : Unkeyed secret) (hat : '@' ∉ secret)
    (behind : List Char) :
    Separate rules before (Credential.address.write secret) behind := by
  have hcolon : Foreign ':' := by decide
  have hforeign : Foreign '@' := by decide
  have hinert : Inert (rules.take 5) (Credential.address.write secret) :=
    (inert_of_foreign (fun _ h => keyed_of_mem_earlier h) (forall_mem_of_all (by decide))).append
      (hsecret.inert hforeign)
  have hwrite (rest : List Char) : Credential.address.write secret ++ rest =
      ':' :: ("//".toList ++ (secret ++ ['@']) ++ rest) := rfl
  suffices ∀ earlier ⊆ rules.take 5, ∀ behind,
      Separate (earlier ++ [(addressSecret, "://***:***@")]) before
        (Credential.address.write secret) behind from
    this _ (List.Subset.refl _) behind
  intro earlier
  induction earlier with
  | nil =>
      intro _ behind
      refine ⟨fun s hs hne => ?_, ?_, trivial⟩
      · obtain ⟨hgoes, hends⟩ := addressSecret_of_unopened hunopened hs hne
          ("//".toList ++ (secret ++ ['@']) ++ behind)
        show addressSecret _ = (addressSecret s).map _
        rw [hwrite, hgoes, hends, Option.map_none]
      · rw [Credential.write, ← List.append_assoc]
        refine apart_at (fun hmem => ?_) behind
        exact (List.mem_append.1 hmem).elim (by decide) hat
  | cons rule earlier ih =>
      intro hearlier behind
      rw [List.cons_subset] at hearlier
      obtain ⟨field, hfield⟩ := keyed_of_mem_earlier hearlier.1
      have hbeforeNone : ∀ s, s <:+ before → rule.1 s = none :=
        fun s hs => hfield s (hbefore field s hs)
      have hwriteNone : ∀ s, s <:+ Credential.address.write secret → s ≠ [] → rule.1 s = none :=
        fun s hs hne => List.append_nil s ▸ hinert rule hearlier.1 s hs hne []
      refine ⟨fun s hs _ => ?_, fun s hs hne => ?_, ?_⟩
      · rw [hwrite, hbeforeNone s hs, Option.map_none]
        exact hfield _ (hbefore.afterKeyword_eq_none hcolon field hs _)
      · rw [hinert rule hearlier.1 s hs hne, hwriteNone s hs hne, Option.map_none]
      · rw [replaceAll_of_forall_none fun s hs _ => hbeforeNone s hs,
          replaceAll_of_forall_none hwriteNone]
        exact ih hearlier.2 _

namespace Credential

/-- Secrets that are taken in by what they look like alone: a value without quotes and semicolons,
a word, and a user and a password without keywords. -/
def Plain : Credential → List Char → Prop
  | quoted _ _ _ _, secret => secret ≠ [] ∧ ∀ c ∈ secret, isQuotedPart c = true
  | bare _, secret => secret ≠ [] ∧ ∀ c ∈ secret, Text.isWordCharacter c = true
  | address, secret =>
      Unkeyed secret ∧ ∃ user password, secret = user ++ ':' :: password ∧
        user ≠ [] ∧ (∀ c ∈ user, isUserPart c = true) ∧
        password ≠ [] ∧ ∀ c ∈ password, isPasswordPart c = true

variable {credential : Credential} {secret : List Char}

theorem Plain.holds (h : credential.Plain secret) : credential.Holds secret := by
  cases credential with
  | quoted field label quote hquote =>
      intro hmem
      have := h.2 quote hmem
      simp [isQuotedPart, hquote] at this
  | bare label =>
      obtain ⟨hne, hword⟩ := h
      refine ⟨hne, fun c hc => isBlank_of_isWordCharacter (hword c hc), fun c hc => ?_⟩
      have hpart := hword c (List.mem_of_mem_head? hc)
      exact Bool.eq_false_iff.2 fun hquote => by simp [isWordCharacter_of_isQuote hquote] at hpart
  | address =>
      obtain ⟨-, user, password, rfl, -, huser, -, hpassword⟩ := h
      exact ⟨user, password, rfl, huser, hpassword⟩

theorem Plain.admits (h : credential.Plain secret) : credential.Admits secret := by
  cases credential with
  | quoted field label quote hquote => exact admits_of_quotedPart label hquote h.1 h.2
  | bare label => exact h
  | address =>
      obtain ⟨hfree, user, password, rfl, hune, huser, hpne, hpassword⟩ := h
      exact admits_address hfree hune huser hpne hpassword

/-- Between two fences a plain secret leaves no trace but the mask of its credential. -/
theorem Plain.masked_between_fences (h : credential.Plain secret) (front back : List Char) :
    maskCredentials (String.ofList ((front ++ fence) ++
        (credential.write secret ++ (fence ++ back)))) =
      String.ofList (maskWith rules front ++ fence ++
        (credential.mask ++ (fence ++ maskWith rules back))) := by
  have hapart := separate_of_fences (List.Subset.refl rules) front (credential.write secret) back
  have hfront := maskWith_append_fence (List.Subset.refl rules) front []
  have hback := maskWith_append_fence (List.Subset.refl rules) [] back
  have hnil : maskWith rules [] = [] := rfl
  rw [hnil, List.append_nil] at hfront
  rw [hnil, List.nil_append, List.nil_append] at hback
  rw [(credential.masked_eq_mask_iff h.holds hapart).2 (.inl h.admits), hfront, hback]

/-- In an address a plain secret leaves none either, behind a text with neither keywords nor
addresses, and whatever is behind it. -/
theorem Plain.masked_address (h : address.Plain secret) {before : List Char}
    (hbefore : Unkeyed before) (hunopened : ¬ "://".toList <:+: before) (behind : List Char) :
    maskCredentials (String.ofList (before ++ (address.write secret ++ behind))) =
      String.ofList (before ++ (address.mask ++ maskWith rules behind)) := by
  have hat : '@' ∉ secret := by
    obtain ⟨-, user, password, rfl, -, huser, -, hpassword⟩ := h
    simp only [List.mem_append, List.mem_cons, not_or]
    exact ⟨fun hmem => by simpa [isUserPart] using huser _ hmem, by decide,
      fun hmem => by simpa [isPasswordPart] using hpassword _ hmem⟩
  have hapart := separate_address hbefore hunopened h.1 hat behind
  rw [(address.masked_eq_mask_iff h.holds hapart).2 (.inl h.admits),
    hbefore.maskWith_eq_self hunopened (List.Subset.refl rules)]

example : maskCredentials "cannot reach postgresql://ada:hunter2@db/orders" =
    "cannot reach postgresql://***:***@db/orders" := by
  decide +kernel

end Credential

end StarCube.Masking
