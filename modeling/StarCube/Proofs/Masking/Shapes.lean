import StarCube.Proofs.Masking.Labels

/-!
What the shapes take in: a label and a value between quotes, a label and word characters, or a user
and a password between the marks of an address.
-/

namespace StarCube.Masking

/-! ### Letters -/

def capitals : List Char :=
  "ABCDEFGHIJKLMNOPQRSTUVWXYZ".toList

/-- A form of a letter is the letter, a capital, the long s or the Kelvin sign. -/
theorem mem_of_isLetterForm {small c : Char} (h : Text.isLetterForm small c = true) :
    c ∈ small :: 'ſ' :: '\u212a' :: capitals := by
  simp only [Text.isLetterForm, Bool.or_eq_true, Bool.and_eq_true, beq_iff_eq] at h
  rcases h with (hlower | ⟨-, rfl⟩) | ⟨-, rfl⟩
  · by_cases hupper : 65 ≤ c.toNat ∧ c.toNat ≤ 90
    · have hall : ∀ code < 91, 65 ≤ code → Char.ofNat code ∈ capitals := by decide
      have hmem := hall c.toNat (by omega) hupper.1
      rw [Char.ofNat_toNat] at hmem
      simp [hmem]
    · have hsame : c.toLower = c := dif_neg (by simpa [UInt32.le_iff_toNat_le] using hupper)
      simp [← hlower, hsame]
  · simp
  · simp

theorem isWordCharacter_of_isLetterForm {small c : Char} (hsmall : small ∈ alphabet)
    (h : Text.isLetterForm small c = true) : Text.isWordCharacter c = true := by
  have hall : (alphabet ++ 'ſ' :: '\u212a' :: capitals).all Text.isWordCharacter = true := by
    decide +kernel
  refine List.all_eq_true.1 hall c (List.mem_append.2 ?_)
  exact (List.mem_cons.1 (mem_of_isLetterForm h)).imp_left fun hc : c = small => hc ▸ hsmall

theorem isBlank_of_isWordCharacter {c : Char} (h : Text.isWordCharacter c = true) :
    Text.isBlank c = false := by
  have hapart : (Text.wordRanges.all fun range => Text.blankCodes.all fun code =>
      Nat.blt code range.1 || Nat.blt range.2 code) = true := by decide +kernel
  refine Bool.eq_false_iff.2 fun hblank => ?_
  obtain ⟨range, hrange, hfrom, hto⟩ := Text.inRanges_eq_true_iff.1 h
  have hout := List.all_eq_true.1 (List.all_eq_true.1 hapart range hrange) c.toNat
    (Text.mem_blankCodes hblank)
  simp only [Bool.or_eq_true, Nat.blt_eq] at hout
  omega

/-- The opening of an address has one spelling. -/
theorem afterKeyword_opening_iff {text after : List Char} :
    Text.afterKeyword "://".toList text = some after ↔ text = "://".toList ++ after := by
  have hall : ("://".toList.all fun mark => (mark :: 'ſ' :: '\u212a' :: capitals).all
      fun c => !Text.isLetterForm mark c || c == mark) = true := by decide
  have hform {mark c : Char} (hmark : mark ∈ "://".toList) (h : Text.isLetterForm mark c = true) :
      c = mark := by
    simpa [h] using List.all_eq_true.1 (List.all_eq_true.1 hall mark hmark) c
      (mem_of_isLetterForm h)
  rw [Text.afterKeyword_eq_some_iff]
  constructor
  · rintro ⟨word, rfl, hforms⟩
    have hsame : List.Forall₂ Eq word "://".toList := by
      refine List.forall₂_iff_get.2 ⟨hforms.length_eq, fun i hword hmark => ?_⟩
      exact hform (List.get_mem _ _) (hforms.get hword hmark)
    rw [List.forall₂_eq_eq_eq] at hsame
    rw [hsame]
  · rintro rfl
    exact ⟨_, rfl, by decide⟩

/-! ### Shapes -/

theorem addressSecret_eq_some_iff {text after : List Char} :
    addressSecret text = some after ↔
      ∃ user password, text = "://".toList ++ (user ++ ':' :: (password ++ '@' :: after)) ∧
        user ≠ [] ∧ (∀ c ∈ user, isUserPart c = true) ∧
        password ≠ [] ∧ ∀ c ∈ password, isPasswordPart c = true := by
  constructor
  · intro h
    obtain ⟨behind, hword, h⟩ := Option.bind_eq_some_iff.1 h
    obtain ⟨_, hfirst, h⟩ := Option.bind_eq_some_iff.1 h
    obtain ⟨_, hsecond, h⟩ := Option.bind_eq_some_iff.1 h
    obtain ⟨_, hthird, hlast⟩ := Option.bind_eq_some_iff.1 h
    obtain ⟨sign, hsign, rfl⟩ := afterOne_eq_some_iff.1 hlast
    obtain ⟨password, hpne, hpassword, rfl, -⟩ := afterRun_eq_some_iff.1 hthird
    obtain ⟨colon, hcolon, rfl⟩ := afterOne_eq_some_iff.1 hsecond
    obtain ⟨user, hune, huser, rfl, -⟩ := afterRun_eq_some_iff.1 hfirst
    obtain rfl := beq_iff_eq.1 hcolon
    obtain rfl := beq_iff_eq.1 hsign
    exact ⟨user, password, afterKeyword_opening_iff.1 hword, hune, huser, hpne, hpassword⟩
  · rintro ⟨user, password, rfl, hune, huser, hpne, hpassword⟩
    rw [addressSecret, afterKeyword_opening_iff.2 rfl, Option.bind_some,
      afterRun_eq_some_iff.2 ⟨user, hune, huser, rfl, by simp [isUserPart]⟩, Option.bind_some,
      afterOne_eq_some_iff.2 ⟨':', by simp, rfl⟩, Option.bind_some,
      afterRun_eq_some_iff.2 ⟨password, hpne, hpassword, rfl, by simp [isPasswordPart]⟩,
      Option.bind_some, afterOne_eq_some_iff.2 ⟨'@', by simp, rfl⟩]

section Labels

variable {field : Field}

theorem exists_label {text rest : List Char}
    (h : (Text.afterKeyword field.keyword.toList text).bind afterSeparator = some rest) :
    ∃ label : Label field, text = label.chars ++ rest := by
  obtain ⟨behind, hword, hseparator⟩ := Option.bind_eq_some_iff.1 h
  obtain ⟨word, rfl, hforms⟩ := Text.afterKeyword_eq_some_iff.1 hword
  obtain ⟨separator, behind, hc, rfl, rfl⟩ := afterSeparator_eq_some_iff.1 hseparator
  exact ⟨⟨word, separator, behind.takeWhile Text.isBlank, hforms, hc,
    fun _ hd => List.mem_takeWhile_imp hd⟩, by simp [Label.chars]⟩

theorem quotedSecret_eq_some_iff {text after : List Char} :
    quotedSecret field.keyword text = some after ↔
      ∃ (label : Label field) (opening : Char) (value : List Char) (closing : Char),
        text = label.chars ++ opening :: (value ++ closing :: after) ∧ isQuote opening = true ∧
        value ≠ [] ∧ (∀ c ∈ value, isQuotedPart c = true) ∧ isQuote closing = true := by
  constructor
  · intro h
    rw [quotedSecret, ← Option.bind_assoc] at h
    obtain ⟨_, hlabel, hquoted⟩ := Option.bind_eq_some_iff.1 h
    obtain ⟨label, rfl⟩ := exists_label hlabel
    obtain ⟨_, hfirst, hinner⟩ := Option.bind_eq_some_iff.1 hquoted
    obtain ⟨_, hrun, hlast⟩ := Option.bind_eq_some_iff.1 hinner
    obtain ⟨opening, hopening, rfl⟩ := afterOne_eq_some_iff.1 hfirst
    obtain ⟨value, hne, hvalue, rfl, -⟩ := afterRun_eq_some_iff.1 hrun
    obtain ⟨closing, hclosing, rfl⟩ := afterOne_eq_some_iff.1 hlast
    exact ⟨label, opening, value, closing, rfl, hopening, hne, hvalue, hclosing⟩
  · rintro ⟨label, opening, value, closing, rfl, hopening, hne, hvalue, hclosing⟩
    rw [label.quotedSecret_chars (isBlank_of_isQuote hopening), afterOne, if_pos hopening,
      Option.bind_some, afterRun_eq_some_iff.2 ⟨value, hne, hvalue, rfl, ?_⟩, Option.bind_some,
      afterOne_eq_some_iff.2 ⟨closing, hclosing, rfl⟩]
    simpa [isQuotedPart] using fun h => absurd hclosing (by simp [h])

theorem bareSecret_eq_some_iff {text after : List Char} :
    bareSecret field.keyword text = some after ↔
      ∃ (label : Label field) (value : List Char), text = label.chars ++ (value ++ after) ∧
        value ≠ [] ∧ (∀ c ∈ value, Text.isWordCharacter c = true) ∧
        ∀ c ∈ after.head?, Text.isWordCharacter c = false := by
  constructor
  · intro h
    rw [bareSecret, ← Option.bind_assoc] at h
    obtain ⟨_, hlabel, hrun⟩ := Option.bind_eq_some_iff.1 h
    obtain ⟨label, rfl⟩ := exists_label hlabel
    obtain ⟨value, hne, hvalue, rfl, hafter⟩ := afterRun_eq_some_iff.1 hrun
    exact ⟨label, value, rfl, hne, hvalue, hafter⟩
  · rintro ⟨label, value, rfl, hne, hvalue, hafter⟩
    obtain ⟨c, value, rfl⟩ := List.exists_cons_of_ne_nil hne
    rw [List.cons_append,
      label.bareSecret_chars (isBlank_of_isWordCharacter (hvalue c List.mem_cons_self)),
      afterRun_eq_some_iff]
    exact ⟨c :: value, hne, hvalue, rfl, hafter⟩

end Labels

end StarCube.Masking
