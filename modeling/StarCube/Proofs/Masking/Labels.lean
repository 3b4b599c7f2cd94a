import StarCube.Proofs.Masking.Passes

/-!
Keywords and labels. A label is a keyword in any letter case with an equals sign or a colon and the
white space behind it; no other keyword starts in it. A text with one quote, at its end, is left
such a text by the passes over quoted and bare values.
-/

namespace StarCube.Masking

/-! ### Labels -/

/-- What a quoted secret may be the value of. -/
inductive Field where
  | password
  | user
  | token
  | host
  deriving DecidableEq

namespace Field

def keyword : Field → String
  | password => "password"
  | user => "user"
  | token => "token"
  | host => "host"

/-- The number of passes before the quoted values of a field are masked. -/
def rank : Field → Nat
  | password => 0
  | user => 2
  | token => 3
  | host => 4

end Field

/-- What is decided for each character of a text holds of each of them. -/
theorem forall_mem_of_all {p : Char → Prop} [DecidablePred p] {text : List Char}
    (h : text.all (fun c => decide (p c)) = true) : ∀ c ∈ text, p c :=
  fun c hc => of_decide_eq_true (List.all_eq_true.1 h c hc)

/-- The small letters of which keywords are made. -/
def alphabet : List Char :=
  "abcdefghijklmnopqrstuvwxyz".toList

theorem Field.mem_alphabet (field : Field) : ∀ small ∈ field.keyword.toList, small ∈ alphabet := by
  cases field <;> exact forall_mem_of_all (by decide)

/-- No keyword stands within another one. -/
theorem Field.eq_of_infix {field other : Field}
    (h : field.keyword.toList <:+: other.keyword.toList) : field = other := by
  revert h
  cases field <;> cases other <;> decide

/-- A character is a form of no letter. -/
def Foreign (c : Char) : Prop :=
  ∀ small ∈ alphabet, Text.isLetterForm small c = false

instance (c : Char) : Decidable (Foreign c) :=
  decidable_of_iff (alphabet.all fun small => !Text.isLetterForm small c) (by simp [Foreign])

theorem foreign_of_isBlank {c : Char} (h : Text.isBlank c = true) : Foreign c :=
  Text.holds_of_isBlank h (by decide +kernel)

theorem foreign_of_isQuote {c : Char} (h : isQuote c = true) : Foreign c := by
  simp only [isQuote, Bool.or_eq_true, beq_iff_eq] at h
  rcases h with rfl | rfl <;> decide

theorem isLetterForm_inj {small small' c : Char} (hsmall : small ∈ alphabet)
    (hsmall' : small' ∈ alphabet) (h : Text.isLetterForm small c = true)
    (h' : Text.isLetterForm small' c = true) : small = small' := by
  have hlong : 'ſ'.toLower ∉ alphabet := by decide
  have hkelvin : '\u212a'.toLower ∉ alphabet := by decide
  simp only [Text.isLetterForm, Bool.or_eq_true, Bool.and_eq_true, beq_iff_eq] at h h'
  rcases h with (rfl | ⟨rfl, rfl⟩) | ⟨rfl, rfl⟩ <;> rcases h' with (rfl | ⟨rfl, h'⟩) | ⟨rfl, h'⟩ <;>
    first
    | rfl
    | exact absurd h' (by decide)
    | (subst h'; contradiction)
    | contradiction

/-- A keyword that starts a word, behind which no letter stands, starts its spelling. -/
theorem prefix_of_afterKeyword {keyword letters word rest after : List Char} {c : Char}
    (hkeyword : ∀ small ∈ keyword, small ∈ alphabet)
    (hletters : ∀ small ∈ letters, small ∈ alphabet)
    (hword : List.Forall₂ (fun c small => Text.isLetterForm small c = true) word letters)
    (hc : Foreign c) (h : Text.afterKeyword keyword (word ++ c :: rest) = some after) :
    keyword <+: letters := by
  induction hword generalizing keyword with
  | nil =>
      cases keyword with
      | nil => exact List.nil_prefix
      | cons small smalls =>
          simp [Text.afterKeyword, hc small (hkeyword small List.mem_cons_self)] at h
  | cons hd _ ih =>
      cases keyword with
      | nil => exact List.nil_prefix
      | cons small smalls =>
          rw [List.cons_append, Text.afterKeyword] at h
          split at h
          · rename_i hform
            rw [isLetterForm_inj (hkeyword _ List.mem_cons_self) (hletters _ List.mem_cons_self)
              hform hd, List.prefix_cons_inj]
            exact ih (fun s hs => hkeyword s (List.mem_cons_of_mem _ hs))
              (fun s hs => hletters s (List.mem_cons_of_mem _ hs)) h
          · cases h

/-- No keyword starts at a character that is a form of no letter. -/
theorem afterKeyword_of_foreign (field : Field) {c : Char} (hc : Foreign c) (rest : List Char) :
    Text.afterKeyword field.keyword.toList (c :: rest) = none := by
  cases h : Text.afterKeyword field.keyword.toList (c :: rest) with
  | none => rfl
  | some after =>
      obtain ⟨small, smalls, hletters⟩ :
          ∃ small smalls, field.keyword.toList = small :: smalls := by
        cases field <;> exact ⟨_, _, rfl⟩
      have hsmall := field.mem_alphabet small (by simp [hletters])
      rw [hletters, Text.afterKeyword, hc small hsmall] at h
      cases h

/-- A keyword in any letter case with an equals sign or a colon, and the white space behind it. -/
structure Label (field : Field) where
  word : List Char
  separator : Char
  gap : List Char
  spells : List.Forall₂ (fun c small => Text.isLetterForm small c = true) word field.keyword.toList
  separates : separator = '=' ∨ separator = ':'
  blanks : Text.Blanks gap

namespace Label

variable {field : Field} (label : Label field)

def chars : List Char :=
  label.word ++ label.separator :: label.gap

theorem foreign_separator : Foreign label.separator := by
  rcases label.separates with h | h <;> rw [h] <;> decide

/-- A keyword that starts in a label is that of the label, and starts where the label does. -/
theorem eq_chars_of_afterKeyword {other : Field} {s rest after : List Char} (hs : s <:+ label.chars)
    (hne : s ≠ []) (h : Text.afterKeyword other.keyword.toList (s ++ rest) = some after) :
    other = field ∧ s = label.chars := by
  obtain ⟨front, hfront⟩ := hs
  rw [chars, List.append_eq_append_iff] at hfront
  obtain ⟨tail, hword, rfl⟩ | ⟨tail, rfl, hs⟩ := hfront
  · -- The keyword starts in the word, and the separator ends it.
    have hspells := List.forall₂_drop front.length label.spells
    rw [hword, List.drop_left] at hspells
    rw [List.append_assoc, List.cons_append] at h
    have hspelled := prefix_of_afterKeyword other.mem_alphabet
      (fun small hsmall => field.mem_alphabet small (List.mem_of_mem_drop hsmall)) hspells
      label.foreign_separator h
    obtain rfl := Field.eq_of_infix (hspelled.isInfix.trans (List.drop_suffix _ _).isInfix)
    refine ⟨rfl, ?_⟩
    have hlength := hspelled.length_le
    rw [List.length_drop] at hlength
    have hpos : 0 < other.keyword.toList.length := by cases other <;> decide
    obtain rfl := List.length_eq_zero_iff.1 (show front.length = 0 by omega)
    rw [chars, hword, List.nil_append]
  · -- It starts behind the word, where no letter stands.
    obtain ⟨c, s, rfl⟩ := List.exists_cons_of_ne_nil hne
    have hc : Foreign c := by
      have hmem : c ∈ label.separator :: label.gap :=
        hs ▸ List.mem_append_right _ List.mem_cons_self
      rcases List.mem_cons.1 hmem with rfl | hgap
      · exact label.foreign_separator
      · exact foreign_of_isBlank (label.blanks c hgap)
    rw [List.cons_append, afterKeyword_of_foreign other hc] at h
    cases h

theorem afterKeyword_chars (rest : List Char) :
    Text.afterKeyword field.keyword.toList (label.chars ++ rest) =
      some (label.separator :: (label.gap ++ rest)) :=
  Text.afterKeyword_eq_some_iff.2 ⟨label.word, by simp [chars], label.spells⟩

theorem afterSeparator_gap {c : Char} (hc : Text.isBlank c = false) (rest : List Char) :
    afterSeparator (label.separator :: (label.gap ++ c :: rest)) = some (c :: rest) := by
  rw [afterSeparator_eq_some_iff]
  exact ⟨_, _, label.separates, rfl, (label.blanks.dropWhile_append hc rest).symm⟩

theorem quotedSecret_chars {c : Char} (hc : Text.isBlank c = false) (rest : List Char) :
    quotedSecret field.keyword (label.chars ++ c :: rest) =
      (afterOne isQuote (c :: rest)).bind fun rest =>
        (afterRun isQuotedPart rest).bind (afterOne isQuote) := by
  rw [quotedSecret, label.afterKeyword_chars, Option.bind_some, label.afterSeparator_gap hc,
    Option.bind_some]

theorem bareSecret_chars {c : Char} (hc : Text.isBlank c = false) (rest : List Char) :
    bareSecret field.keyword (label.chars ++ c :: rest) =
      afterRun Text.isWordCharacter (c :: rest) := by
  rw [bareSecret, label.afterKeyword_chars, Option.bind_some, label.afterSeparator_gap hc,
    Option.bind_some]

end Label

/-! ### Passes over labels -/

/-- A shape starts with the keyword of a field. -/
def Keyed (field : Field) (shape : SecretShape) : Prop :=
  ∀ text, Text.afterKeyword field.keyword.toList text = none → shape text = none

theorem keyed_quotedSecret (field : Field) : Keyed field (quotedSecret field.keyword) :=
  fun text h => by rw [quotedSecret, h, Option.bind_none]

theorem keyed_bareSecret (field : Field) : Keyed field (bareSecret field.keyword) :=
  fun text h => by rw [bareSecret, h, Option.bind_none]

theorem keyed_of_mem_take {field : Field} {rule : SecretShape × String}
    (h : rule ∈ rules.take field.rank) : ∃ other, other ≠ field ∧ Keyed other rule.1 := by
  have hquoted := keyed_quotedSecret .password
  have hbare := keyed_bareSecret .password
  have huser := keyed_quotedSecret .user
  have htoken := keyed_quotedSecret .token
  cases field <;>
    simp only [Field.rank, rules, List.take_zero, List.take_succ_cons, List.mem_cons,
      List.not_mem_nil, or_false] at h
  case user => rcases h with rfl | rfl; exacts [⟨_, by decide, hquoted⟩, ⟨_, by decide, hbare⟩]
  case token =>
    rcases h with rfl | rfl | rfl
    exacts [⟨_, by decide, hquoted⟩, ⟨_, by decide, hbare⟩, ⟨_, by decide, huser⟩]
  case host =>
    rcases h with rfl | rfl | rfl | rfl
    exacts [⟨_, by decide, hquoted⟩, ⟨_, by decide, hbare⟩, ⟨_, by decide, huser⟩,
      ⟨_, by decide, htoken⟩]

theorem keyed_of_mem_earlier {rule : SecretShape × String} (h : rule ∈ rules.take 5) :
    ∃ field, Keyed field rule.1 := by
  have hrules : rules.take 5 =
      rules.take Field.host.rank ++ [(quotedSecret Field.host.keyword, "host=***")] := rfl
  rw [hrules, List.mem_append, List.mem_singleton] at h
  rcases h with h | rfl
  · obtain ⟨field, -, hkeyed⟩ := keyed_of_mem_take h
    exact ⟨field, hkeyed⟩
  · exact ⟨_, keyed_quotedSecret .host⟩

/-- No keyword starts where there are no letters. -/
theorem inert_of_foreign {passes : List (SecretShape × String)}
    (hkeyed : ∀ rule ∈ passes, ∃ field, Keyed field rule.1) {front : List Char}
    (h : ∀ c ∈ front, Foreign c) : Inert passes front := by
  intro rule hrule s hs hne rest
  obtain ⟨field, hfield⟩ := hkeyed rule hrule
  obtain ⟨c, s, rfl⟩ := List.exists_cons_of_ne_nil hne
  exact hfield _ (afterKeyword_of_foreign field (h c (hs.subset List.mem_cons_self)) _)

/-- No keyword of another field starts in a label. -/
theorem Label.inert {field : Field} (label : Label field) {passes : List (SecretShape × String)}
    (hkeyed : ∀ rule ∈ passes, ∃ other, other ≠ field ∧ Keyed other rule.1) :
    Inert passes label.chars := by
  intro rule hrule s hs hne rest
  obtain ⟨other, hother, hfield⟩ := hkeyed rule hrule
  refine hfield _ ?_
  cases h : Text.afterKeyword other.keyword.toList (s ++ rest) with
  | none => rfl
  | some after => exact absurd (label.eq_chars_of_afterKeyword hs hne h).1 hother

/-- A pass that finds no secret behind a label goes on behind the label. -/
theorem Label.replaceAll_chars {field : Field} (label : Label field) {shape : SecretShape}
    (hkeyed : Keyed field shape) {mask rest : List Char} (h : shape (label.chars ++ rest) = none) :
    replaceAll shape mask (label.chars ++ rest) = label.chars ++ replaceAll shape mask rest := by
  refine replaceAll_append_of_none fun s hs hne => ?_
  cases hword : Text.afterKeyword field.keyword.toList (s ++ rest) with
  | none => exact hkeyed _ hword
  | some after => rw [(label.eq_chars_of_afterKeyword hs hne hword).2, h]

theorem isBlank_of_isQuote {c : Char} (h : isQuote c = true) : Text.isBlank c = false := by
  simp only [isQuote, Bool.or_eq_true, beq_iff_eq] at h
  rcases h with rfl | rfl <;> decide

/-- The marks around secrets and in masks are in no word. -/
theorem isWordCharacter_of_mark {c : Char}
    (h : c ∈ ['=', ':', '\'', '"', ';', '*', '/', '@']) : Text.isWordCharacter c = false := by
  have hall : (['=', ':', '\'', '"', ';', '*', '/', '@'].all fun c => !Text.isWordCharacter c) =
      true := by decide +kernel
  simpa using List.all_eq_true.1 hall c h

theorem isWordCharacter_of_isQuote {c : Char} (h : isQuote c = true) :
    Text.isWordCharacter c = false := by
  simp only [isQuote, Bool.or_eq_true, beq_iff_eq] at h
  rcases h with rfl | rfl <;> exact isWordCharacter_of_mark (by simp)

/-! ### Secrets without quotes -/

theorem not_foreign_of_forms {word letters : List Char}
    (hletters : ∀ small ∈ letters, small ∈ alphabet)
    (h : List.Forall₂ (fun c small => Text.isLetterForm small c = true) word letters) :
    ∀ c ∈ word, ¬ Foreign c := by
  induction h with
  | nil => simp
  | cons hform _ ih =>
      rw [List.forall_mem_cons] at hletters ⊢
      exact ⟨fun hforeign => by simp [hforeign _ hletters.1] at hform, ih hletters.2⟩

/-- A quoted secret has two quotes. -/
theorem two_le_countP_of_quotedSecret {keyword : String} {text after : List Char}
    (h : quotedSecret keyword text = some after) : 2 ≤ text.countP isQuote := by
  obtain ⟨behind, hword, h⟩ := Option.bind_eq_some_iff.1 h
  obtain ⟨value, hseparator, h⟩ := Option.bind_eq_some_iff.1 h
  obtain ⟨_, hfirst, h⟩ := Option.bind_eq_some_iff.1 h
  obtain ⟨_, hrun, hlast⟩ := Option.bind_eq_some_iff.1 h
  obtain ⟨word, rfl, -⟩ := Text.afterKeyword_eq_some_iff.1 hword
  have hsub := (afterSeparator_suffix hseparator).sublist.countP_le (p := isQuote)
  obtain ⟨opening, hopening, rfl⟩ := afterOne_eq_some_iff.1 hfirst
  obtain ⟨run, -, -, rfl, -⟩ := afterRun_eq_some_iff.1 hrun
  obtain ⟨closing, hclosing, rfl⟩ := afterOne_eq_some_iff.1 hlast
  simp only [List.countP_cons, List.countP_append, hopening, hclosing, if_true] at hsub ⊢
  omega

/-- A bare secret has none. -/
theorem exists_front_of_bareSecret {field : Field} {text after : List Char}
    (h : bareSecret field.keyword text = some after) :
    ∃ front, text = front ++ after ∧ ∀ c ∈ front, isQuote c = false := by
  obtain ⟨_, hword, h⟩ := Option.bind_eq_some_iff.1 h
  obtain ⟨_, hseparator, hrun⟩ := Option.bind_eq_some_iff.1 h
  obtain ⟨word, rfl, hforms⟩ := Text.afterKeyword_eq_some_iff.1 hword
  obtain ⟨separator, rest, hc, rfl, rfl⟩ := afterSeparator_eq_some_iff.1 hseparator
  obtain ⟨run, -, hrun, heq, -⟩ := afterRun_eq_some_iff.1 hrun
  refine ⟨word ++ separator :: (rest.takeWhile Text.isBlank ++ run), ?_, fun c hmem => ?_⟩
  · conv_lhs => rw [← List.takeWhile_append_dropWhile (p := Text.isBlank) (l := rest), heq]
    simp
  · refine Bool.eq_false_iff.2 fun hquote => ?_
    simp only [List.mem_append, List.mem_cons] at hmem
    rcases hmem with hmem | rfl | hmem | hmem
    · exact not_foreign_of_forms field.mem_alphabet hforms c hmem (foreign_of_isQuote hquote)
    · rcases hc with rfl | rfl <;> cases hquote
    · exact absurd (List.mem_takeWhile_imp hmem) (by simp [isBlank_of_isQuote hquote])
    · exact absurd (hrun c hmem) (by simp [isWordCharacter_of_isQuote hquote])

/-- A text without quotes but for its end, and without semicolons. -/
def EndsQuoted (quote : Char) (text : List Char) : Prop :=
  ∃ inner, text = inner ++ [quote] ∧ ∀ c ∈ inner, isQuotedPart c = true

namespace EndsQuoted

variable {quote : Char}

theorem append {front text : List Char} (hfront : ∀ c ∈ front, isQuotedPart c = true)
    (h : EndsQuoted quote text) : EndsQuoted quote (front ++ text) := by
  obtain ⟨inner, rfl, hinner⟩ := h
  exact ⟨front ++ inner, (List.append_assoc _ _ _).symm, List.forall_mem_append.2 ⟨hfront, hinner⟩⟩

theorem cons {c : Char} {text : List Char} (hc : isQuotedPart c = true)
    (h : EndsQuoted quote text) : EndsQuoted quote (c :: text) := by
  obtain ⟨inner, rfl, hinner⟩ := h
  exact ⟨c :: inner, rfl, List.forall_mem_cons.2 ⟨hc, hinner⟩⟩

theorem of_append (hquote : isQuote quote = true) {front text : List Char}
    (hfront : ∀ c ∈ front, isQuote c = false) (h : EndsQuoted quote (front ++ text)) :
    EndsQuoted quote text := by
  obtain ⟨inner, heq, hinner⟩ := h
  obtain ⟨between, rfl, rfl⟩ | ⟨between, rfl, hend⟩ := List.append_eq_append_iff.1 heq
  · exact ⟨between, rfl, fun c hc => hinner c (List.mem_append_right _ hc)⟩
  · cases between with
    | nil => exact ⟨[], hend.symm, by simp⟩
    | cons c between =>
        obtain ⟨rfl, -⟩ := List.cons.inj hend
        have := hfront quote (List.mem_append_right _ List.mem_cons_self)
        simp [hquote] at this

/-- One quote opens no value. -/
theorem replaceAll_quoted {keyword : String} {mask text : List Char} (h : EndsQuoted quote text) :
    replaceAll (quotedSecret keyword) mask text = text := by
  obtain ⟨inner, rfl, hinner⟩ := h
  have hone : (inner ++ [quote]).countP isQuote ≤ 1 := by
    have hzero : inner.countP isQuote = 0 := List.countP_eq_zero.2 fun c hc => by
      have := hinner c hc
      simp_all [isQuotedPart]
    rw [List.countP_append, hzero, Nat.zero_add]
    exact List.countP_le_length
  refine replaceAll_of_forall_none fun s hs _ => ?_
  cases hmatch : quotedSecret keyword s with
  | none => rfl
  | some after =>
      have htwo := two_le_countP_of_quotedSecret hmatch
      have hsub := hs.sublist.countP_le (p := isQuote)
      omega

theorem replaceAll_bare (hquote : isQuote quote = true) {text : List Char}
    (h : EndsQuoted quote text) :
    EndsQuoted quote
      (replaceAll (bareSecret Field.password.keyword) "password=***".toList text) := by
  have hconsumes : Consumes (bareSecret Field.password.keyword) := consumes_bareSecret (by decide)
  induction hn : text.length using Nat.strong_induction_on generalizing text with
  | _ n ih =>
      cases hmatch : bareSecret Field.password.keyword text with
      | some after =>
          obtain ⟨front, rfl, hfront⟩ := exists_front_of_bareSecret hmatch
          obtain ⟨front', hne, heq⟩ := hconsumes hmatch
          obtain rfl := List.append_cancel_right heq
          have hshort : after.length < n := by
            rw [← hn, List.length_append]
            exact Nat.lt_add_of_pos_left (List.length_pos_iff.2 hne)
          rw [replaceAll_of_some hconsumes hmatch]
          exact append (forall_mem_of_all (by decide)) (ih _ hshort (of_append hquote hfront h) rfl)
      | none =>
          obtain ⟨inner, rfl, hinner⟩ := h
          cases inner with
          | nil =>
              rw [List.nil_append] at hmatch ⊢
              rw [replaceAll_of_none hmatch, replaceAll_nil]
              exact ⟨[], rfl, by simp⟩
          | cons c inner =>
              rw [List.forall_mem_cons] at hinner
              rw [List.cons_append] at hmatch ⊢
              rw [replaceAll_of_none hmatch]
              exact .cons hinner.1 <| ih _ (by simp [← hn]) ⟨inner, rfl, hinner.2⟩ rfl

/-- The passes over passwords, users and tokens leave such a text such a text. -/
theorem maskWith {passes : List (SecretShape × String)} (hpasses : passes ⊆ rules.take 4)
    (hquote : isQuote quote = true) {text : List Char} (h : EndsQuoted quote text) :
    EndsQuoted quote (Masking.maskWith passes text) := by
  induction passes generalizing text with
  | nil => exact h
  | cons rule passes ih =>
      refine ih (fun _ hrule => hpasses (List.mem_cons_of_mem rule hrule)) ?_
      have hrule := hpasses List.mem_cons_self
      simp only [rules, List.take_succ_cons, List.take_zero, List.mem_cons, List.not_mem_nil,
        or_false] at hrule
      change EndsQuoted quote (replaceAll rule.1 rule.2.toList text)
      rcases hrule with rfl | rfl | rfl | rfl
      · rwa [h.replaceAll_quoted]
      · exact h.replaceAll_bare hquote
      · rwa [h.replaceAll_quoted]
      · rwa [h.replaceAll_quoted]

end EndsQuoted

end StarCube.Masking
