import StarCube.Proofs.Masking.Splits

/-!
Values that are left behind labels. No pass over labels brings a value behind a label that no value
stood behind before, because no label starts within a mask and no mask within a label: after all of
them no value stands behind a label. The pass over addresses brings none but quoted ones.
-/

namespace StarCube.Masking

/-! ### Values behind labels -/

/-- The text goes on to a quote with neither quote nor semicolon before it. -/
def Closes (text : List Char) : Prop :=
  ∃ value closing rest, text = value ++ closing :: rest ∧ (∀ c ∈ value, isQuotedPart c = true) ∧
    isQuote closing = true

/-- How a value is written. -/
inductive Kind where
  | quoted
  | bare
  deriving DecidableEq

namespace Kind

/-- The text starts with a value of the kind. -/
def Starts : Kind → List Char → Prop
  | quoted, text =>
      ∃ opening rest, text = opening :: rest ∧ isQuote opening = true ∧ Closes rest ∧
        ∀ c ∈ rest.head?, isQuote c = false
  | bare, text => ∃ c rest, text = c :: rest ∧ Text.isWordCharacter c = true

def shape (field : Field) : Kind → SecretShape
  | quoted => quotedSecret field.keyword
  | bare => bareSecret field.keyword

theorem keyed_shape (field : Field) (kind : Kind) : Keyed field (kind.shape field) := by
  cases kind with
  | quoted => exact keyed_quotedSecret field
  | bare => exact keyed_bareSecret field

theorem consumes_shape (field : Field) (kind : Kind) : Consumes (kind.shape field) := by
  have hne : field.keyword.toList ≠ [] := by cases field <;> decide
  cases kind with
  | quoted => exact consumes_quotedSecret hne
  | bare => exact consumes_bareSecret hne

end Kind

/-- The mask of a field: its keyword, an equals sign and three stars. -/
def Field.mask (field : Field) : List Char :=
  (field.keyword ++ "=***").toList

/-- The keyword of a field with an equals sign. -/
def Label.plain (field : Field) : Label field where
  word := field.keyword.toList
  separator := '='
  gap := []
  spells := by cases field <;> decide
  separates := .inl rfl
  blanks := Text.Blanks.nil

theorem Field.mask_eq (field : Field) : field.mask = (Label.plain field).chars ++ "***".toList := by
  simp [Field.mask, Label.plain, Label.chars]

theorem Field.mask_ne_nil (field : Field) : field.mask ≠ [] := by
  cases field <;> decide

theorem Field.isQuote_mask (field : Field) : ∀ c ∈ field.mask, isQuote c = false := by
  cases field <;> exact forall_mem_of_all (by decide)

section Values

variable {field : Field} {text : List Char}

/-- A quoted value starts with its opening quote, goes on with something that is no quote, and
reaches its closing quote before a semicolon. -/
theorem starts_quoted_iff {opening : Char} {rest : List Char} :
    Kind.quoted.Starts (opening :: rest) ↔ isQuote opening = true ∧
      ∃ value closing behind, rest = value ++ closing :: behind ∧ value ≠ [] ∧
        (∀ c ∈ value, isQuotedPart c = true) ∧ isQuote closing = true := by
  constructor
  · rintro ⟨_, _, heq, hopening, ⟨value, closing, behind, rfl, hvalue, hclosing⟩, hfirst⟩
    obtain ⟨rfl, rfl⟩ := List.cons.inj heq
    refine ⟨hopening, value, closing, behind, rfl, ?_, hvalue, hclosing⟩
    rintro rfl
    simp [hclosing] at hfirst
  · rintro ⟨hopening, value, closing, behind, rfl, hne, hvalue, hclosing⟩
    refine ⟨opening, _, rfl, hopening, ⟨value, closing, behind, rfl, hvalue, hclosing⟩, ?_⟩
    obtain ⟨c, value, rfl⟩ := List.exists_cons_of_ne_nil hne
    have := hvalue c List.mem_cons_self
    simp_all [isQuotedPart]

theorem Kind.shape_ne_none_iff (kind : Kind) :
    kind.shape field text ≠ none ↔
      ∃ (label : Label field) (rest : List Char), kind.Starts rest ∧
        text = label.chars ++ rest := by
  rw [Option.ne_none_iff_exists']
  cases kind with
  | quoted =>
      simp only [Kind.shape, quotedSecret_eq_some_iff]
      constructor
      · rintro ⟨after, label, opening, value, closing, rfl, hopening, hrest⟩
        exact ⟨label, _, starts_quoted_iff.2 ⟨hopening, value, closing, after, rfl, hrest⟩, rfl⟩
      · rintro ⟨label, rest, hstarts, rfl⟩
        obtain ⟨opening, rest, rfl, -⟩ := id hstarts
        obtain ⟨hopening, value, closing, after, rfl, hrest⟩ := starts_quoted_iff.1 hstarts
        exact ⟨after, label, opening, value, closing, rfl, hopening, hrest⟩
  | bare =>
      constructor
      · rintro ⟨after, hmatch⟩
        obtain ⟨label, value, rfl, hne, hvalue, -⟩ := bareSecret_eq_some_iff.1 hmatch
        obtain ⟨c, value, rfl⟩ := List.exists_cons_of_ne_nil hne
        exact ⟨label, _, ⟨c, value ++ after, rfl, hvalue c List.mem_cons_self⟩, rfl⟩
      · rintro ⟨label, _, ⟨c, rest, rfl, hc⟩, rfl⟩
        rw [Kind.shape, label.bareSecret_chars (isBlank_of_isWordCharacter hc), afterRun, if_pos hc]
        exact ⟨_, rfl⟩

/-- Somewhere in a text a value of a kind stands behind a label. -/
def Shows (field : Field) (kind : Kind) (text : List Char) : Prop :=
  ∃ (label : Label field) (rest : List Char), kind.Starts rest ∧ label.chars ++ rest <:+ text

theorem free_shape_iff {kind : Kind} : Free (kind.shape field) text ↔ ¬ Shows field kind text := by
  constructor
  · rintro hfree ⟨label, rest, hstarts, hsuffix⟩
    have hne : label.chars ++ rest ≠ [] := by simp [Label.chars]
    exact kind.shape_ne_none_iff.2 ⟨label, rest, hstarts, rfl⟩ (hfree _ hsuffix hne)
  · intro hnone s hs _
    by_contra hmatch
    obtain ⟨label, rest, hstarts, rfl⟩ := kind.shape_ne_none_iff.1 hmatch
    exact hnone ⟨label, rest, hstarts, hs⟩

end Values

/-! ### Masks and labels -/

section Aloof

variable {field : Field} {text : List Char}

theorem Label.cases_of_mem (label : Label field) {c : Char} (h : c ∈ label.chars) :
    ¬ Foreign c ∨ c = '=' ∨ c = ':' ∨ Text.isBlank c = true := by
  rcases List.mem_append.1 h with hword | hrest
  · exact .inl (not_foreign_of_forms field.mem_alphabet label.spells c hword)
  · rcases List.mem_cons.1 hrest with rfl | hgap
    · exact .inr (label.separates.imp_right .inl)
    · exact .inr (.inr (.inr (label.blanks c hgap)))

theorem Label.exists_cons (label : Label field) :
    ∃ c rest, label.chars = c :: rest ∧ Text.isWordCharacter c = true := by
  obtain ⟨small, smalls, hkeyword⟩ : ∃ small smalls, field.keyword.toList = small :: smalls := by
    cases field <;> exact ⟨_, _, rfl⟩
  have hspells := label.spells
  rw [hkeyword] at hspells
  cases hword : label.word with
  | nil => simp [hword] at hspells
  | cons c word =>
      rw [hword] at hspells
      have hsmall := field.mem_alphabet small (hkeyword ▸ List.mem_cons_self)
      exact ⟨c, _, by rw [Label.chars, hword, List.cons_append],
        isWordCharacter_of_isLetterForm hsmall (List.forall₂_cons.1 hspells).1⟩

theorem Label.slash_not_mem (label : Label field) : '/' ∉ label.chars := by
  intro h
  have := label.cases_of_mem h
  revert this
  decide

/-- No value starts with a star or a slash. -/
theorem Kind.Starts.exists_cons {kind : Kind} (h : kind.Starts text) :
    ∃ c rest, text = c :: rest ∧ c ≠ '*' ∧ c ≠ '/' := by
  cases kind with
  | quoted =>
      obtain ⟨c, rest, rfl, hc, -⟩ := h
      refine ⟨c, rest, rfl, ?_, ?_⟩ <;> rintro rfl <;> cases hc
  | bare =>
      obtain ⟨c, rest, rfl, hc⟩ := h
      refine ⟨c, rest, rfl, ?_, ?_⟩ <;> rintro rfl <;> simp [isWordCharacter_of_mark] at hc

/-- A mask within which no label starts, and that does not start within a label with its value. -/
structure Aloof (mask : List Char) : Prop where
  within : ∀ cut, cut <:+ mask → cut ≠ [] → cut ≠ mask → ∀ (field : Field) rest,
    Text.afterKeyword field.keyword.toList (cut ++ rest) = none
  behind : ∀ {field : Field} (label : Label field) {kind : Kind} {value : List Char},
    kind.Starts value → ∀ s, s <:+ label.chars → s ≠ [] → ∀ rest, s ++ value ≠ mask ++ rest

theorem aloof_address : Aloof "://***:***@".toList where
  within cut hcut hne _ field rest := by
    obtain ⟨c, cut, rfl⟩ := List.exists_cons_of_ne_nil hne
    have hforeign : ∀ c ∈ "://***:***@".toList, Foreign c := forall_mem_of_all (by decide)
    exact afterKeyword_of_foreign field (hforeign c (hcut.subset List.mem_cons_self)) _
  behind label kind value hvalue s hs hne rest heq := by
    have hmask : "://***:***@".toList = ':' :: '/' :: "/***:***@".toList := by decide
    obtain ⟨c, s, rfl⟩ := List.exists_cons_of_ne_nil hne
    rw [hmask, List.cons_append, List.cons_append, List.cons_append, List.cons.injEq] at heq
    cases s with
    | nil =>
        obtain ⟨d, value, rfl, -, hslash⟩ := hvalue.exists_cons
        exact hslash (List.cons.inj heq.2).1
    | cons d s =>
        obtain ⟨rfl, -⟩ := List.cons.inj heq.2
        exact label.slash_not_mem (hs.subset (by simp))

theorem aloof_mask (field : Field) : Aloof field.mask where
  within cut hcut hne hall other rest := by
    rw [field.mask_eq] at hcut hall
    by_cases hstars : cut <:+ "***".toList
    · obtain ⟨c, cut, rfl⟩ := List.exists_cons_of_ne_nil hne
      have hforeign : ∀ c ∈ "***".toList, Foreign c := forall_mem_of_all (by decide)
      exact afterKeyword_of_foreign other (hforeign c (hstars.subset List.mem_cons_self)) _
    · -- A part of the label and the stars: the keyword starts where the label does.
      obtain ⟨s, rfl⟩ :=
        (List.suffix_or_suffix_of_suffix hcut (List.suffix_append _ _)).resolve_left hstars
      have hs : s <:+ (Label.plain field).chars := List.suffix_append_self_iff.1 hcut
      have hsne : s ≠ [] := by
        rintro rfl
        exact hstars List.suffix_rfl
      cases hword : Text.afterKeyword other.keyword.toList (s ++ "***".toList ++ rest) with
      | none => rfl
      | some after =>
          rw [List.append_assoc] at hword
          rw [((Label.plain field).eq_chars_of_afterKeyword hs hsne hword).2] at hall
          exact absurd rfl hall
  behind label kind value hvalue s hs hne rest heq := by
    rw [field.mask_eq, List.append_assoc] at heq
    have hword := (Label.plain field).afterKeyword_chars ("***".toList ++ rest)
    rw [← heq] at hword
    obtain ⟨rfl, rfl⟩ := label.eq_chars_of_afterKeyword hs hne hword
    -- Behind a label of the same length there are stars, not the value.
    have hlength : label.word.length = (Label.plain field).word.length :=
      label.spells.length_eq
    rw [Label.chars, Label.chars, List.append_assoc, List.append_assoc] at heq
    have htail := (List.append_inj heq hlength).2
    rw [List.cons_append, List.cons_append, List.cons.injEq] at htail
    obtain ⟨c, value, rfl, hstar, -⟩ := hvalue.exists_cons
    have hgap := htail.2
    cases hgap' : label.gap with
    | nil =>
        rw [hgap'] at hgap
        exact hstar (List.cons.inj hgap).1
    | cons d gap =>
        rw [hgap'] at hgap
        have hblank := label.blanks d (hgap' ▸ List.mem_cons_self)
        rw [(List.cons.inj hgap).1] at hblank
        cases hblank

variable {shape : SecretShape} {mask : List Char} {kind : Kind}

/-- A label with a value in what a pass leaves was there before, no match of the pass. -/
theorem exists_split_label (hshape : Consumes shape) (hmask : Aloof mask) (label : Label field)
    {front value : List Char} (hvalue : kind.Starts value)
    (h : replaceAll shape mask text = front ++ (label.chars ++ value)) :
    ∃ before rest, text = before ++ (label.chars ++ rest) ∧ shape (label.chars ++ rest) = none ∧
      replaceAll shape mask rest = value ∧
      (Closed shape → replaceAll shape mask before = front) := by
  have hne : label.chars ≠ [] := by simp [Label.chars]
  rcases exists_split hshape h with
    ⟨before, right, rfl, hright, hbefore⟩ | ⟨cut, after, hcut, hcne, hall, hback⟩
  · obtain ⟨rest, rfl, hrest⟩ := exists_copy hshape hright (hmask.behind label hvalue)
    refine ⟨before, rest, rfl, ?_, hrest, hbefore⟩
    cases hmatch : shape (label.chars ++ rest) with
    | none => rfl
    | some after =>
        rw [replaceAll_of_some hshape hmatch] at hright
        exact absurd hright.symm (hmask.behind label hvalue _ List.suffix_rfl hne _)
  · have hword := hmask.within cut hcut hcne hall field after
    rw [← hback, label.afterKeyword_chars] at hword
    cases hword

theorem Shows.origin (hshape : Consumes shape) (hmask : Aloof mask)
    (h : Shows field kind (replaceAll shape mask text)) :
    ∃ (label : Label field) (rest : List Char), kind.Starts (replaceAll shape mask rest) ∧
      label.chars ++ rest <:+ text ∧ shape (label.chars ++ rest) = none := by
  obtain ⟨label, value, hvalue, front, hleft⟩ := h
  obtain ⟨before, rest, rfl, hnone, rfl, -⟩ :=
    exists_split_label hshape hmask label hvalue hleft.symm
  exact ⟨label, rest, hvalue, List.suffix_append before _, hnone⟩

end Aloof

/-! ### Passes over labels -/

section Passes

variable {field : Field} {text : List Char}

theorem eq_of_isQuotedPart_eq_false {c : Char} (h : isQuotedPart c = false) :
    isQuote c = true ∨ c = ';' := by
  simpa [isQuotedPart, ← imp_iff_not_or, Decidable.imp_iff_not_or] using h

theorem isQuotedPart_of_isWordCharacter {c : Char} (h : Text.isWordCharacter c = true) :
    isQuotedPart c = true := by
  by_contra hpart
  rcases eq_of_isQuotedPart_eq_false (Bool.eq_false_iff.2 hpart) with hquote | rfl
  · simp [isWordCharacter_of_isQuote hquote] at h
  · simp [isWordCharacter_of_mark] at h

theorem Label.isQuotedPart (label : Label field) : ∀ c ∈ label.chars, isQuotedPart c = true := by
  intro c hc
  by_contra hpart
  have hcases := label.cases_of_mem hc
  rcases eq_of_isQuotedPart_eq_false (Bool.eq_false_iff.2 hpart) with hquote | rfl
  · rcases hcases with hletter | rfl | rfl | hblank
    · exact hletter (foreign_of_isQuote hquote)
    · cases hquote
    · cases hquote
    · simp [isBlank_of_isQuote hquote] at hblank
  · revert hcases
    decide

namespace Closes

theorem append {front : List Char} (hfront : ∀ c ∈ front, isQuotedPart c = true)
    (h : Closes text) : Closes (front ++ text) := by
  obtain ⟨value, closing, rest, rfl, hvalue, hclosing⟩ := h
  exact ⟨front ++ value, closing, rest, (List.append_assoc _ _ _).symm,
    List.forall_mem_append.2 ⟨hfront, hvalue⟩, hclosing⟩

theorem of_append {front : List Char} (hfront : ∀ c ∈ front, isQuote c = false)
    (h : Closes (front ++ text)) : Closes text := by
  obtain ⟨value, closing, rest, heq, hvalue, hclosing⟩ := h
  obtain ⟨between, rfl, rfl⟩ | ⟨between, rfl, hrest⟩ := List.append_eq_append_iff.1 heq
  · exact ⟨between, closing, rest, rfl, fun c hc => hvalue c (List.mem_append_right _ hc), hclosing⟩
  · cases between with
    | nil => exact ⟨[], closing, rest, hrest.symm, by simp, hclosing⟩
    | cons c between =>
        obtain ⟨rfl, -⟩ := List.cons.inj hrest
        have := hfront closing (List.mem_append_right _ List.mem_cons_self)
        simp [hclosing] at this

/-- A pass over labels closes no value: it leaves semicolons, and it takes quotes in only behind a
label. -/
theorem of_replaceAll {kind : Kind}
    (h : Closes (replaceAll (kind.shape field) field.mask text)) : Closes text := by
  have hshape := kind.consumes_shape field
  induction hn : text.length using Nat.strong_induction_on generalizing text with
  | _ n ih =>
      cases text with
      | nil => exact h
      | cons c rest =>
          cases hmatch : kind.shape field (c :: rest) with
          | none =>
              rw [replaceAll_of_none hmatch] at h
              obtain ⟨value, closing, behind, heq, hvalue, hclosing⟩ := h
              cases value with
              | nil =>
                  obtain ⟨rfl, -⟩ := List.cons.inj heq
                  exact ⟨[], c, rest, rfl, by simp, hclosing⟩
              | cons d value =>
                  obtain ⟨rfl, hrest⟩ := List.cons.inj heq
                  rw [List.forall_mem_cons] at hvalue
                  have hlater := ih rest.length (by simp [← hn])
                    ⟨value, closing, behind, hrest, hvalue.2, hclosing⟩ rfl
                  have hfirst : ∀ d ∈ [c], isQuotedPart d = true := by simpa using hvalue.1
                  exact hlater.append hfirst
          | some after =>
              rw [replaceAll_of_some hshape hmatch] at h
              have hshort := hn ▸ hshape.length_lt hmatch
              cases kind with
              | quoted =>
                  obtain ⟨label, opening, value, closing, htext, hopening, -⟩ :=
                    quotedSecret_eq_some_iff.1 hmatch
                  exact htext ▸ ⟨label.chars, opening, _, rfl, label.isQuotedPart, hopening⟩
              | bare =>
                  obtain ⟨label, value, htext, -, hvalue, -⟩ := bareSecret_eq_some_iff.1 hmatch
                  have hafter := ih _ hshort (h.of_append field.isQuote_mask) rfl
                  rw [htext]
                  exact (hafter.append fun c hc =>
                    isQuotedPart_of_isWordCharacter (hvalue c hc)).append
                    label.isQuotedPart

end Closes

theorem Keyed.replaceAll_cons {shape : SecretShape} (hkeyed : Keyed field shape) {mask : List Char}
    {c : Char} (hc : Foreign c) (rest : List Char) :
    replaceAll shape mask (c :: rest) = c :: replaceAll shape mask rest :=
  replaceAll_of_none (hkeyed _ (afterKeyword_of_foreign field hc rest))

/-- A pass over labels brings no value to the front of a text. -/
theorem Kind.Starts.of_replaceAll {kind other : Kind}
    (h : kind.Starts (replaceAll (other.shape field) field.mask text)) : kind.Starts text := by
  have hshape := other.consumes_shape field
  cases kind with
  | quoted =>
      obtain ⟨opening, behind, heq, hopening, hcloses, hfirst⟩ := h
      obtain ⟨rest, rfl, rfl⟩ := exists_copy_cons hshape field.mask_ne_nil
        (fun hmem => by simp [field.isQuote_mask opening hmem] at hopening) heq
      refine ⟨opening, rest, rfl, hopening, hcloses.of_replaceAll, fun c hc => ?_⟩
      cases rest with
      | nil => cases hc
      | cons d rest =>
          obtain rfl : d = c := by simpa using hc
          refine Bool.eq_false_iff.2 fun hquote => ?_
          rw [(other.keyed_shape field).replaceAll_cons (foreign_of_isQuote hquote)] at hfirst
          simp [hquote] at hfirst
  | bare =>
      cases text with
      | nil => exact h
      | cons c rest =>
          cases hmatch : other.shape field (c :: rest) with
          | none =>
              rw [replaceAll_of_none hmatch] at h
              obtain ⟨_, _, heq, hc⟩ := h
              exact ⟨c, rest, rfl, (List.cons.inj heq).1 ▸ hc⟩
          | some after =>
              obtain ⟨label, value, -, htext⟩ :=
                other.shape_ne_none_iff.1 (hmatch ▸ Option.some_ne_none after)
              obtain ⟨letter, chars, hchars, hletter⟩ := label.exists_cons
              rw [hchars] at htext
              exact ⟨letter, _, htext, hletter⟩

/-- A pass over labels brings no value behind a label. -/
theorem Shows.of_replaceAll {kind other : Kind} {field' : Field}
    (h : Shows field kind (replaceAll (other.shape field') field'.mask text)) :
    Shows field kind text := by
  obtain ⟨label, rest, hstarts, hsuffix, -⟩ :=
    h.origin (other.consumes_shape field') (aloof_mask field')
  exact ⟨label, rest, hstarts.of_replaceAll, hsuffix⟩

/-- A pass over labels leaves no value of its kind behind a label of its field. -/
theorem not_shows_replaceAll {kind : Kind} :
    ¬ Shows field kind (replaceAll (kind.shape field) field.mask text) := by
  intro h
  obtain ⟨label, rest, hstarts, -, hnone⟩ := h.origin (kind.consumes_shape field) (aloof_mask field)
  exact kind.shape_ne_none_iff.2 ⟨label, rest, hstarts.of_replaceAll, rfl⟩ hnone

/-- The passes over labels, in their order. -/
def labelled : List (Kind × Field) :=
  [(.quoted, .password), (.bare, .password), (.quoted, .user), (.quoted, .token), (.quoted, .host)]

def rule (part : Kind × Field) : SecretShape × String :=
  (part.1.shape part.2, part.2.keyword ++ "=***")

theorem rules_eq_labelled : rules.take 5 = labelled.map rule := rfl

theorem mem_labelled_iff {kind : Kind} :
    (kind, field) ∈ labelled ↔ kind = .quoted ∨ field = .password := by
  cases kind <;> cases field <;> decide

theorem forall_mem_earlier_iff {motive : SecretShape × String → Prop} :
    (∀ rule ∈ rules.take 5, motive rule) ↔
      (∀ field, motive (rule (.quoted, field))) ∧ motive (rule (.bare, .password)) := by
  rw [rules_eq_labelled, List.forall_mem_map]
  constructor
  · exact fun h =>
      ⟨fun field => h _ (mem_labelled_iff.2 (.inl rfl)), h _ (mem_labelled_iff.2 (.inr rfl))⟩
  · rintro ⟨hquoted, hbare⟩ ⟨kind, field⟩ hpart
    rcases mem_labelled_iff.1 hpart with rfl | rfl
    · exact hquoted field
    · cases kind with
      | quoted => exact hquoted .password
      | bare => exact hbare

theorem not_shows_maskWith_map {part : Kind × Field} {parts : List (Kind × Field)}
    (h : ¬ Shows part.2 part.1 text ∨ part ∈ parts) :
    ¬ Shows part.2 part.1 (maskWith (parts.map rule) text) := by
  induction parts generalizing text with
  | nil => simpa [maskWith] using h
  | cons first parts ih =>
      rw [List.map_cons, maskWith_cons]
      refine ih ?_
      rcases h with hnone | hmem
      · exact .inl fun hshows => hnone hshows.of_replaceAll
      · rcases List.mem_cons.1 hmem with rfl | hlater
        · exact .inl not_shows_replaceAll
        · exact .inr hlater

/-- After the passes over labels no value stands behind a label. -/
theorem not_shows_maskWith {part : Kind × Field} (h : part ∈ labelled) :
    ¬ Shows part.2 part.1 (maskWith (rules.take 5) text) :=
  rules_eq_labelled ▸ not_shows_maskWith_map (.inr h)

/-- The pass over addresses brings no bare value behind a label. -/
theorem Shows.of_address
    (h : Shows field .bare (replaceAll addressSecret "://***:***@".toList text)) :
    Shows field .bare text := by
  obtain ⟨label, rest, ⟨c, behind, heq, hc⟩, hsuffix, -⟩ :=
    h.origin consumes_addressSecret aloof_address
  have hmarks : ∀ d ∈ "://***:***@".toList, d ∈ ['=', ':', '\'', '"', ';', '*', '/', '@'] :=
    forall_mem_of_all (by decide)
  obtain ⟨rest, rfl, -⟩ := exists_copy_cons consumes_addressSecret (by decide)
    (fun hmem => by simp [isWordCharacter_of_mark (hmarks c hmem)] at hc) heq
  exact ⟨label, _, ⟨c, rest, rfl, hc⟩, hsuffix⟩

end Passes

end StarCube.Masking
