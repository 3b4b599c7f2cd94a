import StarCube.Proofs.Query.Scanning
import StarCube.Proofs.Text.Bracketed
import StarCube.Query.MemberReference

/-!
The forms of references to dimensions: names with points between them, in brackets or plain. Every
documented form is read as it is meant, and so is what the query language reads. Beyond these the
reader takes what it overlooks: what stands outside the brackets of a text that starts with one, and
the brackets of a text that does not.
-/

namespace StarCube

open Text

namespace MemberReference

/-- Parts with a point between each two. -/
inductive Dotted : List Char → List (List Char) → Prop where
  | last {part : List Char} (h : '.' ∉ part) : Dotted part [part]
  | more {part text : List Char} {parts : List (List Char)} (h : '.' ∉ part)
      (hrest : Dotted text parts) : Dotted (part ++ '.' :: text) (part :: parts)

/-- Bracketed parts with a point between each two, which may have white space around it. -/
inductive Bracketed : List Char → List (List Char) → Prop where
  | last {part : List Char} (h : ']' ∉ part) : Bracketed ('[' :: (part ++ [']'])) [part]
  | more {part gap gap' text : List Char} {parts : List (List Char)} (h : ']' ∉ part)
      (hgap : Blanks gap) (hgap' : Blanks gap') (hrest : Bracketed text parts) :
      Bracketed ('[' :: (part ++ ']' :: (gap ++ '.' :: (gap' ++ text)))) (part :: parts)

/-- What one, two or three names refer to. -/
inductive StandsFor : List (List Char) → MemberReference → Prop where
  | dimension (dimension : List Char) :
      StandsFor [dimension] ⟨String.ofList dimension, none, none⟩
  | level (dimension level : List Char) :
      StandsFor [dimension, level] ⟨String.ofList dimension, none, some (String.ofList level)⟩
  | hierarchy (dimension hierarchy level : List Char) :
      StandsFor [dimension, hierarchy, level]
        ⟨String.ofList dimension, some (String.ofList hierarchy), some (String.ofList level)⟩

/-- A trimmed text is plain parts without brackets or bracketed parts. -/
def Form (text : List Char) (parts : List (List Char)) : Prop :=
  (Dotted text parts ∧ ∀ part ∈ parts, '[' ∉ part ∧ ']' ∉ part) ∨ Bracketed text parts

/-- A text has a documented form, and its trimmed parts, none of them blank, make up a reference. -/
def Documents (text : String) (reference : MemberReference) : Prop :=
  ∃ parts, Form (trimmed text.toList) parts ∧ (∀ part ∈ parts, trimmed part ≠ []) ∧
    StandsFor (parts.map trimmed) reference

/-- A bracketed name stands at the front. -/
def BeginsName (text : List Char) : Prop :=
  ∃ name rest, text = '[' :: (name ++ ']' :: rest) ∧ name ≠ [] ∧ ']' ∉ name

/-- A text taken apart at its bracketed names, from the left: the names, and the gaps before,
between and behind them. -/
inductive TakenApart : List Char → List (List Char) → List (List Char) → Prop where
  | nil : TakenApart [] [] [[]]
  | skip {c : Char} {gap text : List Char} {names gaps : List (List Char)}
      (h : ¬ BeginsName (c :: text)) (hrest : TakenApart text names (gap :: gaps)) :
      TakenApart (c :: text) names ((c :: gap) :: gaps)
  | name {name text : List Char} {names gaps : List (List Char)} (hne : name ≠ [])
      (hopen : ']' ∉ name) (hrest : TakenApart text names gaps) :
      TakenApart ('[' :: (name ++ ']' :: text)) (name :: names) ([] :: gaps)

/-- The gaps behind the first name: a point between each two names, and nothing behind the last. -/
inductive Joins : List (List Char) → Prop where
  | last : Joins [[]]
  | more {gap gap' : List Char} {gaps : List (List Char)} (hgap : Blanks gap) (hgap' : Blanks gap')
      (hrest : Joins gaps) : Joins ((gap ++ '.' :: gap') :: gaps)

/-- A trimmed text of which something is overlooked: a bracket within a plain part, or whatever else
stands outside the brackets than a point between each two. -/
inductive Overlooks (text : List Char) : Prop where
  | bracket {parts : List (List Char)} {part : List Char} (hopen : text.head? ≠ some '[')
      (h : Dotted text parts) (hlength : parts.length ≤ 3)
      (hparts : ∀ part ∈ parts, trimmed part ≠ [])
      (hpart : part ∈ parts) (hbracket : '[' ∈ part ∨ ']' ∈ part)
  | gap {names gaps : List (List Char)} (hopen : text.head? = some '[')
      (h : TakenApart text names gaps)
      (hne : names ≠ []) (hlength : names.length ≤ 3) (hnames : ∀ name ∈ names, trimmed name ≠ [])
      (hgaps : ∀ others, gaps = [] :: others → ¬ Joins others)

variable {text : List Char} {names parts gaps : List (List Char)} {reference : MemberReference}

/-! ### Names and what they stand for -/

theorem ofNames?_eq_some_iff : ofNames? names = some reference ↔ StandsFor names reference := by
  constructor
  · intro h
    unfold ofNames? at h
    split at h
    · exact Option.some.inj h ▸ .dimension _
    · exact Option.some.inj h ▸ .level _ _
    · exact Option.some.inj h ▸ .hierarchy _ _ _
    · cases h
  · rintro (_ | _ | _) <;> rfl

theorem exists_standsFor (hne : names ≠ []) (hlength : names.length ≤ 3) :
    ∃ reference, StandsFor names reference := by
  match names, hne with
  | [dimension], _ => exact ⟨_, .dimension _⟩
  | [dimension, level], _ => exact ⟨_, .level _ _⟩
  | [dimension, hierarchy, level], _ => exact ⟨_, .hierarchy _ _ _⟩
  | _ :: _ :: _ :: _ :: _, _ =>
      simp only [List.length_cons] at hlength
      omega

theorem StandsFor.count (h : StandsFor names reference) : names ≠ [] ∧ names.length ≤ 3 := by
  cases h <;> simp

/-! ### Plain parts -/

theorem dotted_append {part text first : List Char} {others : List (List Char)} (h : '.' ∉ part)
    (htext : dotted text = first :: others) :
    dotted (part ++ text) = (part ++ first) :: others := by
  induction part with
  | nil => exact htext
  | cons c part ih =>
      obtain ⟨hc, hpart⟩ := not_or.1 (List.mem_cons.not.1 h)
      simp [dotted, ih hpart, Ne.symm hc]

theorem dotted_dotted (text : List Char) : Dotted text (dotted text) := by
  induction text with
  | nil => exact .last (by simp)
  | cons c text ih =>
      rw [dotted]
      split
      · rename_i hc
        have hempty : '.' ∉ ([] : List Char) := List.not_mem_nil
        exact hc ▸ Dotted.more hempty ih
      · rename_i hc
        generalize dotted text = parts at ih
        have hcons {part : List Char} (h : '.' ∉ part) : '.' ∉ c :: part := by
          simp [h, Ne.symm hc]
        cases ih with
        | last h => exact .last (hcons h)
        | more h hrest => exact Dotted.more (hcons h) hrest

theorem Dotted.dotted_eq (h : Dotted text parts) : dotted text = parts := by
  induction h with
  | last h =>
      have hempty : dotted [] = [[]] := rfl
      simpa using dotted_append h hempty
  | @more part text parts h _ ih =>
      have htext : dotted ('.' :: text) = [] :: parts := by rw [dotted, if_pos rfl, ih]
      simpa using dotted_append h htext

theorem Dotted.mem (h : Dotted text parts) {c : Char} (hc : c ∈ text) :
    c = '.' ∨ ∃ part ∈ parts, c ∈ part := by
  induction h with
  | last h => exact .inr ⟨_, List.mem_cons_self, hc⟩
  | @more part text parts h _ ih =>
      rcases List.mem_append.1 hc with hc | hc
      · exact .inr ⟨part, List.mem_cons_self, hc⟩
      · rcases List.mem_cons.1 hc with hc | hc
        · exact .inl hc
        · exact (ih hc).imp_right fun ⟨other, hother, hc⟩ =>
            ⟨other, List.mem_cons_of_mem part hother, hc⟩

/-- Plain parts do not start with a bracket. -/
theorem Dotted.head?_ne (h : Dotted text parts) (hplain : ∀ part ∈ parts, '[' ∉ part) :
    text.head? ≠ some '[' := fun hhead => by
  rcases h.mem (List.mem_of_head? hhead) with hpoint | ⟨part, hpart, hmem⟩
  · exact absurd hpoint (by decide)
  · exact hplain part hpart hmem

theorem Dotted.ne_nil (h : Dotted text parts) : parts ≠ [] := by
  cases h <;> simp

/-! ### Bracketed parts -/

theorem beginsName_iff : BeginsName text ↔ ∃ name rest, bracketed? text = some (name, rest) := by
  simp only [BeginsName, bracketed?_eq_some_iff]

theorem not_beginsName_of_ne {c : Char} (h : c ≠ '[') (rest : List Char) :
    ¬ BeginsName (c :: rest) := by
  rintro ⟨name, rest', heq, -⟩
  exact h (List.cons.inj heq).1

theorem bracketed?_eq_none_iff : bracketed? text = none ↔ ¬ BeginsName text := by
  rw [beginsName_iff, Option.eq_none_iff_forall_ne_some]
  simp

namespace TakenApart

theorem bracketedNames_eq (h : TakenApart text names gaps) : bracketedNames text = names := by
  induction h with
  | nil => exact bracketedNames_nil
  | skip h _ ih => rw [bracketedNames_of_none (bracketed?_eq_none_iff.2 h), ih]
  | name hne hopen _ ih =>
      rw [bracketedNames_of_some (bracketed?_eq_some_iff.2 ⟨rfl, hne, hopen⟩), ih]

/-- A text is taken apart in one way. -/
theorem gaps_unique {names' gaps' : List (List Char)} (h : TakenApart text names gaps)
    (h' : TakenApart text names' gaps') : gaps' = gaps := by
  -- A name begins or it does not, so the second way takes the step of the first; its text is made a
  -- variable as its shape overlaps with that of the other steps.
  induction h generalizing names' gaps' with
  | nil =>
      cases h'
      rfl
  | skip h _ ih =>
      generalize htext : _ :: _ = whole at h'
      cases h' with
      | nil => cases htext
      | skip _ hrest =>
          obtain ⟨rfl, rfl⟩ := List.cons.inj htext
          obtain ⟨rfl, rfl⟩ := List.cons.inj (ih hrest)
          rfl
      | name hne hopen _ => exact absurd ⟨_, _, htext, hne, hopen⟩ h
  | @name name text names gaps hne hopen _ ih =>
      generalize htext : '[' :: (name ++ ']' :: text) = whole at h'
      cases h' with
      | nil => cases htext
      | skip h _ => exact absurd ⟨_, _, htext.symm, hne, hopen⟩ h
      | name _ hopen' hrest =>
          obtain ⟨rfl, rfl⟩ := name_inj hopen hopen' (List.cons.inj htext).2
          rw [ih hrest]

/-- The first gap reaches up to the first name, or is all there is. -/
theorem exists_first (h : TakenApart text names gaps) :
    ∃ gap others, gaps = gap :: others ∧
      ((names = [] ∧ others = [] ∧ text = gap) ∨
        ∃ name names' rest, names = name :: names' ∧ text = gap ++ '[' :: (name ++ ']' :: rest) ∧
          ']' ∉ name ∧ TakenApart rest names' others) := by
  induction h with
  | nil => exact ⟨_, _, rfl, .inl ⟨rfl, rfl, rfl⟩⟩
  | name hne hopen hrest => exact ⟨_, _, rfl, .inr ⟨_, _, _, rfl, rfl, hopen, hrest⟩⟩
  | skip _ _ ih =>
      obtain ⟨gap, others, hgaps, hcases⟩ := ih
      obtain ⟨rfl, rfl⟩ := List.cons.inj hgaps
      refine ⟨_, _, rfl, ?_⟩
      rcases hcases with ⟨rfl, rfl, rfl⟩ | ⟨name, names', rest, rfl, rfl, hopen, hrest⟩
      · exact .inl ⟨rfl, rfl, rfl⟩
      · exact .inr ⟨name, names', rest, rfl, rfl, hopen, hrest⟩

theorem skip_run {run gap : List Char} (hrun : '[' ∉ run)
    (h : TakenApart text names (gap :: gaps)) :
    TakenApart (run ++ text) names ((run ++ gap) :: gaps) := by
  induction run with
  | nil => exact h
  | cons c run ih =>
      obtain ⟨hc, hrun⟩ := not_or.1 (List.mem_cons.not.1 hrun)
      exact .skip (not_beginsName_of_ne (Ne.symm hc) _) (ih hrun)

end TakenApart

/-- A text is taken apart at the names that are found in it. -/
theorem exists_takenApart (text : List Char) :
    ∃ gaps, TakenApart text (bracketedNames text) gaps := by
  fun_induction bracketedNames text with
  | case1 => exact ⟨_, .nil⟩
  | case2 c rest h ih =>
      obtain ⟨gaps, hgaps⟩ := ih
      obtain ⟨gap, others, rfl, -⟩ := hgaps.exists_first
      exact ⟨_, .skip (bracketed?_eq_none_iff.1 h) hgaps⟩
  | case3 c rest name after h _ ih =>
      obtain ⟨gaps, hgaps⟩ := ih
      obtain ⟨htext, hne, hopen⟩ := bracketed?_eq_some_iff.1 h
      refine ⟨[] :: gaps, ?_⟩
      rw [htext]
      exact .name hne hopen hgaps

/-- A point between names leaves nothing out. -/
theorem Joins.bracketed (h : Joins gaps) {front : List Char} (hfront : ']' ∉ front)
    (htaken : TakenApart text names gaps) :
    Bracketed ('[' :: (front ++ ']' :: text)) (front :: names) := by
  induction h generalizing text names front with
  | last =>
      obtain ⟨gap, others, hgaps, hcases⟩ := htaken.exists_first
      obtain ⟨rfl, rfl⟩ := List.cons.inj hgaps
      rcases hcases with ⟨rfl, -, rfl⟩ | ⟨_, _, _, -, -, -, hrest⟩
      · exact .last hfront
      · cases hrest
  | @more gap gap' gaps hgap hgap' hjoins ih =>
      obtain ⟨first, others, hgaps, hcases⟩ := htaken.exists_first
      obtain ⟨rfl, rfl⟩ := List.cons.inj hgaps
      rcases hcases with ⟨-, rfl, -⟩ | ⟨name, names', rest, rfl, rfl, hopen, hrest⟩
      · cases hjoins
      · rw [List.append_assoc, List.cons_append]
        exact .more hfront hgap hgap' (ih hopen hrest)

theorem Bracketed.exists_takenApart (h : Bracketed text parts)
    (hparts : ∀ part ∈ parts, trimmed part ≠ []) :
    ∃ gaps, TakenApart text parts ([] :: gaps) ∧ Joins gaps := by
  have hne {part : List Char} (h : trimmed part ≠ []) : part ≠ [] := by
    rintro rfl
    exact h rfl
  induction h with
  | last h => exact ⟨_, .name (hne (hparts _ List.mem_cons_self)) h .nil, .last⟩
  | @more part gap gap' text parts h hgap hgap' _ ih =>
      obtain ⟨gaps, htaken, hjoins⟩ :=
        ih fun other hother => hparts other (List.mem_cons_of_mem _ hother)
      have hblank {gap : List Char} (hgap : Blanks gap) : '[' ∉ gap := fun hmem =>
        absurd (hgap _ hmem) (by decide)
      have hrun : '[' ∉ gap ++ '.' :: gap' := by simp [hblank hgap, hblank hgap']
      have hskipped := htaken.skip_run hrun
      rw [List.append_nil] at hskipped
      refine ⟨_, .name (hne (hparts _ List.mem_cons_self)) h ?_, .more hgap hgap' hjoins⟩
      simpa using hskipped

theorem Bracketed.head? (h : Bracketed text parts) : text.head? = some '[' := by
  cases h <;> rfl

/-! ### Reading -/

/-- The parts that are found in a trimmed text. -/
def found (text : List Char) : List (List Char) :=
  if text.head? = some '[' then bracketedNames text else dotted text

theorem parse_eq_ok_iff_found {text : String} :
    parse text = .ok reference ↔ (∀ part ∈ found (trimmed text.toList), trimmed part ≠ []) ∧
      StandsFor ((found (trimmed text.toList)).map trimmed) reference := by
  have hnames : names (trimmed text.toList) = (found (trimmed text.toList)).map trimmed := rfl
  have hblank : ((found (trimmed text.toList)).map trimmed).any List.isEmpty = false ↔
      ∀ part ∈ found (trimmed text.toList), trimmed part ≠ [] := by
    simp
  rw [← ofNames?_eq_some_iff, ← hblank, parse, hnames]
  cases ((found (trimmed text.toList)).map trimmed).any List.isEmpty with
  | true => simp
  | false =>
      simp only [Bool.false_eq_true, if_false, true_and]
      split <;> simp_all

theorem parse_eq_error {text : String} {failure : Failure} (h : parse text = .error failure) :
    failure = .memberReference (String.ofList (trimmed text.toList)) := by
  simp only [parse] at h
  split at h
  · cases h
  · exact (Except.error.inj h).symm

/-- The parts of a form are found. -/
theorem Form.found_eq (h : Form text parts) (hparts : ∀ part ∈ parts, trimmed part ≠ []) :
    found text = parts := by
  rcases h with ⟨hdotted, hplain⟩ | hbracketed
  · rw [found, if_neg (hdotted.head?_ne fun part hpart => (hplain part hpart).1),
      hdotted.dotted_eq]
  · obtain ⟨gaps, htaken, -⟩ := hbracketed.exists_takenApart hparts
    rw [found, if_pos hbracketed.head?, htaken.bracketedNames_eq]

/-- Something is overlooked just if parts are found that are read and do not make up the text. -/
theorem overlooks_iff : Overlooks text ↔
    (∀ part ∈ found text, trimmed part ≠ []) ∧ found text ≠ [] ∧ (found text).length ≤ 3 ∧
      ¬ Form text (found text) := by
  constructor
  · rintro (⟨hopen, h, hlength, hparts, hpart, hbracket⟩ | ⟨hopen, h, hne, hlength, hnames, hgaps⟩)
    · rw [found, if_neg hopen, h.dotted_eq]
      refine ⟨hparts, h.ne_nil, hlength, ?_⟩
      rintro (⟨-, hplain⟩ | hbracketed)
      · exact hbracket.elim (hplain _ hpart).1 (hplain _ hpart).2
      · exact hopen hbracketed.head?
    · have hfound : found text = bracketedNames text := if_pos hopen
      rw [hfound, h.bracketedNames_eq]
      refine ⟨hnames, hne, hlength, fun hform => ?_⟩
      rcases hform with ⟨hdotted, hplain⟩ | hbracketed
      · exact hdotted.head?_ne (fun part hpart => (hplain part hpart).1) hopen
      · obtain ⟨others, htaken, hjoins⟩ := hbracketed.exists_takenApart hnames
        exact hgaps others (htaken.gaps_unique h) hjoins
  · rintro ⟨hparts, hne, hlength, hform⟩
    by_cases hopen : text.head? = some '['
    · have hfound : found text = bracketedNames text := if_pos hopen
      rw [hfound] at hparts hne hlength hform
      obtain ⟨gaps, htaken⟩ := exists_takenApart text
      refine .gap hopen htaken hne hlength hparts fun others hgaps hjoins => hform (.inr ?_)
      obtain ⟨gap, others', hgaps', hcases⟩ := htaken.exists_first
      obtain ⟨rfl, rfl⟩ := List.cons.inj (hgaps.symm.trans hgaps')
      rcases hcases with ⟨hnone, -, -⟩ | ⟨name, names', rest, hnames, htext, hunclosed, hrest⟩
      · exact absurd hnone hne
      · rw [hnames, htext]
        exact hjoins.bracketed hunclosed hrest
    · have hfound : found text = dotted text := if_neg hopen
      rw [hfound] at hparts hne hlength hform
      have hbracket : ∃ part ∈ dotted text, '[' ∈ part ∨ ']' ∈ part := by
        by_contra hnone
        push Not at hnone
        exact hform (.inl ⟨dotted_dotted text, hnone⟩)
      obtain ⟨part, hpart, hbracket⟩ := hbracket
      exact .bracket hopen (dotted_dotted text) hlength hparts hpart hbracket

theorem parse_of_documents {text : String} (h : Documents text reference) :
    parse text = .ok reference := by
  obtain ⟨parts, hform, hparts, hstands⟩ := h
  rw [parse_eq_ok_iff_found, hform.found_eq hparts]
  exact ⟨hparts, hstands⟩

theorem documents_of_parse {text : String} (h : parse text = .ok reference)
    (hover : ¬ Overlooks (trimmed text.toList)) : Documents text reference := by
  obtain ⟨hparts, hstands⟩ := parse_eq_ok_iff_found.1 h
  obtain ⟨hne, hlength⟩ := hstands.count
  rw [overlooks_iff] at hover
  push Not at hover
  exact ⟨_, hover hparts (by simpa using hne) (by simpa using hlength), hparts, hstands⟩

theorem exists_undocumented {text : String} (h : Overlooks (trimmed text.toList)) :
    ∃ reference, parse text = .ok reference ∧ ¬ Documents text reference := by
  obtain ⟨hparts, hne, hlength, hform⟩ := overlooks_iff.1 h
  have hnames : (found (trimmed text.toList)).map trimmed ≠ [] := by simpa using hne
  obtain ⟨reference, hstands⟩ := exists_standsFor hnames (by simpa using hlength)
  refine ⟨reference, parse_eq_ok_iff_found.2 ⟨hparts, hstands⟩, ?_⟩
  rintro ⟨parts, hform', hparts', -⟩
  rw [hform'.found_eq hparts'] at hform
  exact hform hform'

/-! ### References that queries read -/

/-- Names in brackets with a point between each two, and white space around all. -/
def Encloses (text : List Char) (names : List String) : Prop :=
  ∃ before core behind parts, text = before ++ (core ++ behind) ∧ Blanks before ∧ Blanks behind ∧
    Bracketed core parts ∧ (∀ part ∈ parts, trimmed part ≠ []) ∧
      parts.map (fun part => String.ofList (trimmed part)) = names

section LaidOut

variable {token point : Token} {tokens rest : List Token} {name : String} {labels : List String}

theorem encloses_last (h : Token.LaidOut (token :: rest) text) (hname : token.kind = .name name)
    (hfinish : (Token.front rest).kind = .finish) : Encloses text [name] := by
  obtain ⟨gap, within, behind, rfl, hgap, hopen, -, hne, rfl, -, hrest⟩ := h.exists_name hname
  obtain ⟨hbehind, -⟩ := hrest.exists_finish hfinish
  exact ⟨gap, '[' :: (within ++ [']']), behind, [within], by simp, hgap, hbehind, .last hopen,
    by simpa using hne, rfl⟩

theorem encloses_more (h : Token.LaidOut (token :: point :: tokens) text)
    (hname : token.kind = .name name) (hpoint : point.kind = .mark .point)
    (hmore : ∀ text', Token.LaidOut tokens text' → Encloses text' labels) :
    Encloses text (name :: labels) := by
  obtain ⟨gap, within, afterName, rfl, hgap, hopen, -, hne, rfl, -, hrest⟩ := h.exists_name hname
  obtain ⟨gap', afterPoint, rfl, hgap', hrest⟩ := hrest.exists_mark hpoint
  obtain ⟨before, core, behind, parts, rfl, hbefore, hbehind, hcore, hparts, rfl⟩ := hmore _ hrest
  refine ⟨gap, '[' :: (within ++ ']' :: (gap' ++ '.' :: (before ++ core))), behind,
    within :: parts, ?_, hgap, hbehind, .more hopen hgap' hbefore hcore,
    List.forall_mem_cons.2 ⟨hne, hparts⟩, rfl⟩
  simp [Mark.symbol]

end LaidOut

theorem Bracketed.getLast? (h : Bracketed text parts) : text.getLast? = some ']' := by
  induction h with
  | last h => simp [List.getLast?_cons]
  | more h hgap hgap' _ ih => simp [List.getLast?_cons, List.getLast?_append, ih]

theorem Encloses.documents {text : String} {labels : List String} (h : Encloses text.toList labels)
    (hstands : StandsFor (labels.map String.toList) reference) : Documents text reference := by
  obtain ⟨before, core, behind, parts, htext, hbefore, hbehind, hcore, hparts, rfl⟩ := h
  have htrimmed : trimmed text.toList = core := by
    rw [htext]
    refine trimmed_between hbefore hbehind ?_ ?_
    · simp [hcore.head?]; decide
    · simp [hcore.getLast?]; decide
  refine ⟨parts, htrimmed ▸ .inr hcore, hparts, ?_⟩
  simpa [Function.comp_def] using hstands

/-- A level that queries read is documented as the reference to it. -/
theorem documents_of_read {text : String} {tokens rest : List Token} {ref : LevelRef}
    (hscan : Token.scan text = .ok tokens)
    (hread : SelectItem.read.run tokens = .ok (.level ref, rest))
    (hfinish : (Token.front rest).kind = .finish) :
    Documents text ⟨ref.dimension, ref.hierarchy, some ref.level⟩ := by
  obtain ⟨tree, hitem, hsplits⟩ := SelectItem.read_reads.sound hread
  have hlaid := Token.laidOut_of_scanFrom hscan
  cases tree with
  | measure word name reserved => cases hitem
  | member tree free =>
      obtain rfl := SelectItem.level.inj hitem
      obtain ⟨dimension, second, third⟩ := tree
      obtain ⟨_, hfront, hthird⟩ := Token.Splits.exists_of_append hsplits
      obtain ⟨_, htaken, hafter⟩ := hfront.exists_of_cons
      obtain ⟨_, htaken', hafter'⟩ := hafter.exists_of_cons
      obtain ⟨first, rfl, hfirst⟩ := htaken.exists_of_singleton
      obtain ⟨point, rfl, hpoint⟩ := htaken'.exists_of_singleton
      obtain ⟨other, rfl, hother⟩ := hafter'.exists_of_singleton
      cases third with
      | none =>
          obtain ⟨front, rfl, hnil⟩ := hthird
          obtain rfl := List.map_eq_nil_iff.1 hnil
          have hencloses := encloses_more hlaid hfirst hpoint fun _ hrest =>
            encloses_last hrest hother hfinish
          have hstands := StandsFor.level dimension.toList second.toList
          exact hencloses.documents (by simpa [MemberTree.ref] using hstands)
      | some level =>
          obtain ⟨_, hmore, hlevel⟩ := hthird.exists_of_cons
          obtain ⟨point', rfl, hpoint'⟩ := hmore.exists_of_singleton
          obtain ⟨last, rfl, hlast⟩ := hlevel.exists_of_singleton
          have hencloses := encloses_more hlaid hfirst hpoint fun _ hrest =>
            encloses_more hrest hother hpoint' fun _ hrest => encloses_last hrest hlast hfinish
          have hstands := StandsFor.hierarchy dimension.toList second.toList level.toList
          exact hencloses.documents (by simpa [MemberTree.ref] using hstands)

/-- The documented forms are read as what they refer to, and everything else is refused by its text,
just if nothing of the text is overlooked. What queries read as a level is read as the same one. -/
theorem parse_iff_documents (text : String) :
    (∀ reference, Documents text reference → parse text = .ok reference) ∧
      (∀ failure, parse text = .error failure →
        failure = .memberReference (String.ofList (trimmed text.toList))) ∧
      ((∀ reference, parse text = .ok reference → Documents text reference) ↔
        ¬ Overlooks (trimmed text.toList)) ∧
      ∀ tokens rest ref, Token.scan text = .ok tokens →
        SelectItem.read.run tokens = .ok (.level ref, rest) → (Token.front rest).kind = .finish →
          parse text = .ok ⟨ref.dimension, ref.hierarchy, some ref.level⟩ := by
  refine ⟨fun _ => parse_of_documents, fun _ => parse_eq_error, ⟨?_, ?_⟩, ?_⟩
  · intro hdocuments hover
    obtain ⟨reference, hparse, hundocumented⟩ := exists_undocumented hover
    exact hundocumented (hdocuments reference hparse)
  · exact fun hover _ hparse => documents_of_parse hparse hover
  · exact fun _ _ _ hscan hread hfinish =>
      parse_of_documents (documents_of_read hscan hread hfinish)

theorem parse_iff_documents_hierarchy :
    Documents " [Time] . [ Calendar ].[Year]" ⟨"Time", some "Calendar", some "Year"⟩ ∧
      parse " [Time] . [ Calendar ].[Year]" = .ok ⟨"Time", some "Calendar", some "Year"⟩ := by
  have hscan : Token.scan " [Time] . [ Calendar ].[Year]" =
      .ok [⟨.name "Time", 1, 2, "[Time]"⟩, ⟨.mark .point, 1, 9, "."⟩,
        ⟨.name "Calendar", 1, 11, "[ Calendar ]"⟩, ⟨.mark .point, 1, 23, "."⟩,
        ⟨.name "Year", 1, 24, "[Year]"⟩, ⟨.finish, 1, 30, ""⟩] := by cbv
  exact ⟨documents_of_read hscan (by rfl) (by rfl),
    (parse_iff_documents _).2.2.2 _ _ _ hscan (by rfl) (by rfl)⟩

/-- A bracket that is never closed is overlooked, with the level behind it. -/
theorem unclosed_level_overlooked :
    (∀ reference, ¬ Documents "[Time].[Year" reference) ∧
      parse "[Time].[Year" = .ok ⟨"Time", none, none⟩ := by
  have htrimmed : trimmed "[Time].[Year".toList = "[Time].[Year".toList := by decide
  have hfound : found "[Time].[Year".toList = ["Time".toList] := by
    have hfirst : bracketed? "[Time].[Year".toList = some ("Time".toList, ".[Year".toList) :=
      bracketed?_eq_some_iff.2 (by decide)
    rw [found, if_pos (by decide), bracketedNames_of_some hfirst,
      bracketedNames_of_unclosed (by decide)]
  constructor
  · rintro reference ⟨parts, hform, -⟩
    rw [htrimmed] at hform
    rcases hform with ⟨hdotted, hplain⟩ | hbracketed
    · exact hdotted.head?_ne (fun part hpart => (hplain part hpart).1) (by decide)
    · exact absurd hbracketed.getLast? (by decide)
  · rw [parse_eq_ok_iff_found, htrimmed, hfound]
    exact ⟨by decide, .dimension _⟩

end MemberReference

end StarCube
