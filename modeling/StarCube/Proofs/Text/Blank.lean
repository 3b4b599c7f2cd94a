import Mathlib.Data.List.DropRight
import StarCube.Text.Character

/-!
White space and trimming. A text is its trimmed part with white space at either end, and white space
at either end makes no difference to what is left of it.
-/

namespace StarCube.Text

/-- A run of white space. -/
def Blanks (gap : List Char) : Prop :=
  ∀ c ∈ gap, isBlank c = true

theorem Blanks.nil : Blanks [] := fun _ h => nomatch h

theorem Blanks.append {gap gap' : List Char} (h : Blanks gap) (h' : Blanks gap') :
    Blanks (gap ++ gap') :=
  List.forall_mem_append.2 ⟨h, h'⟩

/-- The code points of white space. -/
def blankCodes : List Nat :=
  [0x09, 0x0a, 0x0b, 0x0c, 0x0d, 0x1c, 0x1d, 0x1e, 0x1f, 0x20, 0x85, 0xa0, 0x1680, 0x2000, 0x2001,
    0x2002, 0x2003, 0x2004, 0x2005, 0x2006, 0x2007, 0x2008, 0x2009, 0x200a, 0x2028, 0x2029, 0x202f,
    0x205f, 0x3000]

theorem mem_blankCodes {c : Char} (h : isBlank c = true) : c.toNat ∈ blankCodes := by
  simp only [isBlank, Bool.or_eq_true, Bool.and_eq_true, decide_eq_true_eq, beq_iff_eq] at h
  simp only [blankCodes, List.mem_cons, List.not_mem_nil, or_false]
  omega

/-- What holds of each code point of white space holds of white space. -/
@[elab_as_elim]
theorem holds_of_isBlank {motive : Char → Prop} {c : Char} (h : isBlank c = true)
    (codes : ∀ code ∈ blankCodes, motive (Char.ofNat code)) : motive c := by
  simpa using codes c.toNat (mem_blankCodes h)

theorem Blanks.dropWhile_append {gap : List Char} (hgap : Blanks gap) {c : Char}
    (hc : isBlank c = false) (rest : List Char) :
    (gap ++ c :: rest).dropWhile isBlank = c :: rest := by
  rw [List.dropWhile_append_of_pos hgap, List.dropWhile_cons_of_neg (by simp [hc])]

theorem exists_blanks_of_dropWhile {text rest : List Char} {c : Char}
    (h : text.dropWhile isBlank = c :: rest) : ∃ gap, Blanks gap ∧ text = gap ++ c :: rest :=
  ⟨text.takeWhile isBlank, fun _ hd => List.mem_takeWhile_imp hd, by
    rw [← h, List.takeWhile_append_dropWhile]⟩

theorem trimmed_eq (text : List Char) :
    trimmed text = (text.dropWhile isBlank).rdropWhile isBlank := rfl

/-- What neither begins nor ends with white space is left when white space around it is cut off. -/
theorem trimmed_between {lead text trail : List Char} (hlead : Blanks lead) (htrail : Blanks trail)
    (hfirst : ∀ c, text.head? = some c → isBlank c = false)
    (hlast : ∀ c, text.getLast? = some c → isBlank c = false) :
    trimmed (lead ++ (text ++ trail)) = text := by
  rw [trimmed_eq, List.dropWhile_append_of_pos hlead]
  cases text with
  | nil => rw [List.nil_append, List.dropWhile_eq_nil_iff.2 htrail, List.rdropWhile_nil]
  | cons c rest =>
      have hkept : (c :: rest ++ trail).dropWhile isBlank = c :: rest ++ trail :=
        List.dropWhile_cons_of_neg (by simp [hfirst c rfl])
      have hrest : (c :: rest).rdropWhile isBlank = c :: rest := by
        rw [List.rdropWhile_eq_self_iff]
        exact fun hne => by simp [hlast _ (List.getLast?_eq_some_getLast hne)]
      have hcut : (trail.reverse ++ (c :: rest).reverse).dropWhile isBlank =
          (c :: rest).reverse.dropWhile isBlank :=
        List.dropWhile_append_of_pos fun d hd => htrail d (List.mem_reverse.1 hd)
      rw [hkept, List.rdropWhile, List.reverse_append, hcut]
      exact hrest

theorem trimmed_eq_self {text : List Char} (h : ∀ c ∈ text, isBlank c = false) :
    trimmed text = text := by
  have hbetween := trimmed_between .nil .nil (fun c hc => h c (List.mem_of_head? hc))
    (fun c hc => h c (List.mem_of_getLast? hc))
  rwa [List.append_nil, List.nil_append] at hbetween

end StarCube.Text
