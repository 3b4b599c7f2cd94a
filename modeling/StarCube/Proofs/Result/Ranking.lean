import Mathlib.Data.List.Sort
import StarCube.Proofs.Value.Definite
import StarCube.Result.Ranking

/-!
Rankings of values that have an order. Such values have it among each other, so that the rows are
merely sorted: the ranking shows the first of them in falling order, and rows of the same value keep
theirs.
-/

namespace StarCube

/-- Values of which no number is undefined, and of which any two have an order unless one is
absent. -/
structure Value.Comparable (values : List Value) : Prop where
  definite : ∀ value ∈ values, value.isDefinite = true
  ordered : ∀ left ∈ values, ∀ right ∈ values, left.isNull = false → right.isNull = false →
    ∃ answer, left.before right = .ok answer

/-- A value that ranks as high as another: the other is absent, the same, or comes before it. -/
def Value.AtLeast (left right : Value) : Prop :=
  right.isNull = true ∨
    left.isNull = false ∧ (left.same right = true ∨ right.before left = .ok true)

/-- `order` has the rows in falling order of their values. Rows of the same value, absent ones among
them, keep their order. -/
structure Falls (rows order : List (Value × Value)) : Prop where
  perm : order.Perm rows
  falling : order.Pairwise fun left right => left.2.AtLeast right.2
  stable : ∀ row ∈ rows, order.filter (row.2.same ·.2) = rows.filter (row.2.same ·.2)

/-- Rankings of some rows, by how many are asked for. Each shows the first rows of one falling
order, with their ranks. -/
structure Ranks (rows order : List (Value × Value)) (ranking : Nat → List Ranked) : Prop extends
    Falls rows order where
  length : ∀ count, (ranking count).length = min rows.length count
  ranks : ∀ count, (ranking count).map Ranked.rank = List.range' 1 (min rows.length count)
  entries : ∀ count,
    (ranking count).map (fun entry => (entry.dimension, entry.value)) = order.take count
  grows : ∀ fewer more, fewer ≤ more → ranking fewer <+: ranking more
  best : ∀ count, ∀ shown ∈ ranking count, ∀ omitted ∈ order.drop count,
    shown.value.AtLeast omitted.2

/-- Values that compare are both absent or both there. -/
theorem Value.Compares.isNull_eq {left right : Value} {order : Ordering}
    (h : left.Compares right order) : left.isNull = right.isNull := by
  have hplace (value : Value) {x} (h : value.place? = some x) : value.isNull = false := by
    cases value <;> first | rfl | cases h
  cases h with
  | number hleft hright => rw [hplace _ hleft, hplace _ hright]
  | _ => rfl

namespace Ranking

/-- How the place of one value stands to that of another: absent values share the place below all
others, and other values stand as they compare. -/
inductive Stands : Value → Value → Ordering → Prop
  | compares {left right : Value} {order : Ordering} (h : left.Compares right order) :
      Stands left right order
  | lower {right : Value} (h : right.isNull = false) : Stands .null right .lt
  | higher {left : Value} (h : left.isNull = false) : Stands left .null .gt

theorem eq_null_of_isNull {value : Value} (h : value.isNull = true) : value = .null := by
  cases value <;> first | rfl | cases h

namespace Stands

variable {left right middle : Value} {order next : Ordering}

theorem swap (h : Stands left right order) : Stands right left order.swap := by
  cases h with
  | compares h => exact .compares h.swap
  | lower h => exact .higher h
  | higher h => exact .lower h

/-- Rising chains of places. -/
theorem trans (h : Stands left middle order) (hnext : Stands middle right next) (hle : order ≠ .gt)
    (hnextLe : next ≠ .gt) : Stands left right (order.then next) := by
  cases h with
  | higher _ => exact absurd rfl hle
  | compares h =>
      cases hnext with
      | higher _ => exact absurd rfl hnextLe
      | compares hnext => exact .compares (h.trans hnext hle hnextLe)
      | lower hright =>
          obtain rfl := eq_null_of_isNull h.isNull_eq
          cases h with
          | null => exact .lower hright
          | number hleft _ => nomatch hleft
  | lower hmiddle =>
      cases hnext with
      | higher _ => exact absurd rfl hnextLe
      | compares hnext => exact .lower (hnext.isNull_eq.symm.trans hmiddle)
      | lower hright => exact .lower hright

/-- One value ranks below another if its place is the lower one. -/
theorem isBelow_eq (h : Stands left right order) : isBelow left right = (order == .lt) := by
  cases h with
  | lower h =>
      show (!right.isNull) = true
      rw [h]
      rfl
  | higher h =>
      have hnull : Value.null.isNull = true := rfl
      rw [isBelow, below, if_neg (by simp [h]), if_pos hnull]
      rfl
  | compares h =>
      cases hnull : left.isNull with
      | true =>
          obtain rfl := eq_null_of_isNull hnull
          cases h with
          | null => rfl
          | number hleft _ => nomatch hleft
      | false =>
          have hright := h.isNull_eq.symm.trans hnull
          rw [isBelow, below, if_neg (by simp [hnull]), if_neg (by simp [hright]), h.same_eq]
          by_cases heq : order = .eq
          · rw [heq]
            rfl
          · rw [if_neg (by simpa using heq), h.before_eq heq]

/-- A value whose place is not the lower one ranks as high as the other. -/
theorem atLeast (h : Stands left right order) (hle : order ≠ .lt) : left.AtLeast right := by
  cases h with
  | lower _ => exact absurd rfl hle
  | higher _ => exact .inl rfl
  | compares h =>
      cases hright : right.isNull with
      | true => exact .inl hright
      | false =>
          refine .inr ⟨h.isNull_eq.trans hright, ?_⟩
          cases order with
          | lt => exact absurd rfl hle
          | eq => exact .inl h.same_eq
          | gt => exact .inr (h.swap.before_eq nofun)

end Stands

section Comparable

variable {values : List Value} {left right middle : Value}

/-- Of two comparable values each has a place. -/
theorem exists_stands (h : Value.Comparable values) (hleft : left ∈ values)
    (hright : right ∈ values) : ∃ order, Stands left right order := by
  cases hleftNull : left.isNull with
  | true =>
      obtain rfl := eq_null_of_isNull hleftNull
      cases hrightNull : right.isNull with
      | true =>
          obtain rfl := eq_null_of_isNull hrightNull
          exact ⟨_, .compares .null⟩
      | false => exact ⟨_, .lower hrightNull⟩
  | false =>
      cases hrightNull : right.isNull with
      | true =>
          obtain rfl := eq_null_of_isNull hrightNull
          exact ⟨_, .higher hleftNull⟩
      | false =>
          obtain ⟨answer, hanswer⟩ := h.ordered left hleft right hright hleftNull hrightNull
          obtain ⟨order, hcompares⟩ :=
            Value.compares_of_before (h.definite left hleft) (h.definite right hright) hanswer
          exact ⟨order, .compares hcompares⟩

theorem ordered_of_comparable (h : Value.Comparable values) (hleft : left ∈ values)
    (hright : right ∈ values) (hleftNull : left.isNull = false)
    (hrightNull : right.isNull = false) : ordered left right = true := by
  obtain ⟨order, hstands⟩ := exists_stands h hleft hright
  rw [ordered, hstands.isBelow_eq, hstands.swap.isBelow_eq]
  cases hstands with
  | compares hcompares =>
      rw [hcompares.same_eq]
      cases order <;> rfl
  | lower _ => cases hleftNull
  | higher _ => cases hrightNull

/-- Comparable values have an order among each other. -/
theorem mutuallyOrdered_of_comparable (h : Value.Comparable values) :
    mutuallyOrdered (values.filter (!·.isNull)) = true := by
  have hordered : ∀ left ∈ values.filter (!·.isNull), ∀ right ∈ values.filter (!·.isNull),
      ordered left right = true := by
    intro left hleft right hright
    rw [List.mem_filter, Bool.not_eq_true'] at hleft hright
    exact ordered_of_comparable h hleft.1 hright.1 hleft.2 hright.2
  generalize values.filter (!·.isNull) = present at hordered
  cases present with
  | nil => rfl
  | cons first rest =>
      rw [mutuallyOrdered]
      split
      · exact List.all_eq_true.2 fun left hleft => List.all_eq_true.2 (hordered left hleft)
      · exact List.all_eq_true.2 (hordered first List.mem_cons_self)

/-- What ranks at least as high as what ranks at least as high as another ranks so too. -/
theorem not_isBelow_trans (h : Value.Comparable values) (hleft : left ∈ values)
    (hmiddle : middle ∈ values) (hright : right ∈ values) (hfirst : isBelow left middle = false)
    (hsecond : isBelow middle right = false) : isBelow left right = false := by
  obtain ⟨order, hstands⟩ := exists_stands h hmiddle hleft
  obtain ⟨next, hnext⟩ := exists_stands h hright hmiddle
  rw [hstands.swap.isBelow_eq] at hfirst
  rw [hnext.swap.isBelow_eq] at hsecond
  have hchain := hnext.trans hstands (by rintro rfl; cases hsecond) (by rintro rfl; cases hfirst)
  rw [hchain.swap.isBelow_eq]
  revert hfirst hsecond
  cases next <;> cases order <;> simp

/-- Of two values one ranks at least as high as the other. -/
theorem not_isBelow_total (h : Value.Comparable values) (hleft : left ∈ values)
    (hright : right ∈ values) : isBelow left right = false ∨ isBelow right left = false := by
  obtain ⟨order, hstands⟩ := exists_stands h hleft hright
  rw [hstands.isBelow_eq, hstands.swap.isBelow_eq]
  cases order <;> simp

theorem atLeast_of_not_isBelow (h : Value.Comparable values) (hleft : left ∈ values)
    (hright : right ∈ values) (hbelow : isBelow left right = false) : left.AtLeast right := by
  obtain ⟨order, hstands⟩ := exists_stands h hleft hright
  rw [hstands.isBelow_eq] at hbelow
  exact hstands.atLeast (by rintro rfl; cases hbelow)

end Comparable

end Ranking

/-- Sorting by an order that is total and transitive among the elements puts them in that order, and
of elements that stand in it already keeps the order. -/
theorem sorted_mergeSort {α : Type} {le : α → α → Bool} {all : List α}
    (htrans : ∀ a ∈ all, ∀ b ∈ all, ∀ c ∈ all, le a b = true → le b c = true → le a c = true)
    (htotal : ∀ a ∈ all, ∀ b ∈ all, (le a b || le b a) = true) :
    (all.mergeSort le).Pairwise (fun a b => le a b = true) ∧
      ∀ part : List α, part.Sublist all → part.Pairwise (fun a b => le a b = true) →
        part.Sublist (all.mergeSort le) := by
  let among (a b : { a // a ∈ all }) : Bool := le a.1 b.1
  have hamongTrans : ∀ a b c, among a b = true → among b c = true → among a c = true :=
    fun a b c => htrans a.1 a.2 b.1 b.2 c.1 c.2
  have hamongTotal : ∀ a b, (among a b || among b a) = true :=
    fun a b => htotal a.1 a.2 b.1 b.2
  have hsort : (all.attach.mergeSort among).map Subtype.val = all.mergeSort le := by
    rw [List.map_mergeSort (s := le) fun _ _ _ _ => rfl, List.attach_map_subtype_val]
  rw [← hsort]
  refine ⟨List.pairwise_map.2 (List.pairwise_mergeSort hamongTrans hamongTotal _), ?_⟩
  intro part hpart hordered
  rw [← all.attach_map_subtype_val] at hpart
  obtain ⟨items, hitems, rfl⟩ := List.sublist_map_iff.1 hpart
  exact (List.sublist_mergeSort hamongTrans hamongTotal (List.pairwise_map.1 hordered) hitems).map _

namespace Ranking

variable {rows : List (Value × Value)}

/-- Rows whose values are comparable are put in falling order. -/
theorem falling_eq_ok (h : Value.Comparable (rows.map Prod.snd)) :
    ∃ order, falling rows = .ok order ∧ Falls rows order := by
  have hmem : ∀ row ∈ rows, row.2 ∈ rows.map Prod.snd := fun row hrow => List.mem_map_of_mem hrow
  have hdefinite : ∀ row ∈ rows, row.2.isDefinite = true := fun row hrow =>
    h.definite row.2 (hmem row hrow)
  let le (left right : Value × Value) : Bool := !isBelow left.2 right.2
  have htrans : ∀ a ∈ rows, ∀ b ∈ rows, ∀ c ∈ rows, le a b = true → le b c = true →
      le a c = true := by
    simp only [le, Bool.not_eq_true']
    exact fun a ha b hb c hc => not_isBelow_trans h (hmem a ha) (hmem b hb) (hmem c hc)
  have htotal : ∀ a ∈ rows, ∀ b ∈ rows, (le a b || le b a) = true := by
    simp only [le, Bool.or_eq_true, Bool.not_eq_true']
    exact fun a ha b hb => not_isBelow_total h (hmem a ha) (hmem b hb)
  obtain ⟨hsorted, hstays⟩ := sorted_mergeSort htrans htotal
  have hperm := List.mergeSort_perm rows le
  refine ⟨_, if_pos (mutuallyOrdered_of_comparable h), hperm, ?_, fun row hrow => ?_⟩
  · refine hsorted.imp_of_mem fun {a b} ha hb hab => ?_
    exact atLeast_of_not_isBelow h (hmem a (hperm.mem_iff.1 ha)) (hmem b (hperm.mem_iff.1 hb))
      (by simpa [le] using hab)
  · -- the rows of one value stand in falling order from the start
    have hkept : (rows.filter (row.2.same ·.2)).Sublist (rows.mergeSort le) := by
      refine hstays _ List.filter_sublist (List.pairwise_of_forall_mem_list fun a ha b hb => ?_)
      rw [List.mem_filter] at ha hb
      have hsame := Value.same_trans (hdefinite a ha.1) (hdefinite row hrow) (hdefinite b hb.1)
        (Value.same_symm (hdefinite row hrow) (hdefinite a ha.1) ha.2) hb.2
      have hstands : Stands a.2 b.2 .eq :=
        .compares (Value.compares_of_same (hdefinite a ha.1) (hdefinite b hb.1) hsame)
      show (!isBelow a.2 b.2) = true
      rw [hstands.isBelow_eq]
      rfl
    have hpart := hkept.filter (row.2.same ·.2)
    rw [List.filter_filter] at hpart
    simp only [Bool.and_self] at hpart
    exact (hpart.eq_of_length (hperm.filter _).length_eq.symm).symm

end Ranking

namespace Ranked

variable {rows order : List (Value × Value)}

theorem ranks_numbered (h : Falls rows order) :
    Ranks rows order fun count => numbered count order := by
  have hlength (count : Nat) : (numbered count order).length = min rows.length count := by
    rw [numbered, List.length_map, List.length_zipIdx, List.length_take, h.perm.length_eq, min_comm]
  have hentries (count : Nat) :
      (numbered count order).map (fun entry => (entry.dimension, entry.value)) =
        order.take count := by
    rw [numbered, List.map_map]
    exact List.zipIdx_map_fst 0 _
  refine ⟨h, hlength, fun count => ?_, hentries, fun fewer more hle => ?_, ?_⟩
  · have hplaces : (numbered count order).map Ranked.rank =
        ((order.take count).zipIdx.map Prod.snd).map (· + 1) := by
      rw [numbered, List.map_map, List.map_map]
      rfl
    rw [hplaces, List.zipIdx_map_snd, ← List.range'_succ_left, List.length_take, h.perm.length_eq,
      min_comm]
  · obtain ⟨rest, hrest⟩ := List.take_prefix_take_left hle (l := order)
    show numbered fewer order <+: numbered more order
    rw [numbered, numbered, ← hrest, List.zipIdx_append, List.map_append]
    exact List.prefix_append _ _
  · intro count shown hshown omitted homitted
    have hmem : (shown.dimension, shown.value) ∈ order.take count := by
      rw [← hentries count]
      exact List.mem_map_of_mem hshown
    have hfalling := h.falling
    rw [← List.take_append_drop count order] at hfalling
    exact (List.pairwise_append.1 hfalling).2.2 _ hmem omitted homitted

end Ranked

end StarCube
