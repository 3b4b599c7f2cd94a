import Mathlib.Data.List.Find
import Mathlib.Data.List.Induction
import Mathlib.Data.List.Pairwise
import StarCube.Engine.Members
import StarCube.Proofs.Outcome
import StarCube.Proofs.Value.Definite

/-!
Elements told apart by a comparison of their own, each kept where it occurs first. Members of a
hierarchy are told apart so: the store may return a member in several rows, and with numbers of
different kinds that are the same.
-/

namespace StarCube

/-- `firsts` has one of the elements of `all` that are the same, each where it occurs first. -/
structure FirstsUpTo {α : Type} (same : α → α → Bool) (all firsts : List α) : Prop where
  sublist : firsts.Sublist all
  first : ∀ a ∈ firsts, all.find? (same · a) = some a
  covered : ∀ a ∈ all, ∃! b, b ∈ firsts ∧ same b a = true
  apart : firsts.Pairwise fun a b => same a b = false
  ordered : firsts.Pairwise fun a b => all.findIdx (same · a) < all.findIdx (same · b)

/-- To be the same is an equivalence among some elements. -/
structure Sameness {α : Type} (same : α → α → Bool) (all : List α) : Prop where
  refl : ∀ a ∈ all, same a a = true
  symm : ∀ a ∈ all, ∀ b ∈ all, same a b = true → same b a = true
  trans : ∀ a ∈ all, ∀ b ∈ all, ∀ c ∈ all, same a b = true → same b c = true → same a c = true

/-- Keeps an element unless one that is kept already is the same. -/
def keepNew {α : Type} (same : α → α → Bool) (kept : List α) (a : α) : List α :=
  if kept.any (same · a) then kept else kept ++ [a]

section Firsts

variable {α : Type} {same : α → α → Bool} {all firsts : List α}

theorem Sameness.mono {others : List α} (h : Sameness same all) (hsubset : others ⊆ all) :
    Sameness same others where
  refl a ha := h.refl a (hsubset ha)
  symm a ha b hb := h.symm a (hsubset ha) b (hsubset hb)
  trans a ha b hb c hc := h.trans a (hsubset ha) b (hsubset hb) c (hsubset hc)

namespace FirstsUpTo

theorem nil : FirstsUpTo same [] [] :=
  ⟨.slnil, by simp, by simp, .nil, .nil⟩

theorem findIdx_lt_length (h : FirstsUpTo same all firsts) {a : α} (ha : a ∈ firsts) :
    all.findIdx (same · a) < all.length := by
  have hfound := h.first a ha
  rw [List.findIdx_lt_length]
  exact ⟨a, List.mem_of_find?_eq_some hfound, List.find?_some (p := (same · a)) hfound⟩

theorem findIdx_append (h : FirstsUpTo same all firsts) {a : α} (ha : a ∈ firsts)
    (others : List α) : (all ++ others).findIdx (same · a) = all.findIdx (same · a) := by
  rw [List.findIdx_append, if_pos (h.findIdx_lt_length ha)]

theorem find?_append (h : FirstsUpTo same all firsts) {a : α} (ha : a ∈ firsts) (others : List α) :
    (all ++ others).find? (same · a) = some a := by
  rw [List.find?_append, h.first a ha, Option.some_or]

theorem ordered_append (h : FirstsUpTo same all firsts) (others : List α) :
    firsts.Pairwise fun a b =>
      (all ++ others).findIdx (same · a) < (all ++ others).findIdx (same · b) := by
  refine h.ordered.imp_of_mem fun {a b} ha hb hlt => ?_
  rwa [h.findIdx_append ha, h.findIdx_append hb]

/-- Of those that are kept no two are the same. -/
theorem eq_of_same (h : FirstsUpTo same all firsts) (hsame : Sameness same all) {a b : α}
    (ha : a ∈ firsts) (hb : b ∈ firsts) (hab : same a b = true) : a = b := by
  have hmem := h.sublist.subset ha
  have hmem' := h.sublist.subset hb
  have hba := hsame.symm a hmem b hmem' hab
  have hfind : all.find? (same · a) = all.find? (same · b) := by
    refine List.find?_congr fun x hx => Bool.eq_iff_iff.2 ⟨?_, ?_⟩
    · exact fun hxa => hsame.trans x hx a hmem b hmem' hxa hab
    · exact fun hxb => hsame.trans x hx b hmem' a hmem hxb hba
  rw [h.first a ha, h.first b hb] at hfind
  exact Option.some.inj hfind

/-- An element that is the same as one before it adds nothing. -/
theorem seen (h : FirstsUpTo same all firsts) {a : α} (hsame : Sameness same (all ++ [a]))
    (ha : firsts.any (same · a) = true) : FirstsUpTo same (all ++ [a]) firsts where
  sublist := h.sublist.trans (List.sublist_append_left all [a])
  first b hb := h.find?_append hb [a]
  covered b hb := by
    rw [List.mem_append, List.mem_singleton] at hb
    obtain hb | rfl := hb
    · exact h.covered b hb
    · obtain ⟨c, hc, hcb⟩ := List.any_eq_true.1 ha
      refine ⟨c, ⟨hc, hcb⟩, fun d hd => ?_⟩
      have hfront : ∀ x ∈ firsts, x ∈ all ++ [b] := fun x hx =>
        List.mem_append_left _ (h.sublist.subset hx)
      have hlast : b ∈ all ++ [b] := List.mem_concat_self
      have hbc := hsame.symm c (hfront c hc) b hlast hcb
      have hdc := hsame.trans d (hfront d hd.1) b hlast c (hfront c hc) hd.2 hbc
      exact h.eq_of_same (hsame.mono (List.subset_append_left all [b])) hd.1 hc hdc
  apart := h.apart
  ordered := h.ordered_append [a]

section Fresh

variable (h : FirstsUpTo same all firsts) {a : α} (hsame : Sameness same (all ++ [a]))
  (ha : firsts.any (same · a) = false)

include h hsame ha

theorem not_same_of_fresh : ∀ b ∈ all, same b a = false := by
  have hlast : a ∈ all ++ [a] := List.mem_concat_self
  have hkept : ∀ b ∈ firsts, same b a = false := by simpa using ha
  intro b hb
  obtain ⟨c, ⟨hc, hcb⟩, -⟩ := h.covered b hb
  rw [← Bool.not_eq_true]
  intro hba
  have hca := hsame.trans c (List.mem_append_left _ (h.sublist.subset hc)) b
    (List.mem_append_left _ hb) a hlast hcb hba
  rw [hkept c hc] at hca
  cases hca

/-- Each element is still the same as one that is kept, and the new one only as itself. -/
theorem covered_fresh {b : α} (hb : b ∈ all ++ [a]) :
    ∃! c, c ∈ firsts ++ [a] ∧ same c b = true := by
  have hlast : a ∈ all ++ [a] := List.mem_concat_self
  have hkept : ∀ b ∈ firsts, same b a = false := by simpa using ha
  rw [List.mem_append, List.mem_singleton] at hb
  obtain hb | rfl := hb
  · obtain ⟨c, ⟨hc, hcb⟩, hunique⟩ := h.covered b hb
    refine ⟨c, ⟨List.mem_append_left _ hc, hcb⟩, fun d ⟨hd, hdb⟩ => ?_⟩
    rw [List.mem_append, List.mem_singleton] at hd
    obtain hd | rfl := hd
    · exact hunique d ⟨hd, hdb⟩
    · have hbd := hsame.symm d hlast b (List.mem_append_left _ hb) hdb
      rw [h.not_same_of_fresh hsame ha b hb] at hbd
      cases hbd
  · refine ⟨b, ⟨List.mem_concat_self, hsame.refl b hlast⟩, fun d ⟨hd, hdb⟩ => ?_⟩
    rw [List.mem_append, List.mem_singleton] at hd
    obtain hd | rfl := hd
    · rw [hkept d hd] at hdb
      cases hdb
    · rfl

/-- An element that is the same as none before it is kept as the last. -/
theorem fresh : FirstsUpTo same (all ++ [a]) (firsts ++ [a]) := by
  have hlast : a ∈ all ++ [a] := List.mem_concat_self
  have hnone := h.not_same_of_fresh hsame ha
  have hplace : (all ++ [a]).findIdx (same · a) = all.length := by
    rw [List.findIdx_append, List.findIdx_eq_length.2 hnone, if_neg (Nat.lt_irrefl _)]
    simp [hsame.refl a hlast]
  refine ⟨h.sublist.append (List.Sublist.refl [a]), fun b hb => ?_,
    fun b => h.covered_fresh hsame ha, ?_, ?_⟩
  · rw [List.mem_append, List.mem_singleton] at hb
    obtain hb | rfl := hb
    · exact h.find?_append hb [a]
    · rw [List.find?_append, List.find?_eq_none.2 (by simpa using hnone), Option.none_or]
      simp [hsame.refl b hlast]
  · refine List.pairwise_append.2 ⟨h.apart, List.pairwise_singleton _ _, fun b hb c hc => ?_⟩
    rw [List.mem_singleton.1 hc]
    exact hnone b (h.sublist.subset hb)
  · refine List.pairwise_append.2 ⟨h.ordered_append [a], List.pairwise_singleton _ _, ?_⟩
    intro b hb c hc
    rw [List.mem_singleton.1 hc, hplace, h.findIdx_append hb]
    exact h.findIdx_lt_length hb

end Fresh

end FirstsUpTo

/-- What is kept of some elements are the first occurrences. -/
theorem firstsUpTo_foldl (hsame : Sameness same all) :
    FirstsUpTo same all (all.foldl (keepNew same) []) := by
  induction all using List.reverseRecOn with
  | nil => exact .nil
  | append_singleton all a ih =>
      have hfront := ih (hsame.mono (List.subset_append_left all [a]))
      rw [List.foldl_append, List.foldl_cons, List.foldl_nil, keepNew]
      cases hany : (all.foldl (keepNew same) []).any (same · a) with
      | true => exact hfront.seen hsame hany
      | false => exact hfront.fresh hsame hany

end Firsts

/-- The members of a hierarchy are those of all rows, each where it occurs first. -/
theorem distinctMembers_eq_ok {columns : List String} {rows : List Row}
    (h : ∀ row ∈ rows, ∀ column ∈ columns, (row.exactCell column).isMember = true) :
    distinctMembers columns rows =
      .ok ((rows.map (memberOf columns)).foldl (keepNew sameMember) []) := by
  have hmembers : ∀ member ∈ rows.map (memberOf columns),
      (member.any fun entry => !entry.2.isMember) = false := by
    intro member hmember
    obtain ⟨row, hrow, rfl⟩ := List.mem_map.1 hmember
    simpa [memberOf] using h row hrow
  have hadd (kept : List Row) (member : Row) (hmember : member ∈ rows.map (memberOf columns)) :
      addMember kept member = .ok (keepNew sameMember kept member) := by
    rw [addMember, hmembers member hmember, if_neg Bool.false_ne_true, keepNew]
    split <;> rfl
  rw [distinctMembers]
  generalize rows.map (memberOf columns) = members at hadd
  generalize ([] : List Row) = kept
  induction members generalizing kept with
  | nil => rfl
  | cons member rest ih =>
      rw [List.foldlM_cons, hadd kept member List.mem_cons_self]
      exact ih (fun kept other hother => hadd kept other (List.mem_cons_of_mem _ hother)) _

end StarCube
