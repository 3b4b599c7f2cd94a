import StarCube.Proofs.Masking.Shapes

/-!
What a pass leaves, taken apart. A place in the text that a pass leaves is one in a mask, or it is a
place in the text before, and what is behind it is left of what was behind it. What has no part of a
mask was there before.
-/

namespace StarCube.Masking

variable {shape : SecretShape} {mask text front back : List Char}

/-- A shape takes in the same whatever follows. -/
def Closed (shape : SecretShape) : Prop :=
  ∀ ⦃front rest : List Char⦄, shape (front ++ rest) = some rest →
    ∀ other, shape (front ++ other) = some other

theorem closed_addressSecret : Closed addressSecret := by
  intro front rest h other
  obtain ⟨user, password, heq, hparts⟩ := addressSecret_eq_some_iff.1 h
  have hfront : front = "://".toList ++ (user ++ ':' :: (password ++ ['@'])) :=
    List.append_cancel_right (heq.trans (by simp))
  exact addressSecret_eq_some_iff.2 ⟨user, password, by simp [hfront], hparts⟩

/-- A place in what a pass leaves is one of the text before: what is behind it is left of what is
behind that, and so is what is in front of it where the shape takes in the same whatever follows. -/
def Splits (shape : SecretShape) (mask text front back : List Char) : Prop :=
  ∃ left right, text = left ++ right ∧ replaceAll shape mask right = back ∧
    (Closed shape → replaceAll shape mask left = front)

/-- A place in what a pass leaves is one within a mask. -/
def Cuts (mask back : List Char) : Prop :=
  ∃ cut after, cut <:+ mask ∧ cut ≠ [] ∧ cut ≠ mask ∧ back = cut ++ after

/-- A character that is copied is one more in front. -/
theorem Splits.copied {c : Char} {rest : List Char} (hshape : Consumes shape)
    (hmatch : shape (c :: rest) = none) (h : Splits shape mask rest front back) :
    Splits shape mask (c :: rest) (c :: front) back := by
  obtain ⟨left, right, rfl, hright, hleft⟩ := h
  refine ⟨c :: left, right, rfl, hright, fun hclosed => ?_⟩
  -- What would match without the part behind it would match with it.
  have hnone : shape (c :: left) = none := by
    cases hfirst : shape (c :: left) with
    | none => rfl
    | some after =>
        obtain ⟨taken, -, heq⟩ := hshape hfirst
        rw [heq] at hfirst
        have hwhole := hclosed hfirst (after ++ right)
        rw [← List.append_assoc, ← heq, List.cons_append, hmatch] at hwhole
        cases hwhole
  rw [replaceAll_of_none hnone, hleft hclosed]

/-- A match is a mask more in front. -/
theorem Splits.masked {taken after : List Char} (hshape : Consumes shape)
    (hmatch : shape (taken ++ after) = some after) (h : Splits shape mask after front back) :
    Splits shape mask (taken ++ after) (mask ++ front) back := by
  obtain ⟨left, right, rfl, hright, hleft⟩ := h
  refine ⟨taken ++ left, right, (List.append_assoc _ _ _).symm, hright, fun hclosed => ?_⟩
  rw [replaceAll_of_some hshape (hclosed hmatch left), hleft hclosed]

/-- The mask of a match is cut by a place in it that is neither its start nor its end. -/
theorem splits_or_cuts_of_masked {c : Char} {taken after more : List Char} (hshape : Consumes shape)
    (hmatch : shape (taken ++ after) = some after) (hmask : mask = c :: front ++ more)
    (hback : back = more ++ replaceAll shape mask after) :
    Splits shape mask (taken ++ after) (c :: front) back ∨ Cuts mask back := by
  cases more with
  | nil =>
      have hnil : Splits shape mask after [] (replaceAll shape mask after) :=
        ⟨[], after, rfl, rfl, fun _ => rfl⟩
      have hsplits := hnil.masked hshape hmatch
      rw [List.append_nil] at hmask hsplits
      rw [hback, List.nil_append]
      exact .inl (hmask ▸ hsplits)
  | cons e more =>
      refine .inr ⟨e :: more, _, ⟨c :: front, hmask.symm⟩, List.cons_ne_nil e more,
        fun hall => ?_, hback⟩
      have hlength := congrArg List.length hmask
      rw [← hall, List.length_append] at hlength
      simp at hlength

/-- What stands behind a place in what a pass leaves is left of what is behind a place of the text,
or it starts within a mask. -/
theorem exists_split (hshape : Consumes shape) (h : replaceAll shape mask text = front ++ back) :
    Splits shape mask text front back ∨ Cuts mask back := by
  induction hn : text.length using Nat.strong_induction_on generalizing text front with
  | _ n ih =>
      cases front with
      | nil => exact .inl ⟨[], text, rfl, h, fun _ => rfl⟩
      | cons c front =>
          cases text with
          | nil => cases h
          | cons d rest =>
              cases hmatch : shape (d :: rest) with
              | none =>
                  rw [replaceAll_of_none hmatch] at h
                  obtain ⟨rfl, hrest⟩ := List.cons.inj h
                  exact (ih rest.length (by simp [← hn]) hrest rfl).imp_left
                    (Splits.copied hshape hmatch)
              | some after =>
                  rw [replaceAll_of_some hshape hmatch] at h
                  obtain ⟨taken, -, heq⟩ := hshape hmatch
                  have hshort := hn ▸ hshape.length_lt hmatch
                  rw [heq] at hmatch ⊢
                  rcases List.append_eq_append_iff.1 h with
                    ⟨more, hfront, hafter⟩ | ⟨more, hmask, hback⟩
                  · rw [hfront]
                    exact (ih after.length hshort hafter rfl).imp_left (Splits.masked hshape hmatch)
                  · exact splits_or_cuts_of_masked hshape hmatch hmask hback

/-- A front of what a pass leaves in which no mask starts was there before. -/
theorem exists_copy (hshape : Consumes shape) (h : replaceAll shape mask text = front ++ back)
    (hfront : ∀ s, s <:+ front → s ≠ [] → ∀ rest, s ++ back ≠ mask ++ rest) :
    ∃ rest, text = front ++ rest ∧ replaceAll shape mask rest = back := by
  induction front generalizing text with
  | nil => exact ⟨text, rfl, h⟩
  | cons c front ih =>
      cases text with
      | nil => cases h
      | cons d rest =>
          cases hmatch : shape (d :: rest) with
          | none =>
              rw [replaceAll_of_none hmatch] at h
              obtain ⟨rfl, hrest⟩ := List.cons.inj h
              obtain ⟨after, rfl, hafter⟩ :=
                ih hrest fun s hs => hfront s (hs.trans (List.suffix_cons d front))
              exact ⟨after, rfl, hafter⟩
          | some after =>
              rw [replaceAll_of_some hshape hmatch] at h
              exact absurd h.symm (hfront _ List.suffix_rfl (List.cons_ne_nil c front) _)

/-- A second pass finds the masks and leaves masks, if no mask starts behind the first character of
a match: there is nothing else that it could find. -/
theorem Closed.replaceAll_replaceAll (hclosed : Closed shape) (hshape : Consumes shape)
    (hmask : shape mask = some [])
    (hwithin : ∀ c front rest, shape (c :: (front ++ rest)) = some rest →
      ∀ s, s <:+ front → s ≠ [] → ∀ more, s ++ rest ≠ mask ++ more) :
    replaceAll shape mask (replaceAll shape mask text) = replaceAll shape mask text := by
  induction hn : text.length using Nat.strong_induction_on generalizing text with
  | _ n ih =>
      cases text with
      | nil => rfl
      | cons c rest =>
          cases hmatch : shape (c :: rest) with
          | some after =>
              have hshort := hn ▸ hshape.length_lt hmatch
              have hagain :=
                hclosed ((List.append_nil mask).symm ▸ hmask) (replaceAll shape mask after)
              rw [replaceAll_of_some hshape hmatch, replaceAll_of_some hshape hagain,
                ih after.length hshort rfl]
          | none =>
              have hnone : shape (c :: replaceAll shape mask rest) = none := by
                by_contra hsome
                obtain ⟨after, hagain⟩ := Option.ne_none_iff_exists'.1 hsome
                obtain ⟨taken, hne, heq⟩ := hshape hagain
                obtain ⟨first, front, rfl⟩ := List.exists_cons_of_ne_nil hne
                obtain ⟨rfl, hfront⟩ := List.cons.inj heq
                have hafter : shape ((c :: front) ++ after) = some after := by rw [← heq, hagain]
                obtain ⟨behind, rfl, -⟩ := exists_copy hshape hfront (hwithin c front after hafter)
                have hfound := hclosed hafter behind
                rw [List.cons_append, hmatch] at hfound
                cases hfound
              rw [replaceAll_of_none hmatch, replaceAll_of_none hnone,
                ih rest.length (by simp [← hn]) rfl]

theorem exists_copy_cons (hshape : Consumes shape) (hne : mask ≠ []) {c : Char} (hc : c ∉ mask)
    (h : replaceAll shape mask text = c :: back) :
    ∃ rest, text = c :: rest ∧ replaceAll shape mask rest = back := by
  cases text with
  | nil => cases h
  | cons d rest =>
      cases hmatch : shape (d :: rest) with
      | none =>
          rw [replaceAll_of_none hmatch] at h
          obtain ⟨rfl, hrest⟩ := List.cons.inj h
          exact ⟨rest, rfl, hrest⟩
      | some after =>
          obtain ⟨first, mask, rfl⟩ := List.exists_cons_of_ne_nil hne
          rw [replaceAll_of_some hshape hmatch] at h
          exact absurd (List.cons.inj h).1 fun hfirst => hc (hfirst ▸ List.mem_cons_self)

/-- A character that is in no mask parts the text where it parts what a pass leaves. -/
theorem exists_split_cons (hshape : Consumes shape) (hclosed : Closed shape) (hne : mask ≠ [])
    {c : Char} (hc : c ∉ mask) (h : replaceAll shape mask text = front ++ c :: back) :
    ∃ left right, text = left ++ c :: right ∧ replaceAll shape mask left = front ∧
      replaceAll shape mask right = back := by
  rcases exists_split hshape h with
    ⟨left, right, rfl, hright, hleft⟩ | ⟨cut, after, hcut, hcne, -, hback⟩
  · obtain ⟨right, rfl, hback⟩ := exists_copy_cons hshape hne hc hright
    exact ⟨left, right, rfl, hleft hclosed, hback⟩
  · obtain ⟨d, cut, rfl⟩ := List.exists_cons_of_ne_nil hcne
    obtain ⟨rfl, -⟩ := List.cons.inj hback
    exact absurd (hcut.subset List.mem_cons_self) hc

/-- No match of a shape starts in a text. -/
def Free (shape : SecretShape) (text : List Char) : Prop :=
  ∀ s, s <:+ text → s ≠ [] → shape s = none

theorem Free.replaceAll_eq (h : Free shape text) : replaceAll shape mask text = text :=
  replaceAll_of_forall_none h

/-! ### Quotes -/

/-- A pass whose mask has no quotes brings no quotes. -/
theorem countP_replaceAll_le {p : Char → Bool} (hshape : Consumes shape)
    (hmask : ∀ c ∈ mask, p c = false) : (replaceAll shape mask text).countP p ≤ text.countP p := by
  have hnone : mask.countP p = 0 := List.countP_eq_zero.2 fun c hc => by simp [hmask c hc]
  induction hn : text.length using Nat.strong_induction_on generalizing text with
  | _ n ih =>
      cases text with
      | nil => exact Nat.le_refl 0
      | cons c rest =>
          cases hmatch : shape (c :: rest) with
          | none =>
              rw [replaceAll_of_none hmatch, List.countP_cons, List.countP_cons]
              exact Nat.add_le_add_right (ih rest.length (by simp [← hn]) rfl) _
          | some after =>
              have hafter := ih after.length (hn ▸ hshape.length_lt hmatch) rfl
              obtain ⟨taken, -, heq⟩ := hshape hmatch
              rw [replaceAll_of_some hshape hmatch, List.countP_append, hnone, Nat.zero_add, heq,
                List.countP_append]
              exact Nat.le_add_left_of_le hafter

/-- A pass that takes some such character in with each match leaves less of them, or finds none. -/
theorem free_or_countP_lt {p : Char → Bool} (hshape : Consumes shape)
    (hmask : ∀ c ∈ mask, p c = false)
    (htakes : ∀ s after, shape s = some after → after.countP p < s.countP p) :
    Free shape text ∨ (replaceAll shape mask text).countP p < text.countP p := by
  induction text with
  | nil => exact .inl fun s hs hne => absurd (List.suffix_nil.1 hs) hne
  | cons c rest ih =>
      cases hmatch : shape (c :: rest) with
      | some after =>
          have hle := @countP_replaceAll_le shape mask after p hshape hmask
          have hnone : mask.countP p = 0 := List.countP_eq_zero.2 fun c hc => by simp [hmask c hc]
          rw [replaceAll_of_some hshape hmatch, List.countP_append, hnone, Nat.zero_add]
          exact .inr (Nat.lt_of_le_of_lt hle (htakes _ _ hmatch))
      | none =>
          rw [replaceAll_of_none hmatch]
          refine ih.imp (fun hfree s hs hne => ?_) fun hless => ?_
          · rcases List.suffix_cons_iff.1 hs with rfl | hrest
            · exact hmatch
            · exact hfree s hrest hne
          · rw [List.countP_cons, List.countP_cons]
            exact Nat.add_lt_add_right hless _

end StarCube.Masking
