import Mathlib.Data.List.Basic
/-!
# Lists by parts

A list is made up, but for its order, of what it has for each of some keys (`perm_flatMap_filter`).  So are the changes
of an update gathered under their clauses, and the items of a scan divided among its segments.  A list that is in order
is known, order and all, by what it has of each level (`eq_of_levelWith`), and sorting keeps that (`eq_mergeSort_iff`).
-/
namespace ItemStore

open Std (TransCmp OrientedCmp)

/-! ## Parts by key -/

/-- **What a list has for each key, one key after the other, is the list in another order.** -/
theorem perm_flatMap_filter {α κ : Type} [BEq κ] [LawfulBEq κ] (key : α → κ) : ∀ {ks : List κ}, ks.Nodup →
    ∀ {xs : List α}, (∀ x ∈ xs, key x ∈ ks) → (ks.flatMap fun k => xs.filter fun x => key x == k).Perm xs
  | [], _, xs, h => by
    have hnil : xs = [] := List.eq_nil_iff_forall_not_mem.2 fun x hx => List.not_mem_nil (h x hx)
    rw [hnil]
    exact .refl _
  | k :: ks, hd, xs, h => by
    obtain ⟨hnot, hd⟩ := List.nodup_cons.1 hd
    have hothers : ∀ x ∈ xs.filter fun x => !(key x == k), key x ∈ ks := by
      intro x hx
      obtain ⟨hx, hne⟩ := List.mem_filter.1 hx
      rcases List.mem_cons.1 (h x hx) with heq | hmem
      · simp [heq] at hne
      · exact hmem
    have hsame : ∀ k' ∈ ks, (xs.filter fun x => !(key x == k)).filter (fun x => key x == k') =
        xs.filter fun x => key x == k' := by
      intro k' hk'
      rw [List.filter_filter]
      refine List.filter_congr fun x _ => ?_
      by_cases hx : key x = k'
      · have hne : key x ≠ k := fun heq => hnot (heq ▸ hx ▸ hk')
        simp [hx, hx ▸ hne]
      · simp [hx]
    have hrest := perm_flatMap_filter key hd hothers
    rw [List.flatMap_congr hsame] at hrest
    rw [List.flatMap_cons]
    exact (hrest.append_left _).trans (List.filter_append_perm _ xs)

/-! ## Parts by level -/

section Levels
variable {α : Type} {cmp : α → α → Ordering} {a b x y : α} {xs ys : List α}

/-- The elements that are level with `a`. -/
def levelWith (cmp : α → α → Ordering) (a : α) (xs : List α) : List α := xs.filter fun b => cmp a b == .eq

theorem mem_levelWith : b ∈ levelWith cmp a xs ↔ b ∈ xs ∧ cmp a b = .eq := by
  rw [levelWith, List.mem_filter, beq_iff_eq]

theorem levelWith_cons_of_level (h : cmp a x = .eq) : levelWith cmp a (x :: xs) = x :: levelWith cmp a xs :=
  List.filter_cons_of_pos (beq_iff_eq.2 h)

theorem levelWith_cons_of_not_level (h : cmp a x ≠ .eq) : levelWith cmp a (x :: xs) = levelWith cmp a xs :=
  List.filter_cons_of_neg fun hx => h (beq_iff_eq.1 hx)

theorem ne_gt_eq_isLE : (fun a b => cmp a b != .gt) = fun a b => (cmp a b).isLE := by
  funext a b
  cases cmp a b <;> rfl

variable [TransCmp cmp]

theorem mem_levelWith_self (h : a ∈ xs) : a ∈ levelWith cmp a xs := mem_levelWith.2 ⟨h, Std.ReflCmp.compare_self⟩

theorem isLE_total (a b : α) : ((cmp a b).isLE || (cmp b a).isLE) = true := by
  have hswap : cmp b a = (cmp a b).swap := OrientedCmp.eq_swap
  rw [hswap]
  cases cmp a b <;> rfl

theorem isLE_of_mem_cons (h : (x :: xs).Pairwise fun a b => (cmp a b).isLE) (hy : y ∈ x :: xs) : (cmp x y).isLE := by
  rcases List.mem_cons.1 hy with rfl | hy
  · exact Std.ReflCmp.isLE_rfl
  · exact List.rel_of_pairwise_cons h hy

/-- **Lists that are in order and have the same of each level are the same.** -/
theorem eq_of_levelWith : ∀ {xs ys : List α}, xs.Pairwise (fun a b => (cmp a b).isLE) →
    ys.Pairwise (fun a b => (cmp a b).isLE) → (∀ a, levelWith cmp a xs = levelWith cmp a ys) → xs = ys
  | [], [], _, _, _ => rfl
  | [], y :: ys, _, _, h => by
    have hy := h y ▸ mem_levelWith_self List.mem_cons_self
    exact absurd (mem_levelWith.1 hy).1 List.not_mem_nil
  | x :: xs, [], _, _, h => by
    have hx := h x ▸ mem_levelWith_self List.mem_cons_self
    exact absurd (mem_levelWith.1 hx).1 List.not_mem_nil
  | x :: xs, y :: ys, hxs, hys, h => by
    -- Neither first element comes before the other, so both are the first of one level.
    have hx : x ∈ y :: ys := (mem_levelWith.1 (h x ▸ mem_levelWith_self List.mem_cons_self)).1
    have hy : y ∈ x :: xs := (mem_levelWith.1 (h y ▸ mem_levelWith_self List.mem_cons_self)).1
    have hself : cmp x x = .eq := Std.ReflCmp.compare_self
    have hlevel : cmp x y = .eq := OrientedCmp.isLE_antisymm (isLE_of_mem_cons hxs hy) (isLE_of_mem_cons hys hx)
    have hfirst := h x
    rw [levelWith_cons_of_level hself, levelWith_cons_of_level hlevel] at hfirst
    obtain rfl := (List.cons.inj hfirst).1
    refine congrArg (x :: ·) (eq_of_levelWith hxs.of_cons hys.of_cons fun a => ?_)
    have hrest := h a
    by_cases ha : cmp a x = .eq
    · rw [levelWith_cons_of_level ha, levelWith_cons_of_level ha] at hrest
      exact (List.cons.inj hrest).2
    · rwa [levelWith_cons_of_not_level ha, levelWith_cons_of_not_level ha] at hrest

/-! ## Sorting -/

theorem pairwise_mergeSort_isLE (xs : List α) :
    (xs.mergeSort fun a b => cmp a b != .gt).Pairwise fun a b => (cmp a b).isLE := by
  rw [ne_gt_eq_isLE]
  exact List.pairwise_mergeSort (fun a b c => TransCmp.isLE_trans) isLE_total xs

/-- What is level stays in its order. -/
theorem levelWith_mergeSort (a : α) (xs : List α) :
    levelWith cmp a (xs.mergeSort fun a b => cmp a b != .gt) = levelWith cmp a xs := by
  have hperm : (levelWith cmp a (xs.mergeSort fun a b => cmp a b != .gt)).Perm (levelWith cmp a xs) :=
    (List.mergeSort_perm xs _).filter _
  rw [ne_gt_eq_isLE] at hperm ⊢
  have hlevel : (levelWith cmp a xs).Pairwise fun b c => (cmp b c).isLE = true := by
    refine List.pairwise_of_forall_mem_list fun b hb c hc => ?_
    rw [← TransCmp.congr_left (mem_levelWith.1 hb).2, (mem_levelWith.1 hc).2]
    rfl
  have hsub : (levelWith cmp a xs).Sublist (xs.mergeSort fun a b => (cmp a b).isLE) :=
    List.sublist_mergeSort (fun a b c => TransCmp.isLE_trans) isLE_total hlevel List.filter_sublist
  have hagain : levelWith cmp a (levelWith cmp a xs) = levelWith cmp a xs :=
    List.filter_eq_self.2 fun b hb => beq_iff_eq.2 (mem_levelWith.1 hb).2
  have hpart : (levelWith cmp a xs).Sublist (levelWith cmp a (xs.mergeSort fun a b => (cmp a b).isLE)) :=
    hagain ▸ hsub.filter fun b => cmp a b == .eq
  exact (hpart.eq_of_length hperm.length_eq.symm).symm

/-- **A list has been sorted if it is in order and has the same of each level, in the same order.** -/
theorem eq_mergeSort_iff : ys = xs.mergeSort (fun a b => cmp a b != .gt) ↔
    ys.Pairwise (fun a b => (cmp a b).isLE) ∧ ∀ a, levelWith cmp a ys = levelWith cmp a xs := by
  constructor
  · rintro rfl
    exact ⟨pairwise_mergeSort_isLE xs, fun a => levelWith_mergeSort a xs⟩
  · rintro ⟨hys, hlevel⟩
    exact eq_of_levelWith hys (pairwise_mergeSort_isLE xs) fun a => (hlevel a).trans (levelWith_mergeSort a xs).symm

end Levels

end ItemStore
