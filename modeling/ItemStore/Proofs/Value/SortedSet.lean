import Mathlib.Data.List.Perm.Basic
import ItemStore.Value.SortedSet
/-!
# Sorted sets are sets

A sorted set is told apart by its elements (`SortedSet.eq_of_mem_iff`), and a list of them in any order builds it again
(`SortedSet.ofList_of_perm`).
-/
namespace ItemStore
namespace SortedSet

variable {α : Type} [Ord α]

theorem ne_of_lt [Std.TransOrd α] {a b : α} (h : compare a b = .lt) : a ≠ b := fun heq => by
  rw [heq, Std.ReflOrd.compare_self] at h
  cases h

/-- **Sets with the same elements are the same.** -/
theorem eq_of_mem_iff [Std.TransOrd α] {s s' : SortedSet α} (h : ∀ x, x ∈ s.elements ↔ x ∈ s'.elements) :
    s = s' := by
  obtain ⟨xs, hxs⟩ := s
  obtain ⟨ys, hys⟩ := s'
  have hperm : xs.Perm ys := (List.perm_ext_iff_of_nodup (hxs.imp ne_of_lt) (hys.imp ne_of_lt)).2 h
  have hantisymm : ∀ a b : α, compare a b = .lt → compare b a = .lt → a = b := fun a b hab hba =>
    absurd hba (Std.OrientedCmp.not_lt_of_lt hab)
  obtain rfl : xs = ys := hperm.eq_of_pairwise (fun a b _ _ => hantisymm a b) hxs hys
  rfl

theorem isEmpty_iff [Std.TransOrd α] {s : SortedSet α} : s.isEmpty = true ↔ s = empty := by
  constructor
  · intro h
    exact eq_of_mem_iff fun x => by rw [List.isEmpty_iff.1 h]; rfl
  · rintro rfl
    rfl

theorem mem_insertInto_iff [Std.LawfulEqOrd α] {x z : α} :
    ∀ {ys : List α}, z ∈ insertInto x ys ↔ z = x ∨ z ∈ ys
  | [] => by rw [insertInto, List.mem_singleton]; simp
  | y :: ys => by
    unfold insertInto
    split
    · exact List.mem_cons
    · next heq =>
      obtain rfl := Std.LawfulEqCmp.eq_of_compare heq
      exact ⟨.inr, fun h => h.elim (fun hz => hz ▸ List.mem_cons_self) id⟩
    · rw [List.mem_cons, mem_insertInto_iff, List.mem_cons]
      exact or_left_comm

variable [Std.TransOrd α] [Std.LawfulEqOrd α]

theorem mem_foldl_insert {z : α} : ∀ {xs : List α} {s : SortedSet α},
    z ∈ (xs.foldl insert s).elements ↔ z ∈ xs ∨ z ∈ s.elements
  | [], s => by simp
  | x :: xs, s => by
    rw [List.foldl_cons, mem_foldl_insert, insert, mem_insertInto_iff, List.mem_cons]
    exact or_left_comm.trans or_assoc.symm

theorem mem_ofList {z : α} {xs : List α} : z ∈ (ofList xs).elements ↔ z ∈ xs :=
  mem_foldl_insert.trans (or_iff_left List.not_mem_nil)

/-- **The elements of a set, in any order, build it again.** -/
theorem ofList_of_perm {xs : List α} {s : SortedSet α} (h : xs.Perm s.elements) : ofList xs = s :=
  eq_of_mem_iff fun _ => mem_ofList.trans h.mem_iff

end SortedSet
end ItemStore
