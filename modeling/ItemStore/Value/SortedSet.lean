/-!
# Sorted sets

A finite set as the strictly increasing list of its elements, so that two sets are equal
exactly when they hold the same elements.
-/
namespace ItemStore

structure SortedSet (α : Type) [Ord α] where
  elements : List α
  increasing : elements.Pairwise fun a b => compare a b = .lt

namespace SortedSet

variable {α : Type} [Ord α]

/-- Puts an element at its place, over an equal one. -/
def insertInto (x : α) : List α → List α
  | [] => [x]
  | y :: ys =>
    match compare x y with
    | .lt => x :: y :: ys
    | .eq => y :: ys
    | .gt => y :: insertInto x ys

theorem mem_insertInto : ∀ {x z : α} {ys : List α}, z ∈ insertInto x ys → z = x ∨ z ∈ ys
  | x, z, [], h => by simpa [insertInto] using h
  | x, z, y :: ys, h => by
    unfold insertInto at h
    split at h
    · simpa using h
    · exact .inr h
    · rcases List.mem_cons.1 h with rfl | h
      · exact .inr List.mem_cons_self
      · exact (mem_insertInto h).imp id (List.mem_cons_of_mem y)

theorem increasing_insertInto [Std.TransOrd α] (x : α) : ∀ {ys : List α},
    (ys.Pairwise fun a b => compare a b = .lt) →
    (insertInto x ys).Pairwise fun a b => compare a b = .lt
  | [], _ => List.pairwise_singleton _ _
  | y :: ys, h => by
    have ⟨hhead, htail⟩ := List.pairwise_cons.1 h
    unfold insertInto
    split
    · next hlt =>
      refine List.pairwise_cons.2 ⟨fun z hz => ?_, h⟩
      rcases List.mem_cons.1 hz with rfl | hz
      · exact hlt
      · exact Std.TransCmp.lt_trans hlt (hhead z hz)
    · exact h
    · next hgt =>
      refine List.pairwise_cons.2 ⟨fun z hz => ?_, increasing_insertInto x htail⟩
      rcases mem_insertInto hz with rfl | hz
      · exact Std.OrientedCmp.gt_iff_lt.1 hgt
      · exact hhead z hz

def empty : SortedSet α := ⟨[], List.Pairwise.nil⟩

def insert [Std.TransOrd α] (s : SortedSet α) (x : α) : SortedSet α :=
  ⟨insertInto x s.elements, increasing_insertInto x s.increasing⟩

def ofList [Std.TransOrd α] (xs : List α) : SortedSet α := xs.foldl insert empty

def isEmpty (s : SortedSet α) : Bool := s.elements.isEmpty

end SortedSet
end ItemStore
