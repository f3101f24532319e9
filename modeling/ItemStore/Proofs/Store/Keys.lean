import ItemStore.Proofs.Value.Entries
import ItemStore.Proofs.Value.Order
import ItemStore.Store.Table
/-!
# No two items of one key

The order of items by some of their attributes is a total preorder (`transCmp_itemOrder`), so being of one key is an
equivalence.  A table in which no two items are of one key (`Table.Distinct`) stays so through puts and removes.
-/
namespace ItemStore

open Std (TransCmp OrientedCmp)

/-! ## The order of items -/

instance transCmp_itemOrder : ∀ names : List String, TransCmp (itemOrder names)
  | [] => { eq_swap := rfl, isLE_trans := fun _ _ => rfl }
  | name :: names => by
    have hrest := transCmp_itemOrder names
    have hfirst : TransCmp fun a b : Item => Value.attributeOrder (a.get? name) (b.get? name) :=
      { eq_swap := OrientedCmp.eq_swap, isLE_trans := TransCmp.isLE_trans }
    have hlex : itemOrder (name :: names) =
        compareLex (fun a b : Item => Value.attributeOrder (a.get? name) (b.get? name)) (itemOrder names) := by
      funext a b
      rfl
    rw [hlex]
    infer_instance

theorem itemOrder_eq_iff {a b : Item} : ∀ {names : List String},
    itemOrder names a b = .eq ↔ ∀ name ∈ names, Value.attributeOrder (a.get? name) (b.get? name) = .eq
  | [] => by simp [itemOrder]
  | name :: names => by
    rw [itemOrder, Ordering.then_eq_eq, itemOrder_eq_iff, List.forall_mem_cons]

/-- The order looks at nothing but the attributes of these names. -/
theorem itemOrder_congr {a b b' : Item} : ∀ {names : List String}, (∀ name ∈ names, b.get? name = b'.get? name) →
    itemOrder names a b = itemOrder names a b'
  | [], _ => rfl
  | name :: names, h => by
    obtain ⟨hname, hrest⟩ := List.forall_mem_cons.1 h
    rw [itemOrder, itemOrder, hname, itemOrder_congr hrest]

theorem itemOrder_restrict (names : List String) (a b : Item) :
    itemOrder names a (b.restrict names) = itemOrder names a b :=
  itemOrder_congr fun _ h => Entries.get?_restrict h b

/-- What has been found level before need not be looked at again. -/
theorem itemOrder_filter_ne {a b : Item} {name : String} (h : Value.attributeOrder (a.get? name) (b.get? name) = .eq) :
    ∀ names : List String, itemOrder (names.filter fun other => !other == name) a b = itemOrder names a b
  | [] => rfl
  | other :: names => by
    have hrest := itemOrder_filter_ne h names
    by_cases hname : other = name
    · rw [List.filter_cons_of_neg (by simp [hname]), hrest, itemOrder, hname, h]
      rfl
    · rw [List.filter_cons_of_pos (by simp [hname]), itemOrder, itemOrder, hrest]

theorem itemOrder_eraseDups {a b : Item} : ∀ names : List String, itemOrder names.eraseDups a b = itemOrder names a b
  | [] => rfl
  | name :: names => by
    rw [List.eraseDups_cons, itemOrder, itemOrder, itemOrder_eraseDups (names.filter fun other => !other == name)]
    cases hname : Value.attributeOrder (a.get? name) (b.get? name) with
    | eq => rw [itemOrder_filter_ne hname]
    | lt => rfl
    | gt => rfl
termination_by names => names.length
decreasing_by exact Nat.lt_succ_of_le (List.length_filter_le _ names)

namespace Table

/-! ## Being of one key -/

theorem sameKey_iff {t : Table} {a b : Item} : t.sameKey a b = true ↔ itemOrder t.key.names a b = .eq := beq_iff_eq

theorem sameKey_comm (t : Table) (a b : Item) : t.sameKey a b = t.sameKey b a := by
  rw [Bool.eq_iff_iff, sameKey_iff, sameKey_iff]
  exact OrientedCmp.eq_comm

theorem sameKey_trans {t : Table} {a b c : Item} (hab : t.sameKey a b = true) (hbc : t.sameKey b c = true) :
    t.sameKey a c = true := by
  rw [sameKey_iff] at hab hbc ⊢
  exact TransCmp.eq_trans hab hbc

/-- No two items of the table are of one key. -/
def Distinct (t : Table) : Prop := t.items.Pairwise fun a b => t.sameKey a b = false

theorem mem_replaceFirst {same : Item → Bool} {item : Item} : ∀ {xs : List Item} {y : Item},
    y ∈ replaceFirst same item xs → y = item ∨ y ∈ xs
  | [], _, h => .inl (List.mem_singleton.1 h)
  | x :: xs, y, h => by
    rw [replaceFirst] at h
    split at h
    · rcases List.mem_cons.1 h with rfl | h
      · exact .inl rfl
      · exact .inr (List.mem_cons_of_mem x h)
    · rcases List.mem_cons.1 h with rfl | h
      · exact .inr List.mem_cons_self
      · exact (mem_replaceFirst h).imp_right (List.mem_cons_of_mem x)

theorem pairwise_replaceFirst (t : Table) (item : Item) : ∀ {xs : List Item},
    xs.Pairwise (fun a b => t.sameKey a b = false) →
      (replaceFirst (fun x => t.sameKey x item) item xs).Pairwise fun a b => t.sameKey a b = false
  | [], _ => List.pairwise_singleton _ item
  | x :: xs, h => by
    obtain ⟨hx, hxs⟩ := List.pairwise_cons.1 h
    rw [replaceFirst]
    split
    · next hsame =>
      refine List.pairwise_cons.2 ⟨fun y hy => ?_, hxs⟩
      rw [Bool.eq_false_iff]
      intro hitem
      have hne := hx y hy
      rw [sameKey_trans hsame hitem] at hne
      cases hne
    · next hother =>
      refine List.pairwise_cons.2 ⟨fun y hy => ?_, pairwise_replaceFirst t item hxs⟩
      rcases mem_replaceFirst hy with rfl | hy
      · exact Bool.eq_false_iff.2 hother
      · exact hx y hy

theorem distinct_put {t : Table} (h : t.Distinct) (item : Item) :
    (t.put item).Distinct := pairwise_replaceFirst t item h

theorem distinct_remove {t : Table} (h : t.Distinct) (key : Item) : (t.remove key).Distinct :=
  h.sublist List.eraseP_sublist

end Table
end ItemStore
