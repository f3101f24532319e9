import ItemStore.Proofs.Store.Keys
/-!
# What a table holds, key by key

A table is looked at through the items of each key (`Table.itemsOf`).  A put or a remove acts on the items of one key
and leaves those of all others (`Fate.itemsOf_on_same`, `Fate.itemsOf_on_other`).  Tables that hold the same under every
key differ in no more than the order of their items (`Table.SameContents.perm`).
-/
namespace ItemStore

namespace Table

theorem sameKey_congr {t t' : Table} (h : t'.key = t.key) (a b : Item) : t'.sameKey a b = t.sameKey a b := by
  rw [sameKey, sameKey, h]

theorem sameKey_self (t : Table) (a : Item) : t.sameKey a a = true := sameKey_iff.2 Std.ReflCmp.compare_self

/-- Items of one key are told from others alike. -/
theorem sameKey_left {t : Table} {a b : Item} (h : t.sameKey a b = true) (c : Item) :
    t.sameKey a c = t.sameKey b c := by
  rw [Bool.eq_iff_iff]
  constructor
  · intro hac
    rw [sameKey_comm] at h
    exact sameKey_trans h hac
  · exact sameKey_trans h

/-! ## The items of one key -/

/-- The items of one key, in the order of the table. -/
def itemsOf (t : Table) (key : Item) : List Item := t.items.filter fun x => t.sameKey x key

theorem find?_eq_head? (t : Table) (key : Item) : t.find? key = (t.itemsOf key).head? := List.head?_filter.symm

variable {item : Item} {same p : Item → Bool}

theorem filter_replaceFirst_same (h : p item = true) : ∀ xs : List Item,
    (replaceFirst p item xs).filter p = item :: (xs.filter p).tail
  | [] => by
    rw [replaceFirst, List.filter_cons_of_pos h]
    rfl
  | x :: xs => by
    rw [replaceFirst]
    split
    · next hx => rw [List.filter_cons_of_pos h, List.filter_cons_of_pos hx, List.tail_cons]
    · next hx => rw [List.filter_cons_of_neg hx, List.filter_cons_of_neg hx, filter_replaceFirst_same h xs]

theorem filter_replaceFirst_other (h : p item = false) (hsame : ∀ x, same x = true → p x = false) : ∀ xs : List Item,
    (replaceFirst same item xs).filter p = xs.filter p
  | [] => by rw [replaceFirst, List.filter_cons_of_neg (Bool.eq_false_iff.1 h)]
  | x :: xs => by
    rw [replaceFirst]
    split
    · next hx =>
      rw [List.filter_cons_of_neg (Bool.eq_false_iff.1 h), List.filter_cons_of_neg (Bool.eq_false_iff.1 (hsame x hx))]
    · rw [List.filter_cons, List.filter_cons, filter_replaceFirst_other h hsame xs]

theorem filter_eraseP_same : ∀ xs : List Item, (xs.eraseP p).filter p = (xs.filter p).tail
  | [] => rfl
  | x :: xs => by
    by_cases hx : p x = true
    · rw [List.eraseP_cons_of_pos hx, List.filter_cons_of_pos hx, List.tail_cons]
    · rw [List.eraseP_cons_of_neg hx, List.filter_cons_of_neg hx, List.filter_cons_of_neg hx, filter_eraseP_same xs]

theorem filter_eraseP_other (hsame : ∀ x, same x = true → p x = false) : ∀ xs : List Item,
    (xs.eraseP same).filter p = xs.filter p
  | [] => rfl
  | x :: xs => by
    by_cases hx : same x = true
    · rw [List.eraseP_cons_of_pos hx, List.filter_cons_of_neg (Bool.eq_false_iff.1 (hsame x hx))]
    · rw [List.eraseP_cons_of_neg hx, List.filter_cons, List.filter_cons, filter_eraseP_other hsame xs]

/-- To look for an item is to look for another of its key. -/
theorem sameKey_right {t : Table} {a b : Item} (h : t.sameKey a b = true) :
    (fun x => t.sameKey x a) = fun x => t.sameKey x b := by
  funext x
  rw [sameKey_comm, sameKey_comm t x, sameKey_left h]

theorem find?_congr_key {t : Table} {a b : Item} (h : t.sameKey a b = true) : t.find? a = t.find? b := by
  rw [find?, find?, sameKey_right h]

theorem itemsOf_put_same {t : Table} {item key : Item} (h : t.sameKey item key = true) :
    (t.put item).itemsOf key = item :: (t.itemsOf key).tail := by
  show (replaceFirst _ item t.items).filter (fun x => t.sameKey x key) = _
  rw [sameKey_right h]
  exact filter_replaceFirst_same (p := fun x => t.sameKey x key) h t.items

theorem itemsOf_put_other {t : Table} {item key : Item} (h : t.sameKey item key = false) :
    (t.put item).itemsOf key = t.itemsOf key :=
  filter_replaceFirst_other (p := fun x => t.sameKey x key) h (fun _ hx => (sameKey_left hx key).trans h) t.items

theorem itemsOf_remove_same {t : Table} {target key : Item} (h : t.sameKey target key = true) :
    (t.remove target).itemsOf key = (t.itemsOf key).tail := by
  show (t.items.eraseP _).filter (fun x => t.sameKey x key) = _
  rw [sameKey_right h]
  exact filter_eraseP_same t.items

theorem itemsOf_remove_other {t : Table} {target key : Item} (h : t.sameKey target key = false) :
    (t.remove target).itemsOf key = t.itemsOf key :=
  filter_eraseP_other (p := fun x => t.sameKey x key) (fun _ hx => (sameKey_left hx key).trans h) t.items

/-! ## Tables that hold the same -/

/-- The tables are read alike, but for the order of items of different keys. -/
structure SameContents (t t' : Table) : Prop where
  key : t'.key = t.key
  indexes : t'.indexes = t.indexes
  items : ∀ key, t'.itemsOf key = t.itemsOf key

namespace SameContents

variable {t t' t'' : Table}

theorem refl (t : Table) : SameContents t t := ⟨rfl, rfl, fun _ => rfl⟩

theorem trans (h : SameContents t t') (h' : SameContents t' t'') : SameContents t t'' :=
  ⟨h'.key.trans h.key, h'.indexes.trans h.indexes, fun key => (h'.items key).trans (h.items key)⟩

theorem find?_eq (h : SameContents t t') (key : Item) : t'.find? key = t.find? key := by
  rw [find?_eq_head?, find?_eq_head?, h.items]

/-- **Tables that hold the same differ in the order of their items only.** -/
theorem perm (h : SameContents t t') : t'.items.Perm t.items := by
  rw [List.perm_iff_count]
  intro item
  have hcount := congrArg (List.count item) (h.items item)
  rwa [itemsOf, itemsOf, List.count_filter (p := fun x => t'.sameKey x item) (t'.sameKey_self item),
    List.count_filter (p := fun x => t.sameKey x item) (t.sameKey_self item)] at hcount

end SameContents

end Table

/-! ## What becomes of one item -/

/-- What becomes of the item that a write is about. -/
inductive Fate where
  | stays
  | becomes (item : Item)
  | goes

namespace Fate

variable {t t' : Table} {key other : Item} {fate : Fate}

/-- The table in which the item of that key has met its fate. -/
def on (key : Item) (fate : Fate) (t : Table) : Table :=
  match fate with
  | stays => t
  | becomes item => t.put item
  | goes => t.remove key

/-- What the item becomes is of the same key. -/
def Fits (t : Table) (key : Item) : Fate → Prop
  | becomes item => t.sameKey item key = true
  | _ => True

/-- The items of its key, of which it is the first. -/
def items (fate : Fate) (xs : List Item) : List Item :=
  match fate with
  | stays => xs
  | becomes item => item :: xs.tail
  | goes => xs.tail

@[simp] theorem key_on (fate : Fate) (key : Item) (t : Table) : (fate.on key t).key = t.key := by
  cases fate <;> rfl

@[simp] theorem indexes_on (fate : Fate) (key : Item) (t : Table) : (fate.on key t).indexes = t.indexes := by
  cases fate <;> rfl

theorem Fits.congr (h : fate.Fits t key) (hkey : t'.key = t.key) : fate.Fits t' key := by
  cases fate with
  | becomes item => exact (Table.sameKey_congr hkey item key).trans h
  | _ => trivial

theorem itemsOf_on_same (hfits : fate.Fits t key) (h : t.sameKey key other = true) :
    (fate.on key t).itemsOf other = fate.items (t.itemsOf other) := by
  cases fate with
  | stays => rfl
  | becomes item => exact Table.itemsOf_put_same (Table.sameKey_trans hfits h)
  | goes => exact Table.itemsOf_remove_same h

theorem itemsOf_on_other (hfits : fate.Fits t key) (h : t.sameKey key other = false) :
    (fate.on key t).itemsOf other = t.itemsOf other := by
  cases fate with
  | stays => rfl
  | becomes item =>
    have hitem : t.sameKey item other = false := by rw [Table.sameKey_left hfits, h]
    exact Table.itemsOf_put_other hitem
  | goes => exact Table.itemsOf_remove_other h

theorem find?_on_other (hfits : fate.Fits t key) (h : t.sameKey key other = false) :
    (fate.on key t).find? other = t.find? other := by
  rw [Table.find?_eq_head?, Table.find?_eq_head?, itemsOf_on_other hfits h]

/-- An item meets its fate alike in tables that hold the same. -/
theorem on_sameContents (hfits : fate.Fits t key) (h : t.SameContents t') :
    (fate.on key t).SameContents (fate.on key t') := by
  refine ⟨by rw [key_on, key_on, h.key], by rw [indexes_on, indexes_on, h.indexes], fun other => ?_⟩
  cases hother : t.sameKey key other with
  | true =>
    have hother' : t'.sameKey key other = true := (Table.sameKey_congr h.key key other).trans hother
    rw [itemsOf_on_same hfits hother, itemsOf_on_same (hfits.congr h.key) hother', h.items]
  | false =>
    have hother' : t'.sameKey key other = false := (Table.sameKey_congr h.key key other).trans hother
    rw [itemsOf_on_other hfits hother, itemsOf_on_other (hfits.congr h.key) hother', h.items]

/-- **Items of different keys meet their fates in any order.** -/
theorem on_comm {key' : Item} {fate' : Fate} (hfits : fate.Fits t key) (hfits' : fate'.Fits t key')
    (h : t.sameKey key key' = false) :
    (fate.on key (fate'.on key' t)).SameContents (fate'.on key' (fate.on key t)) := by
  have hfitsAfter : fate.Fits (fate'.on key' t) key := hfits.congr (key_on fate' key' t)
  have hfitsAfter' : fate'.Fits (fate.on key t) key' := hfits'.congr (key_on fate key t)
  refine ⟨by simp, by simp, fun other => ?_⟩
  -- of the two keys at most one is the key that is looked at
  cases hother : t.sameKey key other with
  | true =>
    have hother' : t.sameKey key' other = false := by
      rw [Table.sameKey_comm, ← Table.sameKey_left hother, h]
    rw [itemsOf_on_other hfitsAfter' (by rwa [Table.sameKey_congr (key_on fate key t)]), itemsOf_on_same hfits hother,
      itemsOf_on_same hfitsAfter (by rwa [Table.sameKey_congr (key_on fate' key' t)]), itemsOf_on_other hfits' hother']
  | false =>
    rw [itemsOf_on_other hfitsAfter (by rwa [Table.sameKey_congr (key_on fate' key' t)])]
    cases hother' : t.sameKey key' other with
    | true =>
      rw [itemsOf_on_same hfitsAfter' (by rwa [Table.sameKey_congr (key_on fate key t)]), itemsOf_on_other hfits hother,
        itemsOf_on_same hfits' hother']
    | false =>
      rw [itemsOf_on_other hfitsAfter' (by rwa [Table.sameKey_congr (key_on fate key t)]),
        itemsOf_on_other hfits hother, itemsOf_on_other hfits' hother']

end Fate
end ItemStore
