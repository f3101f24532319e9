import ItemStore.Proofs.Outcome
import ItemStore.Proofs.Store.Contents
/-!
# What has been left under a key

A write that succeeds leaves an item under its key, or none: that is its deed.  A table that has come about by deeds
holds what the latest of each key has left (`Table.Holds`), and so it goes on with every put and every remove.
-/
namespace ItemStore

open Outcome (forM_eq_ok)

/-- What a write has left under a key. -/
structure Deed where
  key : Item
  left : Option Item

/-- Two items, or an item and a key, are of one key. -/
def KeySchema.sameKey (k : KeySchema) (a b : Item) : Bool := itemOrder k.names a b == .eq

/-- What the latest deed of a key has left there. -/
def Deed.latest (k : KeySchema) (deeds : List Deed) (key : Item) : Option Item :=
  (deeds.reverse.find? fun deed => k.sameKey deed.key key).bind (·.left)

theorem Deed.latest_concat (k : KeySchema) (deeds : List Deed) (deed : Deed) (key : Item) :
    latest k (deeds ++ [deed]) key = if k.sameKey deed.key key then deed.left else latest k deeds key := by
  rw [latest, List.reverse_concat, List.find?_cons]
  cases k.sameKey deed.key key <;> rfl

/-- The item carries every attribute of the key, as a text, a number or bytes. -/
def KeySchema.KeyedIn (k : KeySchema) (item : Item) : Prop :=
  ∀ name ∈ k.names, ∃ v, item.get? name = some v ∧ v.IsScalar

namespace Table

variable {t : Table} {item key : Item}

/-! ## At most one item of a key -/

theorem tail_itemsOf (h : t.Distinct) (key : Item) : (t.itemsOf key).tail = [] := by
  have hdistinct : (t.itemsOf key).Pairwise fun a b => t.sameKey a b = false := h.filter _
  have hsame : ∀ x ∈ t.itemsOf key, t.sameKey x key = true := fun x hx => (List.mem_filter.1 hx).2
  generalize t.itemsOf key = items at hdistinct hsame ⊢
  rcases items with _ | ⟨x, _ | ⟨y, rest⟩⟩
  · rfl
  · rfl
  · -- two items of one key would be of each other's
    have hy : t.sameKey y key = true := hsame y (List.mem_cons_of_mem x List.mem_cons_self)
    rw [sameKey_comm] at hy
    have hxy := sameKey_trans (hsame x List.mem_cons_self) hy
    rw [(List.pairwise_cons.1 hdistinct).1 y List.mem_cons_self] at hxy
    cases hxy

theorem mem_items_iff (h : t.Distinct) : item ∈ t.items ↔ t.find? item = some item := by
  constructor
  · intro hitem
    have hmem : item ∈ t.itemsOf item := List.mem_filter.2 ⟨hitem, t.sameKey_self item⟩
    have htail := tail_itemsOf h item
    rw [find?_eq_head?]
    cases hitems : t.itemsOf item with
    | nil =>
      rw [hitems] at hmem
      cases hmem
    | cons x rest =>
      rw [hitems, List.tail_cons] at htail
      rw [hitems, htail, List.mem_singleton] at hmem
      rw [hmem, List.head?_cons]
  · exact List.mem_of_find?_eq_some

theorem find?_put (t : Table) (item key : Item) :
    (t.put item).find? key = if t.sameKey item key then some item else t.find? key := by
  rw [find?_eq_head?, find?_eq_head?]
  cases hsame : t.sameKey item key with
  | true => rw [itemsOf_put_same hsame, List.head?_cons, if_pos rfl]
  | false => rw [itemsOf_put_other hsame, if_neg Bool.false_ne_true]

theorem find?_remove (h : t.Distinct) (target key : Item) :
    (t.remove target).find? key = if t.sameKey target key then none else t.find? key := by
  rw [find?_eq_head?, find?_eq_head?]
  cases hsame : t.sameKey target key with
  | true => rw [itemsOf_remove_same hsame, tail_itemsOf h, List.head?_nil, if_pos rfl]
  | false => rw [itemsOf_remove_other hsame, if_neg Bool.false_ne_true]

/-! ## What the checks of keys say -/

theorem checkKeyAttribute_eq_ok {name : String} :
    checkKeyAttribute item name = .ok () ↔ ∃ v, item.get? name = some v ∧ v.IsScalar := by
  unfold checkKeyAttribute
  cases item.get? name with
  | none => simp
  | some v => cases v <;> simp [Value.IsScalar, Value.asString?, Value.asNumber?, Value.asBinary?, Value.wireType]

theorem checkKeyAttributes_eq_ok : t.checkKeyAttributes item = .ok () ↔ t.key.KeyedIn item :=
  forM_eq_ok.trans (forall₂_congr fun _ _ => checkKeyAttribute_eq_ok)

theorem checkKey_eq_ok : t.checkKey key = .ok () ↔ key.length = t.key.names.length ∧ t.key.KeyedIn key := by
  unfold checkKey
  split
  · next hlength => rw [checkKeyAttributes_eq_ok, and_iff_right hlength]
  · next hlength => simp [hlength]

/-! ## Tables that hold what has been left -/

/-- The table holds what the deeds have left, under each key the latest of it, and nothing else. -/
structure Holds (t : Table) (deeds : List Deed) : Prop where
  distinct : t.Distinct
  keyed : ∀ item ∈ t.items, t.key.KeyedIn item
  sorted : ∀ item ∈ t.items, Entries.Sorted item
  found : ∀ key, t.find? key = Deed.latest t.key deeds key

namespace Holds

variable {deeds : List Deed}

theorem of_empty (h : t.items = []) : t.Holds [] where
  distinct := by
    rw [Distinct, h]
    exact .nil
  keyed := by
    rw [h]
    exact List.forall_mem_nil _
  sorted := by
    rw [h]
    exact List.forall_mem_nil _
  found key := by
    rw [find?, h]
    rfl

theorem put (h : t.Holds deeds) (hkeyed : t.key.KeyedIn item) (hsorted : Entries.Sorted item)
    (hkey : t.sameKey key item = true) : (t.put item).Holds (deeds ++ [⟨key, some item⟩]) where
  distinct := distinct_put h.distinct item
  keyed x hx := by
    rcases mem_replaceFirst hx with rfl | hx
    · exact hkeyed
    · exact h.keyed x hx
  sorted x hx := by
    rcases mem_replaceFirst hx with rfl | hx
    · exact hsorted
    · exact h.sorted x hx
  found other := by
    rw [find?_put, h.found, Deed.latest_concat]
    show (if t.sameKey item other then _ else _) = if t.sameKey key other then _ else _
    rw [sameKey_left hkey]
    rfl

theorem remove (h : t.Holds deeds) (key : Item) : (t.remove key).Holds (deeds ++ [⟨key, none⟩]) where
  distinct := distinct_remove h.distinct key
  keyed x hx := h.keyed x (List.mem_of_mem_eraseP hx)
  sorted x hx := h.sorted x (List.mem_of_mem_eraseP hx)
  found other := by
    rw [find?_remove h.distinct, h.found, Deed.latest_concat]
    rfl

theorem mem_iff (h : t.Holds deeds) : item ∈ t.items ↔ Deed.latest t.key deeds item = some item := by
  rw [mem_items_iff h.distinct, h.found]

end Holds
end Table
end ItemStore
