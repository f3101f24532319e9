import ItemStore.Proofs.Store.Views
import ItemStore.Proofs.Value.Equality
/-!
# Sorting by attributes

Attributes that may be absent are in a total preorder, absence first, then the types by their tags, then the values
within their type; so are items, by the attributes of any names.  Therefore a view can be sorted in one way only, and
for items of different keys it does not matter where they stood before.  Among texts, numbers and bytes the order agrees
with what formulas find (`order_of_attributes_is_a_total_preorder`).
-/
namespace ItemStore

open Std (TransCmp)

/-! ## Scalars -/

namespace Value
variable {l r : Value}

/-- Two scalars of one type have an order of their own, and that is the order of attributes. -/
theorem IsScalar.order?_eq_some (hl : l.IsScalar) (h : l.wireType = r.wireType) :
    l.order? r = some (attributeOrder (some l) (some r)) := by
  have hlevel : attributeOrder (some l) (some r) = (l.order? r).getD .eq := keyOrder_of_type_eq h
  cases l with
  | string s =>
    cases r with
    | string t => rw [hlevel]; rfl
    | _ => cases h
  | number m =>
    cases r with
    | number n => rw [hlevel]; rfl
    | _ => cases h
  | binary s =>
    cases r with
    | binary t => rw [hlevel]; rfl
    | _ => cases h
  | _ => simp [IsScalar, wireType] at hl

theorem IsScalar.of_wireType (hl : l.IsScalar) (h : l.wireType = r.wireType) : r.IsScalar := by
  rwa [IsScalar, ← h]

/-- Scalars are level if they are equal. -/
theorem IsScalar.level_iff_equal (hl : l.IsScalar) (hr : r.IsScalar) :
    attributeOrder (some l) (some r) = .eq ↔ l.equal r = true := by
  -- Both sides hold of what is the same, and else only of numbers that are written in two ways.
  rw [attributeOrder_eq_iff hl hr, equal_iff_alike, Option.some.injEq]
  constructor
  · rintro (rfl | ⟨m, n, hm, hn, -, hlevel⟩)
    · exact .same l
    · cases hm
      cases hn
      exact .number ((sameNumber_iff m n).1 (beq_iff_eq.2 hlevel))
  · intro h
    cases h with
    | same => exact .inl rfl
    | @number m n hvalue =>
      by_cases hmn : m = n
      · exact .inl (congrArg number hmn)
      · exact .inr ⟨m, n, rfl, rfl, hmn, beq_iff_eq.1 ((sameNumber_iff m n).2 hvalue)⟩
    | _ => simp [IsScalar, wireType] at hl

end Value

/-! ## Comparisons of scalars -/

/-- Every comparator finds of two scalars of one type what their order says. -/
theorem Comparator.holds_of_scalars (op : Comparator) {l r : Value} (hl : l.IsScalar) (h : l.wireType = r.wireType) :
    op.holds (some l) (some r) = op.admits (Value.attributeOrder (some l) (some r)) := by
  have hequal : l.equal r = (Value.attributeOrder (some l) (some r) == .eq) := by
    rw [Bool.eq_iff_iff, beq_iff_eq, hl.level_iff_equal (hl.of_wireType h)]
  have horder := hl.order?_eq_some h
  cases op with
  | eq => exact hequal
  | ne => exact congrArg (!·) hequal
  | _ => exact congrArg (Option.any _) horder

/-- Of any order exactly one of the three comparators is true. -/
theorem Comparator.existsUnique_admits (o : Ordering) : ∃! op, op ∈ [lt, eq, gt] ∧ op.admits o = true := by
  have hone : ∃ op ∈ [lt, eq, gt], op.admits o = true := by cases o <;> decide
  have hunique : ∀ op ∈ [lt, eq, gt], ∀ op' ∈ [lt, eq, gt], op.admits o = true → op'.admits o = true →
      op' = op := by
    cases o <;> decide
  obtain ⟨op, hop, hadmits⟩ := hone
  exact ⟨op, ⟨hop, hadmits⟩, fun op' h => hunique op hop op' h.1 hadmits h.2⟩

namespace Formula
variable {b : Bindings} {item : Item} {x y : Formula} {l r : Value}

theorem holds_compare_of_scalars (hx : x.resolve b item = .ok (some l)) (hy : y.resolve b item = .ok (some r))
    (hl : l.IsScalar) (h : l.wireType = r.wireType) (op : Comparator) :
    (compare op x y).holds b item = .ok (op.admits (Value.attributeOrder (some l) (some r))) :=
  holds_compare_eq_ok.2 ⟨some l, some r, hx, hy, op.holds_of_scalars hl h⟩

/-- Two scalars of one type are less, equal or greater. -/
theorem existsUnique_compare (hx : x.resolve b item = .ok (some l)) (hy : y.resolve b item = .ok (some r))
    (hl : l.IsScalar) (h : l.wireType = r.wireType) :
    ∃! op, op ∈ [Comparator.lt, .eq, .gt] ∧ (compare op x y).holds b item = .ok true := by
  simpa only [holds_compare_of_scalars hx hy hl h, Except.ok.injEq] using Comparator.existsUnique_admits _

end Formula

/-! ## Views -/

namespace Table

/-- **Where items of different keys stood before does not matter to a view.** -/
theorem inOrder_eq_of_perm (t : Table) (key : KeySchema) {items items' : List Item}
    (h : items.Pairwise fun a b => t.sameKey a b = false) (hperm : items.Perm items') :
    t.inOrder key items = t.inOrder key items' := by
  have h' : items'.Pairwise fun a b => t.sameKey a b = false := by
    refine (hperm.pairwise_iff fun hab => ?_).1 h
    rwa [sameKey_comm]
  have hviews : (t.inOrder key items).Perm (t.inOrder key items') :=
    (t.inOrder_perm key items).trans (hperm.trans (t.inOrder_perm key items').symm)
  exact eq_of_perm_of_before hviews (pairwise_inOrder t key h) (pairwise_inOrder t key h')

end Table

/-- **The order of attributes that may be absent is a total preorder, and so is the order of items by any names.**  Each
is total, transitive and, where it finds two level, symmetric, whatever their types.  So a view is the one list of its
items that is in order and leaves what is level as it stood, and for items of different keys it does not depend on how
they stood.  Texts, numbers and bytes are level if they are equal; of two of one type formulas find what the order says,
and exactly one of less, equal and greater. -/
theorem order_of_attributes_is_a_total_preorder :
    TransCmp Value.attributeOrder ∧
    (∀ names : List String, TransCmp (itemOrder names)) ∧
    (∀ (t : Table) (key : KeySchema) (items view : List Item), view = t.inOrder key items ↔
      view.Pairwise (fun a b => (itemOrder (t.viewNames key) a b).isLE) ∧
        ∀ a, levelWith (itemOrder (t.viewNames key)) a view = levelWith (itemOrder (t.viewNames key)) a items) ∧
    (∀ (t : Table) (key : KeySchema) (items items' : List Item), items.Pairwise (fun a b => t.sameKey a b = false) →
      items.Perm items' → t.inOrder key items = t.inOrder key items') ∧
    (∀ l r : Value, l.IsScalar → r.IsScalar → (Value.attributeOrder (some l) (some r) = .eq ↔ l.equal r = true)) ∧
    (∀ (b : Bindings) (item : Item) (x y : Formula) (l r : Value), x.resolve b item = .ok (some l) →
      y.resolve b item = .ok (some r) → l.IsScalar → l.wireType = r.wireType →
      (∀ op, (Formula.compare op x y).holds b item = .ok (op.admits (Value.attributeOrder (some l) (some r)))) ∧
        ∃! op, op ∈ [Comparator.lt, .eq, .gt] ∧ (Formula.compare op x y).holds b item = .ok true) :=
  ⟨inferInstance, fun _ => inferInstance, fun _ _ _ _ => eq_mergeSort_iff,
    fun t key _ _ => t.inOrder_eq_of_perm key, fun _ _ => Value.IsScalar.level_iff_equal,
    fun _ _ _ _ _ _ hx hy hl h =>
      ⟨Formula.holds_compare_of_scalars hx hy hl h, Formula.existsUnique_compare hx hy hl h⟩⟩

/-- Two orders with the numbers `9` and `10.0`, in a table and in a formula. -/
theorem order_of_attributes_is_a_total_preorder_of_two_numbers :
    let l : Value := .number ⟨"9", by decide⟩
    let r : Value := .number ⟨"10.0", by decide⟩
    let t : Table := { key := { partition := "n", sort := none } }
    t.sameKey [("n", l)] [("n", r)] = false ∧
      t.inOrder t.key [[("n", l)], [("n", r)]] = t.inOrder t.key [[("n", r)], [("n", l)]] ∧
      (Value.attributeOrder (some l) (some r) = .eq ↔ l.equal r = true) ∧
      (Formula.compare .lt (.path "n") (.value ":v")).holds ⟨[], [(":v", r)]⟩ [("n", l)] = .ok true ∧
      ∃! op, op ∈ [Comparator.lt, .eq, .gt] ∧
        (Formula.compare op (.path "n") (.value ":v")).holds ⟨[], [(":v", r)]⟩ [("n", l)] = .ok true := by
  intro l r t
  have hscalar : ∀ x, (Value.number x).IsScalar := fun _ => .inr (.inl rfl)
  have hapart : t.sameKey [("n", l)] [("n", r)] = false := by decide
  obtain ⟨-, -, -, hperm, hlevel, hcompare⟩ := order_of_attributes_is_a_total_preorder
  obtain ⟨hall, hunique⟩ :=
    hcompare ⟨[], [(":v", r)]⟩ [("n", l)] (.path "n") (.value ":v") l r rfl rfl (hscalar _) rfl
  refine ⟨hapart, hperm t t.key _ _ ?_ (.swap _ _ _), hlevel l r (hscalar _) (hscalar _), hall .lt, hunique⟩
  exact List.pairwise_pair.2 hapart

end ItemStore
