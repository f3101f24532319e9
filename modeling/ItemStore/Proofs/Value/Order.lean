import ItemStore.Value.Comparison
/-!
# The order of values is a total preorder

Any two values, and any two attributes that may be absent, are in order one way or the other, and the order is
transitive (`transCmp_keyOrder`, `transCmp_attributeOrder`): numbers go by sign and magnitude, texts and bytes element
by element, and values of different types by their tags, so that a type is one unbroken stretch of the order.
-/
namespace ItemStore

open Std (TransCmp OrientedCmp TransOrd)

/-! ## Numbers -/

namespace Decimal

attribute [local instance] lexOrd

/-- Zero comes before every other magnitude. -/
def magnitude (a : Decimal) : Option (Int × List Nat) :=
  match a.digits with
  | [] => none
  | d :: ds => some (a.exponent, d :: ds)

theorem compareMagnitude_eq : compareMagnitude = compareOn magnitude := by
  funext a b
  unfold compareMagnitude compareOn magnitude
  cases a.digits <;> cases b.digits <;> rfl

instance transCmp_compareMagnitude : TransCmp compareMagnitude := by
  rw [compareMagnitude_eq]
  infer_instance

theorem compareMagnitude_swap (a b : Decimal) : compareMagnitude a b = (compareMagnitude b a).swap :=
  transCmp_compareMagnitude.eq_swap

/-- Negative numbers come before the others, and among them the greater magnitude comes first. -/
instance transCmp_order : TransCmp order where
  eq_swap {a b} := by
    unfold order
    cases a.negative <;> cases b.negative
    · exact compareMagnitude_swap a b
    · rfl
    · rfl
    · exact compareMagnitude_swap b a
  isLE_trans {a b c} hab hbc := by
    unfold order at hab hbc ⊢
    cases ha : a.negative <;> cases hb : b.negative <;> cases hc : c.negative <;> simp only [ha, hb, hc] at hab hbc ⊢
    case false.false.false => exact transCmp_compareMagnitude.isLE_trans hab hbc
    case true.true.true => exact transCmp_compareMagnitude.isLE_trans hbc hab
    all_goals first | rfl | exact absurd hab (by decide) | exact absurd hbc (by decide)

end Decimal

namespace Numeral

instance transCmp_order : TransCmp order where
  eq_swap := Decimal.transCmp_order.eq_swap
  isLE_trans := Decimal.transCmp_order.isLE_trans

end Numeral

/-! ## Types -/

namespace WireType

theorem mem_all (t : WireType) : t ∈ all := by
  cases t <;> decide

theorem tag_injective {s t : WireType} (h : s.tag = t.tag) : s = t := by
  have hall : ∀ s ∈ all, ∀ t ∈ all, s.tag = t.tag → s = t := by decide
  exact hall s (mem_all s) t (mem_all t) h

end WireType

/-! ## Values -/

namespace Value

theorem order?_swap (a b : Value) : a.order? b = (b.order? a).map Ordering.swap := by
  cases a with
  | string s =>
    cases b with
    | string t => exact congrArg some OrientedCmp.eq_swap
    | _ => rfl
  | number m =>
    cases b with
    | number n => exact congrArg some Numeral.transCmp_order.eq_swap
    | _ => rfl
  | binary s =>
    cases b with
    | binary t => exact congrArg some OrientedCmp.eq_swap
    | _ => rfl
  | _ => cases b <;> rfl

/-- Values of different types go by their tags. -/
theorem keyOrder_of_type_ne {a b : Value} (h : a.wireType ≠ b.wireType) :
    keyOrder a b = compare a.wireType.tag b.wireType.tag := by
  have hnone : a.order? b = none := by
    cases a <;> cases b <;> first | exact absurd rfl h | rfl
  rw [keyOrder, hnone]
  rfl

/-- Within a type, values that cannot be put in order are level. -/
theorem keyOrder_of_type_eq {a b : Value} (h : a.wireType = b.wireType) : keyOrder a b = (a.order? b).getD .eq := by
  have hlevel : compare a.wireType.tag b.wireType.tag = .eq := by
    rw [h]
    exact Std.ReflCmp.compare_self
  rw [keyOrder, hlevel]

theorem keyOrder_trans_within {a b c : Value} (hab : a.wireType = b.wireType) (hbc : b.wireType = c.wireType)
    (h : (keyOrder a b).isLE) (h' : (keyOrder b c).isLE) : (keyOrder a c).isLE := by
  rw [keyOrder_of_type_eq hab] at h
  rw [keyOrder_of_type_eq hbc] at h'
  rw [keyOrder_of_type_eq (hab.trans hbc)]
  cases a with
  | string s =>
    cases b with
    | string t =>
      cases c with
      | string u =>
        simp only [order?, Option.getD_some] at h h' ⊢
        exact TransOrd.isLE_trans h h'
      | _ => cases hbc
    | _ => cases hab
  | number m =>
    cases b with
    | number n =>
      cases c with
      | number k =>
        simp only [order?, Option.getD_some] at h h' ⊢
        exact Numeral.transCmp_order.isLE_trans h h'
      | _ => cases hbc
    | _ => cases hab
  | binary s =>
    cases b with
    | binary t =>
      cases c with
      | binary u =>
        simp only [order?, Option.getD_some] at h h' ⊢
        exact TransOrd.isLE_trans h h'
      | _ => cases hbc
    | _ => cases hab
  | _ => rfl

theorem isLE_tags_of_keyOrder {a b : Value} (h : (keyOrder a b).isLE) :
    (compare a.wireType.tag b.wireType.tag).isLE := by
  by_cases ht : a.wireType = b.wireType
  · rw [ht]
    exact Std.ReflCmp.isLE_rfl
  · rwa [keyOrder_of_type_ne ht] at h

/-- **The order of values is a total preorder.** -/
instance transCmp_keyOrder : TransCmp keyOrder where
  eq_swap {a b} := by
    rw [keyOrder, keyOrder, order?_swap a b]
    cases b.order? a with
    | none =>
      show compare a.wireType.tag b.wireType.tag = (compare b.wireType.tag a.wireType.tag).swap
      exact OrientedCmp.eq_swap
    | some o => rfl
  isLE_trans {a b c} hab hbc := by
    by_cases hac : a.wireType = c.wireType
    · -- the tags have gone up and come back, so they stood still
      have hb : b.wireType = c.wireType := by
        have hle := isLE_tags_of_keyOrder hab
        have hge := isLE_tags_of_keyOrder hbc
        rw [hac] at hle
        exact WireType.tag_injective (Std.LawfulEqCmp.eq_of_compare (OrientedCmp.isLE_antisymm hge hle))
      exact keyOrder_trans_within (hac.trans hb.symm) hb hab hbc
    · have hle := isLE_tags_of_keyOrder hab
      have hle' := isLE_tags_of_keyOrder hbc
      rw [keyOrder_of_type_ne hac]
      exact Std.TransOrd.isLE_trans hle hle'

/-- Absence, too, has its place in the order. -/
instance transCmp_attributeOrder : TransCmp attributeOrder where
  eq_swap {a b} := by
    cases a <;> cases b <;> first | exact transCmp_keyOrder.eq_swap | rfl
  isLE_trans {a b c} hab hbc := by
    cases a with
    | none => cases c <;> rfl
    | some a =>
      cases b with
      | none => cases hab
      | some b =>
        cases c with
        | none => cases hbc
        | some c => exact transCmp_keyOrder.isLE_trans hab hbc

/-! ## Being level -/

/-- Two numerals of one number, written differently. -/
def Respelled (a b : Option Value) : Prop :=
  ∃ m n : Numeral, a = some (.number m) ∧ b = some (.number n) ∧ m ≠ n ∧ m.order n = .eq

/-- The values that keys are made of: texts, numbers and bytes. -/
def IsScalar (v : Value) : Prop := v.wireType = .string ∨ v.wireType = .number ∨ v.wireType = .binary

/-- Texts and bytes are level only if they are the same; numbers are level also if they are written in two ways. -/
theorem attributeOrder_eq_iff {a b : Value} (ha : a.IsScalar) (hb : b.IsScalar) :
    attributeOrder (some a) (some b) = .eq ↔ some a = some b ∨ Respelled (some a) (some b) := by
  show keyOrder a b = .eq ↔ _
  by_cases htype : a.wireType = b.wireType
  · rw [keyOrder_of_type_eq htype]
    cases a with
    | string s =>
      cases b with
      | string t => simp [order?, Respelled, Std.LawfulEqCmp.compare_eq_iff_eq]
      | _ => cases htype
    | number m =>
      cases b with
      | number n =>
        by_cases hmn : m = n
        · simp [order?, hmn, Std.ReflCmp.compare_self]
        · simp [order?, Respelled, hmn]
      | _ => cases htype
    | binary s =>
      cases b with
      | binary t => simp [order?, Respelled, Std.LawfulEqCmp.compare_eq_iff_eq]
      | _ => cases htype
    | _ => simp [IsScalar, wireType] at ha
  · rw [keyOrder_of_type_ne htype]
    constructor
    · intro h
      exact absurd (WireType.tag_injective (Std.LawfulEqCmp.eq_of_compare h)) htype
    · rintro (h | ⟨m, n, hm, hn, -⟩)
      · exact absurd (congrArg wireType (Option.some.inj h)) htype
      · cases hm
        cases hn
        exact absurd rfl htype

end Value
end ItemStore
