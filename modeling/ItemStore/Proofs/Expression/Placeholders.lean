import ItemStore.Expression.Bindings
import Mathlib.Data.List.Forall2
import ItemStore.Proofs.Expression.Scanning
/-!
# Placeholders and what they come to stand for

A writer only ever adds to its two lists (`Extends`), so a placeholder keeps the meaning it was handed out with: in the
bindings of every later state it stands for the same name or value (`nameAs_name`, `valueAs_value`).  As a text it is
one word, which the scanner takes for the placeholder itself.
-/
namespace ItemStore
namespace Writer

/-! ## Texts of placeholders -/

theorem toList_namePlaceholder (i : Nat) : (namePlaceholder i).toList = '#' :: 'n' :: Nat.toDigits 10 i := by
  simp only [namePlaceholder, toString, String.toList_append, Nat.toList_repr]
  rfl

theorem toList_valuePlaceholder (i : Nat) : (valuePlaceholder i).toList = ':' :: 'v' :: Nat.toDigits 10 i := by
  simp only [valuePlaceholder, toString, String.toList_append, Nat.toList_repr]
  rfl

theorem toDigits_injective {i j : Nat} (h : Nat.toDigits 10 i = Nat.toDigits 10 j) : i = j := by
  rw [← Nat.ofDigitChars_ten_toDigits (n := i), h, Nat.ofDigitChars_ten_toDigits]

theorem namePlaceholder_injective {i j : Nat} (h : namePlaceholder i = namePlaceholder j) : i = j := by
  have := congrArg String.toList h
  rw [toList_namePlaceholder, toList_namePlaceholder] at this
  exact toDigits_injective (List.cons.inj (List.cons.inj this).2).2

theorem valuePlaceholder_injective {i j : Nat} (h : valuePlaceholder i = valuePlaceholder j) : i = j := by
  have := congrArg String.toList h
  rw [toList_valuePlaceholder, toList_valuePlaceholder] at this
  exact toDigits_injective (List.cons.inj (List.cons.inj this).2).2

theorem isNameChar_of_isDigit {c : Char} (h : c.isDigit = true) : Token.isNameChar c = true := by
  have hlt : c.toNat < 128 := by
    simp only [Char.isDigit, Bool.and_eq_true, decide_eq_true_eq, UInt32.le_iff_toNat_le] at h
    have h9 : '9'.val.toNat = 57 := rfl
    have hc : c.val.toNat = c.toNat := rfl
    omega
  rw [Token.isNameChar, Text.isAlphanumeric, if_pos hlt, Char.isAlphanum, h, Bool.or_true, Bool.true_or]

theorem isNameChar_numbered {c : Char} (hc : Token.isNameChar c = true) (i : Nat) :
    ∀ d ∈ c :: Nat.toDigits 10 i, Token.isNameChar d = true := by
  intro d hd
  cases hd with
  | head => exact hc
  | tail _ hd => exact isNameChar_of_isDigit (isDigit_toDigits i d hd)

theorem scans_namePlaceholder (i : Nat) : Token.Scans (namePlaceholder i).toList [.name (namePlaceholder i)] := by
  have h := Token.scans_namePlaceholder (isNameChar_numbered (by decide) i : ∀ d ∈ 'n' :: _, _)
  rwa [← toList_namePlaceholder, String.ofList_toList] at h

theorem scans_valuePlaceholder (i : Nat) : Token.Scans (valuePlaceholder i).toList [.value (valuePlaceholder i)] := by
  have h := Token.scans_valuePlaceholder (isNameChar_numbered (by decide) i : ∀ d ∈ 'v' :: _, _)
  rwa [← toList_valuePlaceholder, String.ofList_toList] at h

/-! ## Looking placeholders up -/

theorem get?_zipIdx {α : Type} (mk : Nat → String) (hmk : ∀ {i j}, mk i = mk j → i = j) :
    ∀ (xs : List α) (k j : Nat),
    Entries.get? ((xs.zipIdx k).map fun x => (mk x.2, x.1)) (mk (k + j)) = xs[j]?
  | [], _, _ => rfl
  | x :: xs, k, 0 => by
    rw [List.zipIdx_cons, List.map_cons, Entries.get?, Nat.add_zero, if_pos rfl]
    rfl
  | x :: xs, k, j + 1 => by
    have hne : mk (k + (j + 1)) ≠ mk k := fun h => by have := hmk h; omega
    rw [List.zipIdx_cons, List.map_cons, Entries.get?, if_neg hne, show k + (j + 1) = k + 1 + j by omega,
      get?_zipIdx mk hmk xs (k + 1) j]
    rfl

theorem get?_boundNames (w : Writer) (i : Nat) : w.boundNames.get? (namePlaceholder i) = w.names[i]? := by
  have := get?_zipIdx namePlaceholder namePlaceholder_injective w.names 0 i
  rwa [Nat.zero_add] at this

theorem get?_boundValues (w : Writer) (i : Nat) : w.boundValues.get? (valuePlaceholder i) = w.values[i]? := by
  have := get?_zipIdx valuePlaceholder valuePlaceholder_injective w.values 0 i
  rwa [Nat.zero_add] at this

theorem bindings_name (w : Writer) {i : Nat} {a : String} (h : w.names[i]? = some a) :
    w.bindings.name (namePlaceholder i) = .ok a := by
  have hhead : (namePlaceholder i).toList.head? = some '#' := by rw [toList_namePlaceholder]; rfl
  have hget : w.bindings.names.get? (namePlaceholder i) = some a := (get?_boundNames w i).trans h
  rw [Bindings.name, if_pos hhead, hget]

theorem bindings_value (w : Writer) {i : Nat} {v : Value} (h : w.values[i]? = some v) :
    w.bindings.value (valuePlaceholder i) = .ok v := by
  have hget : w.bindings.values.get? (valuePlaceholder i) = some v := (get?_boundValues w i).trans h
  rw [Bindings.value, hget]

/-! ## A writer only adds -/

/-- The second state has all that the first has handed out, under the same placeholders. -/
structure Extends (w w' : Writer) : Prop where
  names : w.names <+: w'.names
  values : w.values <+: w'.values

namespace Extends

theorem refl (w : Writer) : Extends w w := ⟨List.prefix_rfl, List.prefix_rfl⟩

theorem trans {w w' w'' : Writer} (h : Extends w w') (h' : Extends w' w'') : Extends w w'' :=
  ⟨h.names.trans h'.names, h.values.trans h'.values⟩

end Extends

theorem getElem?_mono {α : Type} {xs ys : List α} (h : xs <+: ys) {i : Nat} {a : α} (ha : xs[i]? = some a) :
    ys[i]? = some a := by
  obtain ⟨zs, rfl⟩ := h
  obtain ⟨hi, _⟩ := List.getElem?_eq_some_iff.1 ha
  rw [List.getElem?_append_left hi, ha]

/-- What `name` answers is a placeholder, whose place in the list of names then holds the name. -/
theorem name_spec (w : Writer) (a : String) :
    ∃ i, (w.name a).1 = namePlaceholder i ∧ (w.name a).2.names[i]? = some a := by
  unfold name
  split
  · next i h =>
    obtain ⟨hi, ha, _⟩ := List.idxOf?_eq_some_iff.1 h
    exact ⟨i, rfl, by rw [List.getElem?_eq_getElem hi, ha]⟩
  · exact ⟨w.names.length, rfl, by rw [List.getElem?_concat_length]⟩

theorem extends_name (w : Writer) (a : String) : Extends w (w.name a).2 := by
  unfold name
  split
  · exact Extends.refl w
  · exact ⟨List.prefix_append _ _, List.prefix_rfl⟩

theorem extends_value (w : Writer) (v : Value) : Extends w (w.value v).2 :=
  ⟨List.prefix_rfl, List.prefix_append _ _⟩

/-- `n` is the placeholder of a name, in this state and every later one. -/
structure NameAs (w : Writer) (n a : String) : Prop where
  scans : Token.Scans n.toList [.name n]
  bound : ∀ {w'}, Extends w w' → w'.bindings.name n = .ok a

/-- `p` is the placeholder of a value, in this state and every later one. -/
structure ValueAs (w : Writer) (p : String) (v : Value) : Prop where
  scans : Token.Scans p.toList [.value p]
  bound : ∀ {w'}, Extends w w' → w'.bindings.value p = .ok v

theorem NameAs.later {w w' : Writer} {n a : String} (h : NameAs w n a) (he : Extends w w') : NameAs w' n a :=
  ⟨h.scans, fun he' => h.bound (he.trans he')⟩

theorem ValueAs.later {w w' : Writer} {p : String} {v : Value} (h : ValueAs w p v) (he : Extends w w') :
    ValueAs w' p v := ⟨h.scans, fun he' => h.bound (he.trans he')⟩

/-- **What `name` answers is the placeholder of the name.** -/
theorem nameAs_name (w : Writer) (a : String) : NameAs (w.name a).2 (w.name a).1 a := by
  obtain ⟨i, hi, ha⟩ := name_spec w a
  rw [hi]
  exact ⟨scans_namePlaceholder i, fun he => bindings_name _ (getElem?_mono he.names ha)⟩

/-- **What `value` answers is the placeholder of the value.** -/
theorem valueAs_value (w : Writer) (v : Value) : ValueAs (w.value v).2 (w.value v).1 v :=
  ⟨scans_valuePlaceholder w.values.length,
    fun he => bindings_value _ (getElem?_mono he.values List.getElem?_concat_length)⟩

theorem nameAs_nameValue (w : Writer) (a : String) (v : Value) :
    NameAs (w.nameValue a v).2.2 (w.nameValue a v).1 a := (nameAs_name w a).later (extends_value _ v)

theorem valueAs_nameValue (w : Writer) (a : String) (v : Value) :
    ValueAs (w.nameValue a v).2.2 (w.nameValue a v).2.1 v := valueAs_value (w.name a).2 v

theorem extends_nameValue (w : Writer) (a : String) (v : Value) : Extends w (w.nameValue a v).2.2 :=
  (extends_name w a).trans (extends_value _ v)

theorem extends_valueList (w : Writer) : ∀ vs, Extends w (w.valueList vs).2
  | [] => Extends.refl w
  | v :: vs => (extends_value w v).trans (extends_valueList (w.value v).2 vs)

theorem valuesAs_valueList (w : Writer) : ∀ vs, List.Forall₂ (ValueAs (w.valueList vs).2) (w.valueList vs).1 vs
  | [] => .nil
  | v :: vs => .cons ((valueAs_value w v).later (extends_valueList _ vs)) (valuesAs_valueList (w.value v).2 vs)

theorem extends_condition (w : Writer) (c : Condition) : Extends w (w.condition c).2 := by
  induction c generalizing w with
  | compare a op v => exact extends_nameValue w a v
  | between a low high => exact (extends_nameValue w a low).trans (extends_value _ high)
  | isIn a vs => exact (extends_name w a).trans (extends_valueList _ vs)
  | beginsWith a v => exact extends_nameValue w a v
  | contains a v => exact extends_nameValue w a v
  | present a => exact extends_name w a
  | absent a => exact extends_name w a
  | hasType a t => exact extends_nameValue w a _
  | and left right ihl ihr => exact (ihl w).trans (ihr _)
  | or left right ihl ihr => exact (ihl w).trans (ihr _)
  | not inner ih => exact ih w

theorem extends_conditionList (w : Writer) : ∀ cs, Extends w (w.conditionList cs).2
  | [] => Extends.refl w
  | c :: cs => (extends_condition w c).trans (extends_conditionList (w.condition c).2 cs)

theorem extends_conjunction (w : Writer) : ∀ cs, Extends w (w.conjunction cs).2
  | [] => Extends.refl w
  | [c] => extends_condition w c
  | c :: d :: cs => extends_conditionList w (c :: d :: cs)

theorem extends_action (w : Writer) (u : UpdateAction) : Extends w (w.action u).2.2 := by
  cases u with
  | remove a => exact extends_name w a
  | _ => exact extends_nameValue w _ _

theorem extends_actionList (w : Writer) : ∀ us, Extends w (w.actionList us).2
  | [] => Extends.refl w
  | u :: us => (extends_action w u).trans (extends_actionList (w.action u).2.2 us)

theorem extends_nameList (w : Writer) : ∀ names, Extends w (w.nameList names).2
  | [] => Extends.refl w
  | a :: as => (extends_name w a).trans (extends_nameList (w.name a).2 as)

/-! ## Runs of calls -/

/-- One call on a writer. -/
inductive Call where
  | name (a : String)
  | value (v : Value)
  | condition (c : Condition)
  | conjunction (cs : List Condition)
  | update (us : List UpdateAction)
  | projection (names : List String)

/-- The state that a call leaves. -/
def call (w : Writer) : Call → Writer
  | .name a => (w.name a).2
  | .value v => (w.value v).2
  | .condition c => (w.condition c).2
  | .conjunction cs => (w.conjunction cs).2
  | .update us => (w.update us).2
  | .projection names => (w.projection names).2

/-- The state that calls leave, one after the other. -/
def run (w : Writer) (calls : List Call) : Writer := calls.foldl call w

theorem extends_call (w : Writer) (c : Call) : Extends w (w.call c) := by
  cases c with
  | name a => exact extends_name w a
  | value v => exact extends_value w v
  | condition c => exact extends_condition w c
  | conjunction cs => exact extends_conjunction w cs
  | update us => exact extends_actionList w us
  | projection names => exact extends_nameList w names

theorem extends_run : ∀ (calls : List Call) (w : Writer), Extends w (w.run calls)
  | [], w => Extends.refl w
  | c :: calls, w => (extends_call w c).trans (extends_run calls (w.call c))

end Writer
end ItemStore
