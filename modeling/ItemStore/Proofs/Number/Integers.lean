import ItemStore.Proofs.Number.Values
import ItemStore.Proofs.Record.RoundTrip
/-!
# Integers as numerals

An integer type reads from a numeral the integer that its text writes without a point or a power of ten, if the type has
it (`Numeral.toInteger_eq_ok_iff`).  The same comes out if the digits are taken one by one and no step may leave the
type (`IntType.readWithin?_eq_read?`).  So the values of a type are read back from their numerals, numerals of integers
are in the order of the integers whatever their types, and what is read from a numeral is the number that it denotes
(`integers_pass_exactly_through_numerals`).
-/
namespace ItemStore

open Outcome (bind_eq_ok mapM_cons_eq_ok)

/-! ## Texts of integers -/

/-- The text of an integer denotes it. -/
theorem IntegerText.value_eq {n : Int} {cs : List Char} {p : Parts} (h : IntegerText n cs) (hp : DecimalText cs p) :
    p.value = n := by
  obtain @⟨negative, sign, digits, hsign, hne, hdigits⟩ := h
  have htext : DecimalText (sign ++ digits ++ []) ⟨negative, digits, [], 0⟩ :=
    .mk hsign hdigits nofun (.without hne) .none
  rw [List.append_nil] at htext
  rw [hp.unique htext, Parts.value_eq]
  cases negative <;> simp [Parts.digits]

namespace IntType
variable {t : IntType} {cs : List Char} {n : Int}

theorem read?_eq_some_iff : t.read? cs = some n ↔
    IntegerText n cs ∧ t.Contains n ∧ (t.allowsMinus = false → cs.head? ≠ some '-') := by
  have hsign : (t.allowsMinus = false → cs.head? ≠ some '-') ↔ ¬(cs.head? = some '-' ∧ t.allowsMinus = false) := by
    rw [not_and']
  rw [read?, Option.ite_none_left_eq_some, Option.filter_eq_some_iff, Parts.readInt?_eq_some_iff,
    decide_eq_true_eq, hsign]
  exact and_comm.trans and_assoc

/-! ## Reading within the type

Reading in the arithmetic of a type takes the digits one by one, away from zero, and gives up where a step leaves the
type.  Nothing is lost by that: between zero and a number of the type all numbers are of the type. -/

/-- The number of some digits behind a sign. -/
def withSign (negative : Bool) (m : Nat) : Int := if negative then -m else m

/-- The number, if the type has it. -/
def fit? (t : IntType) (n : Int) : Option Int := if t.Contains n then some n else none

/-- One more digit behind a number. -/
def pushDigit? (t : IntType) (negative : Bool) (n : Int) (c : Char) : Option Int := do
  let shifted ← t.fit? (10 * n)
  t.fit? (shifted + withSign negative (Parts.digitValue c))

def readWithin? (t : IntType) (cs : List Char) : Option Int :=
  if cs.head? = some '-' ∧ t.allowsMinus = false then none
  else
    let (negative, digits) := Parts.takeSign cs
    if digits ≠ [] ∧ digits.all Char.isDigit then digits.foldlM (t.pushDigit? negative) 0 else none

section Within
variable {negative : Bool} {k m : Nat}

/-- What is nearer to zero than a number of the type is of the type. -/
theorem Contains.of_le (h : t.Contains (withSign negative m)) (hk : k ≤ m) : t.Contains (withSign negative k) := by
  obtain ⟨hleast, hgreatest⟩ := t.contains_zero
  obtain ⟨hlow, hhigh⟩ := h
  cases negative with
  | false =>
    simp only [withSign, Bool.false_eq_true, if_false] at hlow hhigh ⊢
    exact ⟨by omega, by omega⟩
  | true =>
    simp only [withSign, if_true] at hlow hhigh ⊢
    exact ⟨by omega, by omega⟩

theorem fit?_of_contains (h : t.Contains n) : t.fit? n = some n := if_pos h

theorem fit?_of_not_contains (h : ¬t.Contains n) : t.fit? n = none := if_neg h

theorem pushDigit?_eq (c : Char) : t.pushDigit? negative (withSign negative m) c =
    t.fit? (withSign negative (10 * m + Parts.digitValue c)) := by
  have hshift : 10 * withSign negative m = withSign negative (10 * m) := by
    cases negative <;> simp [withSign]
  have hpush : withSign negative (10 * m) + withSign negative (Parts.digitValue c) =
      withSign negative (10 * m + Parts.digitValue c) := by
    cases negative <;> simp [withSign]; omega
  rw [pushDigit?, hshift]
  by_cases h : t.Contains (withSign negative (10 * m))
  · rw [fit?_of_contains h, Option.bind_eq_bind, Option.bind_some, hpush]
  · rw [fit?_of_not_contains h, fit?_of_not_contains fun hall => h (hall.of_le (Nat.le_add_right _ _))]
    rfl

/-- **Digits that stay within the type come to their number.** -/
theorem foldlM_pushDigit? : ∀ (digits : List Char) {m : Nat}, t.Contains (withSign negative m) →
    digits.foldlM (t.pushDigit? negative) (withSign negative m) =
      t.fit? (withSign negative ((digits.map Parts.digitValue).foldl (fun n d => 10 * n + d) m))
  | [], _, h => (fit?_of_contains h).symm
  | c :: digits, m, h => by
    rw [List.foldlM_cons, pushDigit?_eq, List.map_cons, List.foldl_cons]
    by_cases hc : t.Contains (withSign negative (10 * m + Parts.digitValue c))
    · rw [fit?_of_contains hc]
      exact foldlM_pushDigit? digits hc
    · -- What follows leads further away from zero, so a step out of the type is never made good.
      have hgrows : 10 * m + Parts.digitValue c ≤
          (digits.map Parts.digitValue).foldl (fun n d => 10 * n + d) (10 * m + Parts.digitValue c) := by
        rw [Parts.foldl_digits]
        exact Nat.le_add_right_of_le (Nat.le_mul_of_pos_right _ (Nat.pow_pos (by decide)))
      rw [fit?_of_not_contains hc, fit?_of_not_contains fun hall => hc (hall.of_le hgrows)]
      rfl

theorem readWithin?_eq_read? (t : IntType) (cs : List Char) : t.readWithin? cs = t.read? cs := by
  rw [readWithin?, read?]
  split
  · rfl
  · generalize hsign : Parts.takeSign cs = signed
    obtain ⟨negative, digits⟩ := signed
    rw [Parts.readInt?_of_takeSign hsign, Parts.readNat?]
    dsimp only
    split
    · have hzero : withSign negative 0 = 0 := by cases negative <;> rfl
      have hfold := foldlM_pushDigit? digits (hzero ▸ t.contains_zero : t.Contains (withSign negative 0))
      rw [hzero] at hfold
      rw [hfold, Option.map_some, Option.filter_some]
      exact if_congr decide_eq_true_iff.symm rfl rfl
    · rfl

end Within

end IntType

/-! ## Numerals -/

namespace Numeral
variable {t : IntType} {x : Numeral} {n : Int}

theorem toInteger_eq_ok_iff : x.toInteger t = .ok n ↔
    IntegerText n x.text.toList ∧ t.Contains n ∧ (t.allowsMinus = false → x.text.toList.head? ≠ some '-') := by
  rw [toInteger, ← IntType.read?_eq_some_iff]
  cases t.read? x.text.toList <;> simp

/-- **What is read from a numeral is its number, and a number of the type.** -/
theorem value_of_toInteger (h : x.toInteger t = .ok n) : x.value = n ∧ t.Contains n := by
  obtain ⟨htext, hcontains, -⟩ := toInteger_eq_ok_iff.1 h
  exact ⟨htext.value_eq x.decimalText, hcontains⟩

/-- There is one reason for not reading. -/
theorem toInteger_eq_error (h : ∀ n, x.toInteger t ≠ .ok n) :
    x.toInteger t = .error (.malformedNumber s!"'{x.text}' does not fit the target type") := by
  unfold toInteger at h ⊢
  cases hread : t.read? x.text.toList with
  | none => rfl
  | some n => exact absurd (by rw [hread]) (h n)

/-- **Numerals of integers are in the order of the integers.** -/
theorem order_ofInt (m n : Int) : (ofInt m).order (ofInt n) = compare m n := by
  rw [order_eq_compare, value_ofInt, value_ofInt, ← cmp_eq_compare, ← cmp_eq_compare, Int.cast_strictMono.cmp_map_eq]

end Numeral

/-! ## Fields and sets -/

theorem BoundedInt.read_eq_ok_iff {t : IntType} {x : Numeral} {n : BoundedInt t} :
    read t x = .ok n ↔ x.toInteger t = .ok n.val := by
  rw [read, bind_eq_ok]
  constructor
  · rintro ⟨m, hm, h⟩
    rw [dif_pos (Numeral.value_of_toInteger hm).2] at h
    cases h
    exact hm
  · intro h
    exact ⟨n.val, h, dif_pos n.inRange⟩

theorem FieldType.decode_integer_eq_ok_iff {t : IntType} {v : Value} {n : BoundedInt t} :
    FieldType.decode (.integer t) v = .ok n ↔ ∃ x, v = .number x ∧ x.toInteger t = .ok n.val := by
  cases v with
  | number x =>
    refine BoundedInt.read_eq_ok_iff.trans ⟨fun h => ⟨x, rfl, h⟩, ?_⟩
    rintro ⟨_, ⟨⟩, h⟩
    exact h
  | _ => exact ⟨nofun, by rintro ⟨_, ⟨⟩, _⟩⟩

/-- Steps that go through do so one by one. -/
theorem Outcome.mapM_eq_ok_iff {ε α β : Type} {f : α → Except ε β} : ∀ {xs : List α} {ys : List β},
    xs.mapM f = .ok ys ↔ List.Forall₂ (fun x y => f x = .ok y) xs ys
  | [], ys => by
    constructor
    · rintro ⟨⟩
      exact .nil
    · rintro ⟨⟩
      rfl
  | x :: xs, ys => by
    rw [mapM_cons_eq_ok]
    constructor
    · rintro ⟨y, rest, hy, hrest, rfl⟩
      exact .cons hy (mapM_eq_ok_iff.1 hrest)
    · rintro ⟨⟩
      next y rest hy hrest => exact ⟨y, rest, hy, mapM_eq_ok_iff.2 hrest, rfl⟩

theorem SetElement.decodeSet_integer_eq_ok_iff {t : IntType} {v : Value} {ns : List (BoundedInt t)} :
    SetElement.decodeSet (.integer t) v = .ok ns ↔
      ∃ xs, v = .numberSet xs ∧ xs ≠ [] ∧ List.Forall₂ (fun x n => x.toInteger t = .ok n.val) xs ns := by
  cases v with
  | numberSet xs =>
    have hsame : xs.mapM (BoundedInt.read t) = .ok ns ↔ List.Forall₂ (fun x n => x.toInteger t = .ok n.val) xs ns := by
      simp only [Outcome.mapM_eq_ok_iff, BoundedInt.read_eq_ok_iff]
    constructor
    · intro h
      obtain ⟨ys, hys, hread⟩ := bind_eq_ok.1 h
      obtain ⟨hne, rfl⟩ := nonEmpty_eq_ok_iff.1 hys
      exact ⟨xs, rfl, hne, hsame.1 hread⟩
    · rintro ⟨_, ⟨⟩, hne, hread⟩
      exact bind_eq_ok.2 ⟨xs, nonEmpty_eq_ok_iff.2 ⟨hne, rfl⟩, hsame.2 hread⟩
  | _ => exact ⟨nofun, by rintro ⟨_, ⟨⟩, _⟩⟩

/-- **Integers pass exactly through numerals.**  Every value of an integer type is read back from its numeral, and two
such numerals, of whatever types, are in the order of the integers.  What a type reads from a numeral is the number that
it denotes, and a number of the type; of a numeral whose number is none of the type nothing is read.  The numerals that
are read are those of plain notation, with a minus only for the signed types; reading them digit by digit, no step of
which may leave the type, finds the same.  Fields and sets of integers are read so. -/
theorem integers_pass_exactly_through_numerals :
    (∀ (t : IntType) (n : BoundedInt t), (Numeral.ofInt n.val).toInteger t = .ok n.val) ∧
    (∀ (s t : IntType) (m : BoundedInt s) (n : BoundedInt t),
      (Numeral.ofInt m.val).order (Numeral.ofInt n.val) = compare m.val n.val) ∧
    (∀ (t : IntType) (x : Numeral) (n : Int), x.toInteger t = .ok n → x.value = n ∧ t.Contains n) ∧
    (∀ (t : IntType) (x : Numeral), (∀ n : Int, t.Contains n → x.value ≠ n) →
      x.toInteger t = .error (.malformedNumber s!"'{x.text}' does not fit the target type")) ∧
    (∀ (t : IntType) (x : Numeral) (n : Int), x.toInteger t = .ok n ↔
      IntegerText n x.text.toList ∧ t.Contains n ∧ (t.allowsMinus = false → x.text.toList.head? ≠ some '-')) ∧
    (∀ (t : IntType) (cs : List Char), t.readWithin? cs = t.read? cs) ∧
    (∀ (t : IntType) (v : Value) (n : BoundedInt t), FieldType.decode (.integer t) v = .ok n ↔
      ∃ x, v = .number x ∧ x.toInteger t = .ok n.val) ∧
    (∀ (t : IntType) (v : Value) (ns : List (BoundedInt t)), SetElement.decodeSet (.integer t) v = .ok ns ↔
      ∃ xs, v = .numberSet xs ∧ xs ≠ [] ∧ List.Forall₂ (fun x n => x.toInteger t = .ok n.val) xs ns) := by
  refine ⟨fun _ n => Numeral.toInteger_ofInt n.inRange, fun _ _ _ _ => Numeral.order_ofInt _ _,
    fun _ _ _ => Numeral.value_of_toInteger, fun t x hno => Numeral.toInteger_eq_error fun n hn => ?_,
    fun _ _ _ => Numeral.toInteger_eq_ok_iff, IntType.readWithin?_eq_read?, fun _ _ _ =>
      FieldType.decode_integer_eq_ok_iff,
    fun _ _ _ => SetElement.decodeSet_integer_eq_ok_iff⟩
  obtain ⟨hvalue, hcontains⟩ := Numeral.value_of_toInteger hn
  exact hno n hcontains hvalue

/-- The least byte with zeros in front, and a number next to the greatest one. -/
theorem integers_pass_exactly_through_numerals_of_bytes :
    ∃ x y : Numeral, Numeral.parse "-00128" = .ok x ∧ x.toInteger (.signed 8) = .ok (-128) ∧ x.value = -128 ∧
      Numeral.parse "1.28e2" = .ok y ∧
      y.toInteger (.signed 8) = .error (.malformedNumber "'1.28e2' does not fit the target type") := by
  let x : Numeral := ⟨"-00128", by decide⟩
  let y : Numeral := ⟨"1.28e2", by decide⟩
  obtain ⟨-, -, hexact, hnone, -⟩ := integers_pass_exactly_through_numerals
  have hread : x.toInteger (.signed 8) = .ok (-128) := by decide
  have hparts : y.parts = ⟨false, ['1'], ['2', '8'], 2⟩ :=
    y.decimalText.unique (Parts.ofChars?_eq_some_iff.1 (by decide))
  have hdigits : Parts.digitValue '1' = 1 ∧ Parts.digitValue '2' = 2 ∧ Parts.digitValue '8' = 8 := by decide
  have hvalue : y.value = 128 := by
    rw [Numeral.value, hparts]
    norm_num [Parts.value, Parts.ofDigits, hdigits]
  refine ⟨x, y, Numeral.parse_eq_ok_iff.2 rfl, hread, ?_, Numeral.parse_eq_ok_iff.2 rfl, hnone (.signed 8) y ?_⟩
  · simpa using (hexact (.signed 8) x (-128) hread).1
  · rintro n ⟨-, hn⟩ heq
    rw [hvalue] at heq
    have hoff : n = 128 := by exact_mod_cast heq.symm
    subst hoff
    exact absurd hn (by decide)

end ItemStore
