import ItemStore.Error
import ItemStore.Number.Decimal
import ItemStore.Number.Integer
/-!
# Numerals

A numeral is a decimal text that has been checked, kept exactly as it was written: `1` and
`1.0` are two numerals of one number.  Equality and the order `textOrder` go by the text;
`order` goes by the number.
-/
namespace ItemStore

/-- Decimal text whose exponent fits 32 bits. -/
structure Numeral where
  text : String
  valid : (Parts.ofChars? text.toList).any Parts.exponentFits = true
  deriving DecidableEq

/-! ## Numerals from integers

The notation of an integer is a `-` for the negative ones and the decimal digits; it
always passes the check. -/

theorem takeWhile_of_all {p : α → Bool} :
    ∀ {xs : List α}, (∀ x ∈ xs, p x = true) → xs.takeWhile p = xs
  | [], _ => rfl
  | x :: xs, h => by
    rw [List.takeWhile_cons_of_pos (h x List.mem_cons_self),
      takeWhile_of_all fun y hy => h y (List.mem_cons_of_mem x hy)]

theorem dropWhile_of_all {p : α → Bool} :
    ∀ {xs : List α}, (∀ x ∈ xs, p x = true) → xs.dropWhile p = []
  | [], _ => rfl
  | x :: xs, h => by
    rw [List.dropWhile_cons_of_pos (h x List.mem_cons_self)]
    exact dropWhile_of_all fun y hy => h y (List.mem_cons_of_mem x hy)

theorem isDigit_toDigits (n : Nat) : ∀ c ∈ Nat.toDigits 10 n, c.isDigit = true :=
  fun _ h => Nat.isDigit_of_mem_toDigits (by decide) (by decide) h

/-- Digits do not begin with a sign. -/
theorem takeSign_toDigits (n : Nat) :
    Parts.takeSign (Nat.toDigits 10 n) = (false, Nat.toDigits 10 n) := by
  unfold Parts.takeSign
  split
  · next h =>
    have : '-' ∈ Nat.toDigits 10 n := by rw [h]; exact List.mem_cons_self
    exact absurd (isDigit_toDigits n _ this) (by decide)
  · next h =>
    have : '+' ∈ Nat.toDigits 10 n := by rw [h]; exact List.mem_cons_self
    exact absurd (isDigit_toDigits n _ this) (by decide)
  · rfl

def integerChars : Int → List Char
  | .ofNat n => Nat.toDigits 10 n
  | .negSucc n => '-' :: Nat.toDigits 10 (n + 1)

theorem ofChars?_integerChars (n : Int) :
    Parts.ofChars? (integerChars n) =
      some ⟨decide (n < 0), Nat.toDigits 10 n.natAbs, [], 0⟩ := by
  have hne (k : Nat) : Nat.toDigits 10 k ≠ [] := Nat.toDigits_ne_nil
  cases n with
  | ofNat k =>
    simp [integerChars, Parts.ofChars?, takeSign_toDigits, takeWhile_of_all (isDigit_toDigits _),
      dropWhile_of_all (isDigit_toDigits _), hne, Parts.readExponent?]
  | negSucc k =>
    simp [integerChars, Parts.ofChars?, Parts.takeSign, takeWhile_of_all (isDigit_toDigits _),
      dropWhile_of_all (isDigit_toDigits _), hne, Parts.readExponent?, Int.negSucc_lt_zero]

namespace Numeral

def ofInt (n : Int) : Numeral where
  text := String.ofList (integerChars n)
  valid := by rw [String.toList_ofList, ofChars?_integerChars]; rfl

/-! ## Reading and comparing -/

/-- Checks a text; of two faults the grammar is reported first. -/
def parse (text : String) : Except Error Numeral :=
  match h : Parts.ofChars? text.toList with
  | none => .error (.malformedNumber text)
  | some p =>
    if hp : p.exponentFits = true then .ok ⟨text, by rw [h]; exact hp⟩
    else .error (.malformedNumber s!"exponent out of range: {text}")

def parts (x : Numeral) : Parts :=
  (Parts.ofChars? x.text.toList).get (by
    have h := x.valid
    cases hp : Parts.ofChars? x.text.toList with
    | none => simp [hp] at h
    | some p => rfl)

def decimal (x : Numeral) : Decimal := .ofParts x.parts

/-- The order of the numbers, so `10` comes after `9` and `1.0` is level with `1`. -/
def order (x y : Numeral) : Ordering := x.decimal.order y.decimal

/-- The order of the texts. -/
def textOrder (x y : Numeral) : Ordering := compare x.text y.text

def isZero (x : Numeral) : Bool := x.decimal.digits.isEmpty

def toInteger (t : IntType) (x : Numeral) : Except Error Int :=
  match t.read? x.text.toList with
  | some n => .ok n
  | none => .error (.malformedNumber s!"'{x.text}' does not fit the target type")

end Numeral
end ItemStore
