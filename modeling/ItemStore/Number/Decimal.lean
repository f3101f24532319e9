import ItemStore.Number.Power
/-!
# Decimal text and what it denotes

The store carries a number as decimal text.  This module reads the grammar of that text
(an optional sign, digits with an optional point, an optional power of ten) into its
`Parts`, and brings parts into the normal form `Decimal`, `0.d₁d₂… × 10^exponent` with
`d₁` and the last digit not zero.  Two parts denote the same number exactly when their
normal forms agree, and normal forms are put in order digit by digit, so that no power of
ten is ever multiplied out.
-/
namespace ItemStore

/-- The parts of a decimal text; `exponent` is 0 where none is written. -/
structure Parts where
  negative : Bool
  whole : List Char
  fraction : List Char
  exponent : Int
  deriving DecidableEq

namespace Parts

/-! ## The grammar

`sign? (digits ('.' digits?)? | '.' digits) ([eE] sign? digits)?`, with the ten ASCII digits
only.  Each reader takes what is its own from the front and leaves the rest. -/

def takeSign : List Char → Bool × List Char
  | '-' :: rest => (true, rest)
  | '+' :: rest => (false, rest)
  | rest => (false, rest)

def digitValue (c : Char) : Nat := c.toNat - '0'.toNat

/-- The number that a list of digits writes, most significant first. -/
def ofDigits (ds : List Nat) : Nat := ds.foldl (fun n d => 10 * n + d) 0

/-- Digits only, at least one of them. -/
def readNat? (cs : List Char) : Option Nat :=
  if cs ≠ [] ∧ cs.all Char.isDigit then some (ofDigits (cs.map digitValue)) else none

def readInt? (cs : List Char) : Option Int :=
  let (negative, digits) := takeSign cs
  (readNat? digits).map fun n => if negative then -(n : Int) else n

/-- What may follow the digits: nothing, or a power of ten. -/
def readExponent? : List Char → Option Int
  | [] => some 0
  | c :: rest => if c = 'e' ∨ c = 'E' then readInt? rest else none

def ofChars? (cs : List Char) : Option Parts :=
  let (negative, body) := takeSign cs
  let whole := body.takeWhile Char.isDigit
  let (fraction, rest) :=
    match body.dropWhile Char.isDigit with
    | '.' :: tail => (tail.takeWhile Char.isDigit, tail.dropWhile Char.isDigit)
    | tail => ([], tail)
  if whole = [] ∧ fraction = [] then none
  else (readExponent? rest).map fun exponent => { negative, whole, fraction, exponent }

/-- The exponent is one of the 32-bit integers. -/
def exponentFits (p : Parts) : Bool := -(twoPow 31 : Int) ≤ p.exponent && p.exponent < twoPow 31

/-- All digits of the text in order, the point left out. -/
def digits (p : Parts) : List Nat := (p.whole ++ p.fraction).map digitValue

/-- The number is `significand × 10^scale`. -/
def significand (p : Parts) : Int :=
  if p.negative then -(ofDigits p.digits : Int) else ofDigits p.digits

def scale (p : Parts) : Int := p.exponent - p.fraction.length

end Parts

/-! ## The normal form -/

/-- The number `0.digits × 10^exponent`, negated if `negative`.  Zero has no digits. -/
structure Decimal where
  negative : Bool
  digits : List Nat
  exponent : Int
  deriving DecidableEq

namespace Decimal

def zero : Decimal := ⟨false, [], 0⟩

def dropTrailingZeros (ds : List Nat) : List Nat := (ds.reverse.dropWhile (· == 0)).reverse

/-- Leading zeros lower the exponent, trailing zeros go, and zero has one form. -/
def ofParts (p : Parts) : Decimal :=
  let significant := p.digits.dropWhile (· == 0)
  let leading := p.digits.length - significant.length
  match dropTrailingZeros significant with
  | [] => zero
  | d :: ds => ⟨p.negative, d :: ds, p.whole.length + p.exponent - leading⟩

/-- The order of the absolute values: zero first, then by magnitude, then digit by digit. -/
def compareMagnitude (a b : Decimal) : Ordering :=
  match a.digits, b.digits with
  | [], [] => .eq
  | [], _ :: _ => .lt
  | _ :: _, [] => .gt
  | _ :: _, _ :: _ => (compare a.exponent b.exponent).then (compare a.digits b.digits)

/-- The order of the numbers. -/
def order (a b : Decimal) : Ordering :=
  match a.negative, b.negative with
  | false, true => .gt
  | true, false => .lt
  | false, false => compareMagnitude a b
  | true, true => compareMagnitude b a

end Decimal
end ItemStore
