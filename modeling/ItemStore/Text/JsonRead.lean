import ItemStore.Number.Binary64
import ItemStore.Text.Json
/-!
# Settings in JSON

How JSON becomes settings: records with members that may be missing, whole numbers within a
range, and binary fractions.  A fraction is read through 64-bit integers: digits count for
as long as their number fits, and the rest is scaled by a power of ten, so what comes out
may be a step away from the nearest number.
-/
namespace ItemStore
namespace Json

/-! ## Records -/

/-- The members of these names, each at most once; other members do not count.  An array
gives the members in order and may end early. -/
def record? (names : List String) : Json → Option (List (Option Json))
  | .obj members => names.mapM fun name =>
      match (Json.obj members).fields name with
      | [] => some none
      | [x] => some (some x)
      | _ => none
  | .arr xs =>
    if xs.length ≤ names.length then
      some (xs.map some ++ List.replicate (names.length - xs.length) none)
    else none
  | _ => none

/-! ## Whole numbers -/

/-- A number written with digits only and below `bound`. -/
def natBelow? (bound : Nat) : Json → Option Nat
  | .num text => (Parts.readNat? text.toList).filter (· < bound)
  | _ => none

/-! ## Fractions -/

def maxUInt64 : Nat := twoPow 64 - 1

/-- Appends digits to a number for as long as it stays within 64 bits; the digits that are
left over. -/
def takeDigits (n : Nat) : List Nat → Nat × List Nat
  | [] => (n, [])
  | d :: ds => if 10 * n + d > maxUInt64 then (n, d :: ds) else takeDigits (10 * n + d) ds

/-- The number nearest to `10^e`. -/
def powerOfTen (e : Nat) : Binary64 := .ofNat (tenPow e)

/-- Divides by `10^e`, from `10^308` on in steps, which end early at zero. -/
def scaleDown (x : Binary64) (e : Nat) : Binary64 :=
  if h : e ≤ 308 then x.div (powerOfTen e)
  else if x.isZero then x
  else scaleDown (x.div (powerOfTen 308)) (e - 308)
termination_by e
decreasing_by omega

/-- `n × 10^e`, or none if that is out of range. -/
def scale? (n : Nat) (e : Int) : Option Binary64 :=
  let x := Binary64.ofNat n
  if e < 0 then some (scaleDown x (-e).toNat)
  else if e > 308 then if n = 0 then some x else none
  else (x.mul (powerOfTen e.toNat)).finite?

/-- The fraction that a number text stands for.  A whole number without a power of ten is
exact to 64 bits before it is rounded. -/
def ofParts? (p : Parts) : Option Binary64 :=
  let (n, dropped) := takeDigits 0 (p.whole.map Parts.digitValue)
  let (n, rest) := takeDigits n (p.fraction.map Parts.digitValue)
  let e := p.exponent + dropped.length - (p.fraction.length - rest.length : Nat)
  let limit : Int := twoPow 31 - 1
  let magnitude :=
    if p.exponent.natAbs > limit then
      if n = 0 ∨ p.exponent < 0 then some (Binary64.ofNat 0) else none
    else scale? n (max (-limit - 1) (min limit e))
  if p.negative then magnitude.map Binary64.neg else magnitude

def float? : Json → Option Binary64
  | .num text => (Parts.ofChars? text.toList).bind ofParts?
  | _ => none

/-- A fraction is written with a point. -/
def ofFloat (x : Binary64) : Json :=
  let text := x.render
  .num (if text.contains '.' then text else text ++ ".0")

end Json
end ItemStore
