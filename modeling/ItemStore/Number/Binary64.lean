import ItemStore.Number.Decimal
/-!
# Binary floating point

Numbers of 53 significant bits with exponents down to -1074, as exact integers: a finite
one is `±m × 2^q`.  Every operation takes the exact result as a quotient of naturals and
rounds it once, to the nearest number and to the even one of two that are equally near.
They come in where a sum leaves the range of 128-bit integers, and in backoff times.
-/
namespace ItemStore

inductive Binary64 where
  /-- `m < 2^53`, `-1074 ≤ q ≤ 971`, and `2^52 ≤ m` unless `q = -1074`. -/
  | finite (negative : Bool) (m : Nat) (q : Int)
  | infinite (negative : Bool)
  | nan
  deriving DecidableEq

namespace Binary64

def zero (negative : Bool) : Binary64 := finite negative 0 (-1074)

/-! ## Rounding -/

/-- `n / d` to the nearest natural, ties to even. -/
def divNearest (n d : Nat) : Nat :=
  let m := n / d
  let twice := 2 * (n % d)
  if twice > d ∨ (twice = d ∧ m % 2 = 1) then m + 1 else m

/-- `a ≤ n / d × 2^-e`, without fractions. -/
def atLeastPow (n d : Nat) (e : Int) : Bool :=
  if e ≥ 0 then d * twoPow e.toNat ≤ n else d ≤ n * twoPow (-e).toNat

/-- The exponent `e` with `2^e ≤ n / d < 2^(e + 1)`, for positive `n` and `d`. -/
def binaryExponent (n d : Nat) : Int :=
  let e : Int := n.log2 - d.log2
  if atLeastPow n d e then e else e - 1

/-- The number nearest to `±n / d`; from half a step above the greatest on, infinity. -/
def round (negative : Bool) (n d : Nat) : Binary64 :=
  if n = 0 then zero negative
  else
    let q := max (binaryExponent n d - 52) (-1074)
    let m := if q ≥ 0 then divNearest n (d * twoPow q.toNat) else divNearest (n * twoPow (-q).toNat) d
    let (m, q) := if m = twoPow 53 then (twoPow 52, q + 1) else (m, q)
    if q > 971 then infinite negative else finite negative m q

def ofNat (n : Nat) : Binary64 := round false n 1

/-- The number nearest to a decimal one.  Powers of ten far outside the range are settled by
their size alone. -/
def ofParts (p : Parts) : Binary64 :=
  let d := Decimal.ofParts p
  let n := Parts.ofDigits d.digits
  let e := d.exponent - d.digits.length
  if n = 0 then zero p.negative
  else if d.exponent > 400 then infinite p.negative
  else if d.exponent < -400 then zero p.negative
  else if e ≥ 0 then round p.negative (n * tenPow e.toNat) 1
  else round p.negative n (tenPow (-e).toNat)

/-! ## Arithmetic -/

/-- `±m × 2^q` as a signed multiple of `2^base`, for `base ≤ q`. -/
def multiple (negative : Bool) (m : Nat) (q base : Int) : Int :=
  let n : Int := m * twoPow (q - base).toNat
  if negative then -n else n

/-- `n × 2^q` rounded. -/
def roundScaled (negative : Bool) (n : Nat) (q : Int) : Binary64 :=
  if q ≥ 0 then round negative (n * twoPow q.toNat) 1 else round negative n (twoPow (-q).toNat)

def neg : Binary64 → Binary64
  | finite s m q => finite (!s) m q
  | infinite s => infinite (!s)
  | nan => nan

/-- A sum that is exactly zero is negative only if both terms are. -/
def add : Binary64 → Binary64 → Binary64
  | nan, _ | _, nan => nan
  | infinite s, infinite t => if s = t then infinite s else nan
  | infinite s, finite .. => infinite s
  | finite .., infinite t => infinite t
  | finite s m q, finite t n r =>
    let base := min q r
    let sum := multiple s m q base + multiple t n r base
    if sum = 0 then zero (s && t) else roundScaled (sum < 0) sum.natAbs base

def mul : Binary64 → Binary64 → Binary64
  | nan, _ | _, nan => nan
  | infinite s, infinite t => infinite (s ^^ t)
  | infinite s, finite t n _ | finite t n _, infinite s => if n = 0 then nan else infinite (s ^^ t)
  | finite s m q, finite t n r => roundScaled (s ^^ t) (m * n) (q + r)

/-- What is not zero divided by zero is infinite. -/
def div : Binary64 → Binary64 → Binary64
  | nan, _ | _, nan => nan
  | infinite _, infinite _ => nan
  | infinite s, finite t _ _ => infinite (s ^^ t)
  | finite s _ _, infinite t => zero (s ^^ t)
  | finite s m q, finite t n r =>
    if n = 0 then if m = 0 then nan else infinite (s ^^ t)
    else round (s ^^ t) (m * twoPow (q - r).toNat) (n * twoPow (r - q).toNat)

def isZero : Binary64 → Bool
  | finite _ m _ => m = 0
  | _ => false

/-- The number, unless it is infinite or none. -/
def finite? : Binary64 → Option Binary64
  | finite s m q => some (finite s m q)
  | _ => none

/-- A power by repeated squaring, from the lowest bit of the exponent: `r × a^b`. -/
def powFrom (r a : Binary64) (b : Nat) : Binary64 :=
  let r := if b % 2 = 1 then mul r a else r
  if h : b / 2 = 0 then r else powFrom r (mul a a) (b / 2)
termination_by b
decreasing_by omega

def pow (a : Binary64) (b : Nat) : Binary64 := powFrom (ofNat 1) a b

def lessThan : Binary64 → Binary64 → Bool
  | nan, _ | _, nan => false
  | infinite s, infinite t => s && !t
  | infinite s, finite .. => s
  | finite .., infinite t => !t
  | finite s m q, finite t n r =>
    let base := min q r
    multiple s m q base < multiple t n r base

/-- The smaller of two numbers; what is no number is passed over. -/
def least : Binary64 → Binary64 → Binary64
  | nan, y => y
  | x, nan => x
  | x, y => if lessThan y x then y else x

/-- The whole part, clamped to the range from zero to `greatest`. -/
def clamp (greatest : Nat) : Binary64 → Nat
  | nan => 0
  | infinite s => if s then 0 else greatest
  | finite true _ _ => 0
  | finite false m q =>
    min greatest (if q ≥ 0 then m * twoPow q.toNat else m / twoPow (-q).toNat)

/-! ## Writing

A finite number is written with the fewest digits that read back as it, and of those the
nearest to it, the larger of two that are equally near. -/

/-- The numbers that round to `m × 2^q` lie between these multiples of `2^(q - 2)`. -/
def interval (m : Nat) (q : Int) : Nat × Nat :=
  (if m = twoPow 52 ∧ q > -1074 then 4 * m - 1 else 4 * m - 2, 4 * m + 2)

/-- How many digits stand before the point of `n / d`; zero or less below one tenth. -/
def decimalExponent (n d : Nat) : Int :=
  ((Nat.toDigits 10 (n * tenPow 400 / d)).length : Int) - 400

/-- One of the two neighbours of `n / d` among the multiples of `10^-places` that lie within
`low / d` and `high / d`, the nearer one if both do. -/
def neighbour? (closed : Bool) (n low high d : Nat) (places : Int) : Option Nat :=
  let up : Nat := tenPow places.toNat
  let down : Nat := tenPow (-places).toNat
  let below := n * up / (d * down)
  let within (g : Nat) : Bool :=
    let x := g * d * down
    if closed then low * up ≤ x && x ≤ high * up else low * up < x && x < high * up
  let rest := n * up - below * d * down
  match within below, within (below + 1) with
  | true, true => some (if 2 * rest < d * down then below else below + 1)
  | true, false => some below
  | false, true => some (below + 1)
  | false, false => none

/-- Tries grids of `count`, `count + 1`, … digits. -/
def shortestFrom (closed : Bool) (n low high d : Nat) (exponent : Int) :
    Nat → Nat → Nat × Int
  | 0, count =>
    let places := count - exponent
    (n * tenPow places.toNat / (d * tenPow (-places).toNat), places)
  | fuel + 1, count =>
    let places : Int := count - exponent
    match neighbour? closed n low high d places with
    | some g => (g, places)
    | none => shortestFrom closed n low high d exponent fuel (count + 1)

/-- The digits of the shortest decimal and the number of them before the point. -/
def shortest (m : Nat) (q : Int) : List Char × Int :=
  let (low, high) := interval m q
  let up : Nat := twoPow (q - 2).toNat
  let down : Nat := twoPow (2 - q).toNat
  let n := 4 * m * up
  let (g, places) :=
    shortestFrom (m % 2 == 0) n (low * up) (high * up) down (decimalExponent n down) 17 1
  let ds := Nat.toDigits 10 g
  let trimmed := (ds.reverse.dropWhile (· == '0')).reverse
  (trimmed, ds.length - places)

/-- Digits written without an exponent, the point after the first `k` of them. -/
def positional (ds : List Char) (k : Int) : List Char :=
  if k ≤ 0 then '0' :: '.' :: (List.replicate (-k).toNat '0' ++ ds)
  else if k ≥ ds.length then ds ++ List.replicate (k - ds.length).toNat '0'
  else ds.take k.toNat ++ '.' :: ds.drop k.toNat

/-- The text of a number, never with an exponent; a whole number has no point. -/
def render : Binary64 → String
  | nan => "NaN"
  | infinite s => if s then "-inf" else "inf"
  | finite s m q =>
    let body :=
      if m = 0 then ['0']
      else
        let (ds, k) := shortest m q
        positional ds k
    String.ofList (if s then '-' :: body else body)

end Binary64
end ItemStore
