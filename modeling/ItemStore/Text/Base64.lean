/-!
# Base 64

Binary values travel as text in base 64.  Two forms are in use: values have the standard
alphabet and are padded to groups of four characters, page tokens have the alphabet that
is safe in addresses and no padding.  Decoding is strict in both: the padding must be
exactly what encoding writes, and bits that belong to no byte must be zero, so each byte
string has one text only.
-/
namespace ItemStore.Text

abbrev Bytes := List UInt8

/-- The two characters in which alphabets differ, and whether groups are padded. -/
structure Base64 where
  plus : Char
  slash : Char
  padded : Bool

namespace Base64

def standard : Base64 := ⟨'+', '/', true⟩

def urlSafe : Base64 := ⟨'-', '_', false⟩

/-! ## Digits -/

def digit (b : Base64) (n : Nat) : Char :=
  if n < 26 then Char.ofNat ('A'.toNat + n)
  else if n < 52 then Char.ofNat ('a'.toNat + (n - 26))
  else if n < 62 then Char.ofNat ('0'.toNat + (n - 52))
  else if n = 62 then b.plus
  else b.slash

def value? (b : Base64) (c : Char) : Option Nat :=
  if c.isUpper then some (c.toNat - 'A'.toNat)
  else if c.isLower then some (c.toNat - 'a'.toNat + 26)
  else if c.isDigit then some (c.toNat - '0'.toNat + 52)
  else if c = b.plus then some 62
  else if c = b.slash then some 63
  else none

/-! ## Groups of three bytes and four digits -/

def pad (b : Base64) (n : Nat) : List Char := if b.padded then List.replicate n '=' else []

def encode (b : Base64) : Bytes → List Char
  | [] => []
  | [x] =>
    let n := x.toNat * 16
    b.digit (n / 64) :: b.digit (n % 64) :: b.pad 2
  | [x, y] =>
    let n := (x.toNat * 256 + y.toNat) * 4
    b.digit (n / 4096) :: b.digit (n / 64 % 64) :: b.digit (n % 64) :: b.pad 1
  | x :: y :: z :: rest =>
    let n := (x.toNat * 256 + y.toNat) * 256 + z.toNat
    b.digit (n / 262144) :: b.digit (n / 4096 % 64) :: b.digit (n / 64 % 64) :: b.digit (n % 64)
      :: encode b rest

/-- Two digits hold one byte and four bits that must be zero. -/
def decodeTwo? (b : Base64) (p q : Char) : Option Bytes := do
  let n := (← b.value? p) * 64 + (← b.value? q)
  if n % 16 = 0 then some [UInt8.ofNat (n / 16)] else none

/-- Three digits hold two bytes and two bits that must be zero. -/
def decodeThree? (b : Base64) (p q r : Char) : Option Bytes := do
  let n := ((← b.value? p) * 64 + (← b.value? q)) * 64 + (← b.value? r)
  if n % 4 = 0 then some [UInt8.ofNat (n / 1024), UInt8.ofNat (n / 4 % 256)] else none

def decodeFour? (b : Base64) (p q r s : Char) : Option Bytes := do
  let n := (((← b.value? p) * 64 + (← b.value? q)) * 64 + (← b.value? r)) * 64 + (← b.value? s)
  some [UInt8.ofNat (n / 65536), UInt8.ofNat (n / 256 % 256), UInt8.ofNat (n % 256)]

def decode? (b : Base64) : List Char → Option Bytes
  | [] => some []
  | [_] => none
  | [p, q] => if b.padded then none else b.decodeTwo? p q
  | [p, q, r] => if b.padded then none else b.decodeThree? p q r
  | p :: q :: r :: s :: rest =>
    if b.padded ∧ rest = [] ∧ s = '=' then
      if r = '=' then b.decodeTwo? p q else b.decodeThree? p q r
    else do
      let bytes ← b.decodeFour? p q r s
      return bytes ++ (← decode? b rest)

end Base64
end ItemStore.Text
