import ItemStore.Number.Decimal
import ItemStore.Text.CharClass
/-!
# Dates

Days of the Gregorian calendar, extended over all years it is asked for.  A date is written
`2024-01-15`; years of more than four digits and years before 0 carry a sign.  Reading is
generous: white space may stand before each number, month and day may have one digit, and a
signed year any number of digits.

A date is also the number of days since 1970-01-01, counted through eras of 400 years (which
all have the same number of days) with years that begin in March, so that the leap day is
the last one.
-/
namespace ItemStore

/-! ## Reading digits -/

/-- The leading digits of a text, at most `most` of them and not fewer than `least`. -/
def takeDigits? (least most : Nat) (cs : List Char) : Option (Nat × List Char) :=
  let ds := (cs.takeWhile Char.isDigit).take most
  if ds.length < least then none
  else some (Parts.ofDigits (ds.map Parts.digitValue), cs.drop ds.length)

def takeChar? (c : Char) : List Char → Option (List Char)
  | d :: rest => if d = c then some rest else none
  | [] => none

/-- A number filled up with zeros on the left to a width. -/
def zeroPadded (width n : Nat) : List Char :=
  let ds := Nat.toDigits 10 n
  List.replicate (width - ds.length) '0' ++ ds

/-- A year: four digits at least, and a sign outside 0 to 9999. -/
def yearChars (y : Int) : List Char :=
  if y < 0 then '-' :: zeroPadded 4 y.natAbs
  else if y ≤ 9999 then zeroPadded 4 y.natAbs
  else '+' :: zeroPadded 4 y.natAbs

/-! ## The calendar -/

def isLeapYear (y : Int) : Bool := y % 4 == 0 && (y % 100 != 0 || y % 400 == 0)

def daysInMonth (y : Int) (m : Nat) : Nat :=
  if m = 2 then (if isLeapYear y then 29 else 28)
  else if m = 4 ∨ m = 6 ∨ m = 9 ∨ m = 11 then 30
  else 31

/-- Days from 1970-01-01 to a day of the calendar. -/
def dayNumber (y : Int) (m d : Nat) : Int :=
  let y := if m ≤ 2 then y - 1 else y
  let yearOfEra := y % 400
  let dayOfYear : Int := (153 * ((m + 9) % 12) + 2) / 5 + d - 1
  let dayOfEra := yearOfEra * 365 + yearOfEra / 4 - yearOfEra / 100 + dayOfYear
  y / 400 * 146097 + dayOfEra - 719468

/-- The year, month and day of a number of days from 1970-01-01. -/
def calendarDay (n : Int) : Int × Nat × Nat :=
  let n := n + 719468
  let dayOfEra := n % 146097
  let yearOfEra := (dayOfEra - dayOfEra / 1460 + dayOfEra / 36524 - dayOfEra / 146096) / 365
  let dayOfYear := dayOfEra - (365 * yearOfEra + yearOfEra / 4 - yearOfEra / 100)
  let month := (5 * dayOfYear + 2) / 153
  let day := dayOfYear - (153 * month + 2) / 5 + 1
  let m := if month < 10 then month + 3 else month - 9
  (yearOfEra + n / 146097 * 400 + (if m ≤ 2 then 1 else 0), m.toNat, day.toNat)

/-! ## Dates -/

/-- The year is one of those that dates are kept for, the month has the day. -/
def IsCalendarDay (y : Int) (m d : Nat) : Prop :=
  (-262143 ≤ y ∧ y ≤ 262142) ∧ (1 ≤ m ∧ m ≤ 12) ∧ 1 ≤ d ∧ d ≤ daysInMonth y m

instance (y : Int) (m d : Nat) : Decidable (IsCalendarDay y m d) :=
  inferInstanceAs (Decidable (_ ∧ _))

structure Date where
  year : Int
  month : Nat
  day : Nat
  valid : IsCalendarDay year month day
  deriving DecidableEq

namespace Date

def of? (y : Int) (m d : Nat) : Option Date :=
  if h : IsCalendarDay y m d then some ⟨y, m, d, h⟩ else none

/-- 1970-01-01 -/
def epoch : Date := ⟨1970, 1, 1, by decide⟩

def render (x : Date) : String :=
  String.ofList (yearChars x.year ++ '-' :: zeroPadded 2 x.month ++ '-' :: zeroPadded 2 x.day)

def skipWhiteSpace (cs : List Char) : List Char := cs.dropWhile Text.isWhiteSpace

def takeYear? (cs : List Char) : Option (Int × List Char) :=
  match cs with
  | '-' :: rest => (takeDigits? 1 rest.length rest).map fun (n, tail) => (-(n : Int), tail)
  | '+' :: rest => (takeDigits? 1 rest.length rest).map fun (n, tail) => ((n : Int), tail)
  | rest => (takeDigits? 1 4 rest).map fun (n, tail) => ((n : Int), tail)

def parse? (text : String) : Option Date := do
  let (y, cs) ← takeYear? (skipWhiteSpace text.toList)
  let cs ← takeChar? '-' cs
  let (m, cs) ← takeDigits? 1 2 (skipWhiteSpace cs)
  let cs ← takeChar? '-' cs
  let (d, cs) ← takeDigits? 1 2 (skipWhiteSpace cs)
  if cs = [] then of? y m d else none

end Date
end ItemStore
