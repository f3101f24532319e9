import ItemStore.Time.Date
/-!
# Timestamps

Moments in universal time, to the nanosecond.  A timestamp is written
`2024-01-15T10:30:00.120Z`, with as many groups of three decimals as it needs and none for a
whole second.  Reading accepts any offset from universal time below a day, a blank or `t`
between date and time, and any number of decimals, of which nine count.  A second 60 is kept
as it stands, in every minute: which of them were leap seconds is not known here.
-/
namespace ItemStore

structure Timestamp where
  /-- Minutes since 1970-01-01 00:00. -/
  minute : Int
  second : Fin 61
  nanosecond : Fin 1000000000
  deriving DecidableEq

namespace Timestamp

def epoch : Timestamp := ⟨0, 0, 0⟩

/-! ## Writing -/

/-- Decimals in groups of three. -/
def fractionChars (n : Nat) : List Char :=
  if n = 0 then []
  else if n % 1000000 = 0 then '.' :: zeroPadded 3 (n / 1000000)
  else if n % 1000 = 0 then '.' :: zeroPadded 6 (n / 1000)
  else '.' :: zeroPadded 9 n

def render (t : Timestamp) : String :=
  let (y, m, d) := calendarDay (t.minute / 1440)
  let minuteOfDay := (t.minute % 1440).toNat
  String.ofList (yearChars y ++ '-' :: zeroPadded 2 m ++ '-' :: zeroPadded 2 d
    ++ 'T' :: zeroPadded 2 (minuteOfDay / 60) ++ ':' :: zeroPadded 2 (minuteOfDay % 60)
    ++ ':' :: zeroPadded 2 t.second ++ fractionChars t.nanosecond ++ ['Z'])

/-! ## Reading -/

/-- An optional fraction of a second, in nanoseconds; digits after the ninth are dropped. -/
def takeFraction? (cs : List Char) : Option (Nat × List Char) :=
  match cs with
  | '.' :: rest =>
    (takeDigits? 1 9 rest).map fun (n, tail) =>
      (n * tenPow (9 - (rest.length - tail.length)), tail.dropWhile Char.isDigit)
  | rest => some (0, rest)

/-- The offset from universal time in minutes; a minus may be a hyphen or a minus sign. -/
def takeOffset? (cs : List Char) : Option (Int × List Char) := do
  let (sign, cs) ← match cs with
    | 'Z' :: rest | 'z' :: rest => return (0, rest)
    | '+' :: rest => some ((1 : Int), rest)
    | '-' :: rest | '−' :: rest => some (-1, rest)
    | _ => none
  let (hours, cs) ← takeDigits? 2 2 cs
  let cs ← takeChar? ':' cs
  let (minutes, cs) ← takeDigits? 2 2 cs
  if hours < 24 ∧ minutes < 60 then some (sign * (hours * 60 + minutes), cs) else none

def parse? (text : String) : Option Timestamp := do
  let (y, cs) ← takeDigits? 4 4 text.toList
  let cs ← takeChar? '-' cs
  let (m, cs) ← takeDigits? 2 2 cs
  let cs ← takeChar? '-' cs
  let (d, cs) ← takeDigits? 2 2 cs
  let cs ← match cs with
    | 'T' :: rest | 't' :: rest | ' ' :: rest => some rest
    | _ => none
  let (hour, cs) ← takeDigits? 2 2 cs
  let cs ← takeChar? ':' cs
  let (minute, cs) ← takeDigits? 2 2 cs
  let cs ← takeChar? ':' cs
  let (second, cs) ← takeDigits? 2 2 cs
  let (nanosecond, cs) ← takeFraction? cs
  let (offset, cs) ← takeOffset? cs
  let _ ← Date.of? y m d
  if hs : second < 61 then
    if hn : nanosecond < 1000000000 then
      if hour < 24 ∧ minute < 60 ∧ cs = [] then
        some ⟨dayNumber y m d * 1440 + hour * 60 + minute - offset, ⟨second, hs⟩, ⟨nanosecond, hn⟩⟩
      else none
    else none
  else none

end Timestamp
end ItemStore
