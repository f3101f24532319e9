import ItemStore.Number.Power
import ItemStore.Text.Json
import ItemStore.Text.Base64
/-!
# Unique identifiers

Identifiers of 128 bits.  One is written as 32 hexadecimal digits, lower case, with hyphens
after 8, 12, 16 and 20 of them.  It is also read with upper-case digits, without any of the
hyphens, between braces, or after `urn:uuid:` in either case.
-/
namespace ItemStore

structure Uuid where
  value : Fin (twoPow 128)
  deriving DecidableEq

namespace Uuid

def digitCount : Nat := 32

/-- The hexadecimal digits, most significant first. -/
def digits (u : Uuid) : List Char :=
  (List.range digitCount).map fun i =>
    Json.hexDigit (u.value.val / twoPow (4 * (digitCount - 1 - i)) % 16)

def render (u : Uuid) : String :=
  let ds := u.digits
  let part (start count : Nat) := (ds.drop start).take count
  String.ofList (part 0 8 ++ '-' :: part 8 4 ++ '-' :: part 12 4 ++ '-' :: part 16 4
    ++ '-' :: part 20 12)

def ofDigits? (ds : List Char) : Option Uuid := do
  let values ← ds.mapM Json.hexValue?
  let n := values.foldl (fun n d => 16 * n + d) 0
  if h : n < twoPow 128 then
    if ds.length = digitCount then some ⟨⟨n, h⟩⟩ else none
  else none

/-- The 36 characters with a hyphen after the eighth, twelfth, sixteenth and twentieth
digit. -/
def ofHyphenated? (cs : List Char) : Option Uuid :=
  let hyphens := [8, 13, 18, 23]
  let here (i : Nat) : Option Char := cs[i]?
  if cs.length = 36 ∧ hyphens.all (fun i => here i == some '-') then
    ofDigits? (cs.take 8 ++ (cs.drop 9).take 4 ++ (cs.drop 14).take 4 ++ (cs.drop 19).take 4
      ++ cs.drop 24)
  else none

def parse? (text : String) : Option Uuid :=
  let cs := text.toList
  if cs.length = 32 then ofDigits? cs
  else if cs.length = 36 then ofHyphenated? cs
  else if cs.length = 38 ∧ cs.head? = some '\x7b' ∧ cs.getLast? = some '\x7d' then
    ofHyphenated? (cs.drop 1).dropLast
  else if cs.length = 45 ∧ (cs.take 9).map Char.toLower = "urn:uuid:".toList then
    ofHyphenated? (cs.drop 9)
  else none

def zero : Uuid := ⟨⟨0, twoPow_pos 128⟩⟩

end Uuid
end ItemStore
