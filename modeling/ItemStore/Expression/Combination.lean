import ItemStore.Expression.Token
import ItemStore.Number.Binary64
import ItemStore.Value.Comparison
/-!
# How the store combines values

Updates add numbers, merge sets, take elements out of sets and join lists.  A sum of two
integers that fits 128 bits is exact; any other sum is rounded as a binary fraction and
written out again.  Elements of number sets count as the same when their numbers are, and
no set is ever left empty.
-/
namespace ItemStore

/-! ## Sums -/

namespace Numeral

def toBinary64 (x : Numeral) : Binary64 := .ofParts x.parts

/-- The sum of two integers of 128 bits, if it is another. -/
def exactSum? (x y : Numeral) (subtract : Bool) : Option Int := do
  let a ← (x.toInteger (.signed 128)).toOption
  let b ← (y.toInteger (.signed 128)).toOption
  let sum := if subtract then a - b else a + b
  if (IntType.signed 128).Contains sum then some sum else none

/-- The sum or the difference of two numbers. -/
def sum (x y : Numeral) (subtract : Bool) : Except ExpressionFault Numeral :=
  match exactSum? x y subtract with
  | some n => .ok (ofInt n)
  | none =>
    let b := y.toBinary64
    let text := (x.toBinary64.add (if subtract then b.neg else b)).render
    (parse text).mapError fun _ => .sum text

end Numeral

/-! ## Sets and lists -/

namespace Value

/-- Adds the elements that are not there yet at the end. -/
def union {α : Type} (eq : α → α → Bool) (xs ys : List α) : List α :=
  ys.foldl (fun acc y => if acc.any fun x => eq x y then acc else acc ++ [y]) xs

/-- Takes out all elements that are in the other list. -/
def without {α : Type} (eq : α → α → Bool) (xs ys : List α) : List α :=
  xs.filter fun x => !ys.any fun y => eq y x

/-- Adds to a number, or elements to a set; to what is absent anything can be added. -/
def add (old : Option Value) (v : Value) : Except ExpressionFault Value :=
  match old, v with
  | none, v => .ok v
  | some (number x), number y => (x.sum y false).map number
  | some (stringSet xs), stringSet ys => .ok (stringSet (union (· == ·) xs ys))
  | some (numberSet xs), numberSet ys => .ok (numberSet (union sameNumber xs ys))
  | some (binarySet xs), binarySet ys => .ok (binarySet (union (· == ·) xs ys))
  | some _, _ => .error .addition

/-- A set, unless it has no elements. -/
def nonEmptySet? {α : Type} (make : List α → Value) (xs : List α) : Option Value :=
  if xs.isEmpty then none else some (make xs)

/-- What is left of a set without some elements. -/
def delete (old v : Value) : Except ExpressionFault (Option Value) :=
  match old, v with
  | stringSet xs, stringSet ys => .ok (nonEmptySet? stringSet (without (· == ·) xs ys))
  | numberSet xs, numberSet ys => .ok (nonEmptySet? numberSet (without sameNumber xs ys))
  | binarySet xs, binarySet ys => .ok (nonEmptySet? binarySet (without (· == ·) xs ys))
  | _, _ => .error .deletion

def arithmetic (subtract : Bool) : Value → Value → Except ExpressionFault Value
  | number x, number y => (x.sum y subtract).map number
  | _, _ => .error .arithmetic

def append : Value → Value → Except ExpressionFault Value
  | list xs, list ys => .ok (list (xs ++ ys))
  | _, _ => .error .listAppend

end Value
end ItemStore
