import ItemStore.Number.Decimal
/-!
# Integer types

The fixed-width integers that a number attribute can be read into.  Reading follows the
plain notation: digits, with a `+` allowed in front of them and a `-` only where the type
has negative values, and the value within the type's range.  A point or an exponent is
never read, even if the number is whole.
-/
namespace ItemStore

inductive IntType where
  | signed (bits : Nat)
  | unsigned (bits : Nat)
  deriving DecidableEq

namespace IntType

def least : IntType → Int
  | signed bits => -(twoPow (bits - 1) : Int)
  | unsigned _ => 0

def greatest : IntType → Int
  | signed bits => (twoPow (bits - 1) : Int) - 1
  | unsigned bits => (twoPow bits : Int) - 1

def Contains (t : IntType) (n : Int) : Prop := t.least ≤ n ∧ n ≤ t.greatest

instance (t : IntType) (n : Int) : Decidable (t.Contains n) :=
  inferInstanceAs (Decidable (_ ∧ _))

/-- An unsigned type knows no `-`, not even before a zero. -/
def allowsMinus : IntType → Bool
  | signed _ => true
  | unsigned _ => false

def read? (t : IntType) (cs : List Char) : Option Int :=
  if cs.head? = some '-' ∧ t.allowsMinus = false then none
  else (Parts.readInt? cs).filter fun n => decide (t.Contains n)

end IntType
end ItemStore
