import ItemStore.Value.Basic
/-!
# How the store compares values

Numbers, strings and binary values have an order within their type, numbers by what they
denote and the others element by element.  Equality is wider: it holds for all types, sets
of one type are equal whatever their order, and everything else is compared by structure.
Values of different types are never ordered and never equal.
-/
namespace ItemStore
namespace Value

/-! ## Order -/

/-- The order of two values that can be put in order. -/
def order? : Value → Value → Option Ordering
  | number a, number b => some (a.order b)
  | string a, string b => some (compare a b)
  | binary a, binary b => some (compare a b)
  | _, _ => none

/-- Puts any two values in order, those that have none of their own by the tags of their
types. -/
def keyOrder (a b : Value) : Ordering :=
  (a.order? b).getD (compare a.wireType.tag b.wireType.tag)

/-- The order of attributes that may be absent; absence comes first. -/
def attributeOrder : Option Value → Option Value → Ordering
  | none, none => .eq
  | none, some _ => .lt
  | some _, none => .gt
  | some a, some b => keyOrder a b

/-! ## Equality -/

/-- As many elements, and every one of the first list among those of the second. -/
def sameElements {α : Type} (eq : α → α → Bool) (xs ys : List α) : Bool :=
  xs.length == ys.length && xs.all fun x => ys.any fun y => eq x y

/-- Whether two numerals denote the same number. -/
def sameNumber (a b : Numeral) : Bool := a.order b == .eq

def equal : Value → Value → Bool
  | number a, number b => sameNumber a b
  | stringSet a, stringSet b => sameElements (· == ·) a b
  | numberSet a, numberSet b => sameElements sameNumber a b
  | binarySet a, binarySet b => sameElements (· == ·) a b
  | a, b => decide (a = b)

/-! ## Parts -/

/-- Whether `part` stands somewhere in a list without gaps. -/
def occursIn {α : Type} [BEq α] (part : List α) : List α → Bool
  | [] => part.isEmpty
  | x :: xs => part.isPrefixOf (x :: xs) || occursIn part xs

/-- Whether a value begins with another; only text and bytes do. -/
def beginsWith : Value → Value → Bool
  | string s, string start => start.toList.isPrefixOf s.toList
  | binary b, binary start => start.isPrefixOf b
  | _, _ => false

/-- Whether a value contains another: text within text, an element in a set or a list. -/
def contains : Value → Value → Bool
  | string s, string part => occursIn part.toList s.toList
  | stringSet xs, string x => xs.contains x
  | numberSet xs, number x => xs.any fun y => sameNumber y x
  | binarySet xs, binary x => xs.contains x
  | list xs, x => xs.any fun y => equal y x
  | _, _ => false

end Value

/-! ## Comparators -/

inductive Comparator where
  | eq | ne | lt | le | gt | ge
  deriving DecidableEq

namespace Comparator

def all : List Comparator := [eq, ne, lt, le, gt, ge]

def symbol : Comparator → String
  | eq => "="
  | ne => "<>"
  | lt => "<"
  | le => "<="
  | gt => ">"
  | ge => ">="

/-- Whether the comparison needs an order and not only equality. -/
def isOrdering : Comparator → Bool
  | eq | ne => false
  | _ => true

/-- Whether two values that have this order pass the comparison. -/
def admits : Comparator → Ordering → Bool
  | eq, o => o == .eq
  | ne, o => o != .eq
  | lt, o => o == .lt
  | le, o => o != .gt
  | gt, o => o == .gt
  | ge, o => o != .lt

/-- Compares two operands, either of which may be absent.  What is absent, or cannot be put
in order, is only ever unequal. -/
def holds (op : Comparator) (left right : Option Value) : Bool :=
  match left, right with
  | some l, some r =>
    match op with
    | eq => l.equal r
    | ne => !l.equal r
    | op => (l.order? r).any op.admits
  | _, _ => op == ne

end Comparator
end ItemStore
