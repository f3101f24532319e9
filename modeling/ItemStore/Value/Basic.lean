import ItemStore.Number.Numeral
import ItemStore.Text.Base64
import ItemStore.Value.Entries
/-!
# Wire values

What the store keeps under an attribute name: ten types of value, two of them nested.  Sets
keep the order and the repetitions they were written with.  Equality is structural, so
numbers are equal here only if their texts are; how the store compares values is another
matter.
-/
namespace ItemStore

export Text (Bytes)

inductive Value where
  | string (s : String)
  | number (n : Numeral)
  | binary (b : Bytes)
  | boolean (b : Bool)
  | null
  | stringSet (elements : List String)
  | numberSet (elements : List Numeral)
  | binarySet (elements : List Bytes)
  | list (elements : List Value)
  | map (entries : List (String × Value))
  deriving Inhabited

abbrev Item := Entries Value

/-! ## Structural equality -/

namespace Value

mutual

def same : Value → Value → Bool
  | string a, string b => a == b
  | number a, number b => a == b
  | binary a, binary b => a == b
  | boolean a, boolean b => a == b
  | null, null => true
  | stringSet a, stringSet b => a == b
  | numberSet a, numberSet b => a == b
  | binarySet a, binarySet b => a == b
  | list a, list b => sameList a b
  | map a, map b => sameEntries a b
  | _, _ => false

def sameList : List Value → List Value → Bool
  | [], [] => true
  | a :: as, b :: bs => same a b && sameList as bs
  | _, _ => false

def sameEntries : List (String × Value) → List (String × Value) → Bool
  | [], [] => true
  | (m, a) :: as, (n, b) :: bs => m == n && same a b && sameEntries as bs
  | _, _ => false

end

mutual

theorem same_iff : ∀ a b : Value, same a b = true ↔ a = b
  | string a, b => by cases b <;> simp [same]
  | number a, b => by cases b <;> simp [same]
  | binary a, b => by cases b <;> simp [same]
  | boolean a, b => by cases b <;> simp [same]
  | null, b => by cases b <;> simp [same]
  | stringSet a, b => by cases b <;> simp [same]
  | numberSet a, b => by cases b <;> simp [same]
  | binarySet a, b => by cases b <;> simp [same]
  | list a, b => by cases b <;> simp [same, sameList_iff a]
  | map a, b => by cases b <;> simp [same, sameEntries_iff a]

theorem sameList_iff : ∀ as bs : List Value, sameList as bs = true ↔ as = bs
  | [], bs => by cases bs <;> simp [sameList]
  | a :: as, bs => by cases bs <;> simp [sameList, same_iff a, sameList_iff as]

theorem sameEntries_iff : ∀ as bs : List (String × Value), sameEntries as bs = true ↔ as = bs
  | [], bs => by cases bs <;> simp [sameEntries]
  | (m, a) :: as, bs => by
    cases bs <;> simp [sameEntries, same_iff a, sameEntries_iff as, Prod.ext_iff]

end

instance : DecidableEq Value := fun a b => decidable_of_iff _ (same_iff a b)

end Value

/-! ## Types -/

inductive WireType where
  | string | number | binary | boolean | null
  | stringSet | numberSet | binarySet | list | map
  deriving DecidableEq

namespace WireType

def all : List WireType :=
  [string, number, binary, boolean, null, stringSet, numberSet, binarySet, list, map]

/-- The tag that stands before a value of the type in its written form. -/
def tag : WireType → String
  | string => "S"
  | number => "N"
  | binary => "B"
  | boolean => "BOOL"
  | null => "NULL"
  | stringSet => "SS"
  | numberSet => "NS"
  | binarySet => "BS"
  | list => "L"
  | map => "M"

def ofTag? (tag : String) : Option WireType := all.find? fun t => t.tag == tag

/-- The name of the type in messages. -/
def display : WireType → String
  | string => "string"
  | number => "number"
  | binary => "binary"
  | boolean => "boolean"
  | null => "null"
  | stringSet => "string set"
  | numberSet => "number set"
  | binarySet => "binary set"
  | list => "list"
  | map => "map"

end WireType

namespace Value

def wireType : Value → WireType
  | string _ => .string
  | number _ => .number
  | binary _ => .binary
  | boolean _ => .boolean
  | null => .null
  | stringSet _ => .stringSet
  | numberSet _ => .numberSet
  | binarySet _ => .binarySet
  | list _ => .list
  | map _ => .map

/-! ## Looking inside -/

def asString? : Value → Option String
  | string s => some s
  | _ => none

def asNumber? : Value → Option Numeral
  | number n => some n
  | _ => none

def asBinary? : Value → Option Bytes
  | binary b => some b
  | _ => none

def asBool? : Value → Option Bool
  | boolean b => some b
  | _ => none

def asList? : Value → Option (List Value)
  | list xs => some xs
  | _ => none

def asMap? : Value → Option Item
  | map es => some es
  | _ => none

def isNull : Value → Bool
  | null => true
  | _ => false

def ofInt (n : Int) : Value := number (.ofInt n)

end Value

/-! ## Primary keys -/

/-- The values of a table's key attributes. -/
structure PrimaryKey where
  partition : Value
  sort : Option Value := none
  deriving DecidableEq

end ItemStore
