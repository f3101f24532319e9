import ItemStore.Time.Timestamp
import ItemStore.Value.Basic
import ItemStore.Value.SortedSet
import ItemStore.Value.Uuid
/-!
# Field types

The types that the fields of a record may have, as a universe: `FieldType` names the types
and `FieldType.Val` is what the values of each are.  Records are fields again: a nested
record has the type `document`, and its value is the tuple of the values of its fields.
Maps and sets carry their order, so that each has one value only.
-/
namespace ItemStore

instance : Ord Numeral := ⟨compareOn Numeral.text⟩

instance : Std.TransOrd Numeral := inferInstanceAs (Std.TransCmp (compareOn Numeral.text))

/-- An integer within the range of its type. -/
structure BoundedInt (t : IntType) where
  val : Int
  inRange : t.Contains val
  deriving DecidableEq

instance {t : IntType} : Ord (BoundedInt t) := ⟨compareOn BoundedInt.val⟩

instance {t : IntType} : Std.TransOrd (BoundedInt t) :=
  inferInstanceAs (Std.TransCmp (compareOn BoundedInt.val))

theorem IntType.contains_zero (t : IntType) : t.Contains 0 := by
  cases t with
  | signed bits =>
    have := twoPow_pos (bits - 1)
    simp only [Contains, least, greatest]
    omega
  | unsigned bits =>
    have := twoPow_pos bits
    simp only [Contains, least, greatest]
    omega

def BoundedInt.zero {t : IntType} : BoundedInt t := ⟨0, t.contains_zero⟩

/-! ## Elements of sets -/

inductive SetElement where
  | text | numeral | binary | integer (t : IntType)
  deriving DecidableEq

namespace SetElement

@[reducible] def Val : SetElement → Type
  | text => String
  | numeral => Numeral
  | binary => Bytes
  | integer t => BoundedInt t

instance : ∀ e : SetElement, Ord e.Val
  | text => inferInstanceAs (Ord String)
  | numeral => inferInstanceAs (Ord Numeral)
  | binary => inferInstanceAs (Ord (List UInt8))
  | integer t => inferInstanceAs (Ord (BoundedInt t))

instance : ∀ e : SetElement, Std.TransOrd e.Val
  | text => inferInstanceAs (Std.TransOrd String)
  | numeral => inferInstanceAs (Std.TransOrd Numeral)
  | binary => inferInstanceAs (Std.TransOrd (List UInt8))
  | integer t => inferInstanceAs (Std.TransOrd (BoundedInt t))

end SetElement

/-! ## Types and their values -/

mutual

inductive FieldType where
  | text | numeral | binary | flag
  | integer (t : IntType)
  | timestamp | date | uuid
  | option (inner : FieldType)
  | list (element : FieldType)
  | map (element : FieldType)
  | set (element : SetElement)
  /-- A nested record with the name of its type. -/
  | document (name : String) (fields : FieldList)

/-- The fields of a record in order. -/
inductive FieldList where
  | nil
  /-- A field kept under an attribute name; if nullable, nothing is written as a null. -/
  | stored (name : String) (type : FieldType) (nullable : Bool) (rest : FieldList)
  /-- A field that is not kept and starts anew in every record read. -/
  | skipped (type : FieldType) (rest : FieldList)

end

mutual

def FieldType.Val : FieldType → Type
  | .text => String
  | .numeral => Numeral
  | .binary => Bytes
  | .flag => Bool
  | .integer t => BoundedInt t
  | .timestamp => Timestamp
  | .date => Date
  | .uuid => Uuid
  | .option inner => Option inner.Val
  | .list element => List element.Val
  | .map element => Named element.Val
  | .set element => SortedSet element.Val
  | .document _ fields => fields.Val

def FieldList.Val : FieldList → Type
  | .nil => Unit
  | .stored _ type _ rest => type.Val × rest.Val
  | .skipped type rest => type.Val × rest.Val

end

mutual

/-- The value a skipped field starts with. -/
def FieldType.initial : (t : FieldType) → t.Val
  | .text => ""
  | .numeral => Numeral.ofInt 0
  | .binary => ([] : Bytes)
  | .flag => false
  | .integer _ => BoundedInt.zero
  | .timestamp => Timestamp.epoch
  | .date => Date.epoch
  | .uuid => Uuid.zero
  | .option inner => (none : Option inner.Val)
  | .list element => ([] : List element.Val)
  | .map element => (Named.empty : Named element.Val)
  | .set element => (SortedSet.empty : SortedSet element.Val)
  | .document _ fields => fields.initial

def FieldList.initial : (fs : FieldList) → fs.Val
  | .nil => ()
  | .stored _ type _ rest => (type.initial, rest.initial)
  | .skipped type rest => (type.initial, rest.initial)

end

namespace FieldList

/-- The attribute names of the stored fields. -/
def names : FieldList → List String
  | nil => []
  | stored name _ _ rest => name :: rest.names
  | skipped _ rest => rest.names

end FieldList
end ItemStore
