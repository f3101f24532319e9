import ItemStore.Shape.Schema
import ItemStore.Value.Comparison
/-!
# Conditions

Predicates on the attributes of an item, as builders collect them.  Before a condition goes
into a request it is checked against the shape: its attributes must be declared, the
comparison must make sense for their kinds, and its operands must have those kinds.
-/
namespace ItemStore

inductive Condition where
  | compare (name : String) (op : Comparator) (value : Value)
  | between (name : String) (low high : Value)
  | isIn (name : String) (values : List Value)
  | beginsWith (name : String) (start : Value)
  | contains (name : String) (value : Value)
  | present (name : String)
  | absent (name : String)
  | hasType (name : String) (type : WireType)
  | and (left right : Condition)
  | or (left right : Condition)
  | not (inner : Condition)
  deriving DecidableEq

namespace Condition

def isNull (name : String) : Condition := hasType name .null

def isNotNull (name : String) : Condition := not (isNull name)

/-- The attribute names in the condition, from left to right. -/
def attributes : Condition → List String
  | compare name .. | between name .. | isIn name _ | beginsWith name _ | contains name _
  | present name | absent name | hasType name _ => [name]
  | and left right | or left right => left.attributes ++ right.attributes
  | not inner => inner.attributes

/-! ## Checking against a shape -/

/-- The most values the store takes in one list. -/
def maxInValues : Nat := 100

def requireOrdered (a : Attribute) : Except Error Unit :=
  if a.kind.isKeyScalar then .ok ()
  else .error (.invalidQuery s!"ordering comparison on '{a.name}' which is {a.kind.display}")

/-- The operand has the attribute's kind, or is null where the attribute may be. -/
def checkOperand (a : Attribute) (v : Value) : Except Error Unit :=
  if a.kind.accepts v || (v.isNull && a.nullable) then .ok ()
  else .error (.typeMismatch a.name a.kind.display v.wireType.display)

/-- The kind of what an attribute of this kind can contain; a string contains strings. -/
def containedKind? : Kind → Option Kind
  | .string => some .string
  | .binary => some .binary
  | kind => kind.element?

def validate (shape : Descriptor) : Condition → Except Error Unit
  | compare name op value => do
    let a ← shape.requireAttribute name
    if op.isOrdering then requireOrdered a
    checkOperand a value
  | between name low high => do
    let a ← shape.requireAttribute name
    requireOrdered a
    checkOperand a low
    checkOperand a high
  | isIn name values => do
    let a ← shape.requireAttribute name
    if values = [] then .error (.invalidQuery s!"IN on '{name}' needs at least one value")
    else if values.length > maxInValues then
      .error (.invalidQuery s!"IN on '{name}' accepts at most {maxInValues} values")
    else values.forM (checkOperand a)
  | beginsWith name start => do
    let a ← shape.requireAttribute name
    if a.kind = .string ∨ a.kind = .binary then checkOperand a start
    else .error (.invalidQuery
      s!"begins_with needs a string or binary attribute, '{name}' is {a.kind.display}")
  | contains name value => do
    let a ← shape.requireAttribute name
    match containedKind? a.kind with
    | none => .error (.invalidQuery
        s!"contains needs a string, set or list attribute, '{name}' is {a.kind.display}")
    | some element =>
      if element.accepts value then .ok ()
      else .error (.typeMismatch name element.display value.wireType.display)
  | present name | absent name | hasType name _ => do
    let _ ← shape.requireAttribute name
  | and left right | or left right => do
    left.validate shape
    right.validate shape
  | not inner => inner.validate shape

end Condition
end ItemStore
