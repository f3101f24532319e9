import ItemStore.Expression.Condition
import ItemStore.Record.Definition
/-!
# Fields

A field is a handle on an attribute in which a record keeps values of some type.  Operands
of conditions made through it are values of that type, so their wire values need no thought.
-/
namespace ItemStore

structure Field where
  /-- The name of the attribute. -/
  name : String
  type : FieldType

namespace Field

/-- The wire value as an operand; nothing to write is a null. -/
def value (f : Field) (x : f.type.Val) : Value := (f.type.encode x).getD .null

def compare (f : Field) (op : Comparator) (x : f.type.Val) : Condition :=
  .compare f.name op (f.value x)

def between (f : Field) (low high : f.type.Val) : Condition :=
  .between f.name (f.value low) (f.value high)

def isIn (f : Field) (xs : List f.type.Val) : Condition := .isIn f.name (xs.map f.value)

def beginsWith (f : Field) (start : f.type.Val) : Condition := .beginsWith f.name (f.value start)

/-- The attribute contains an element, of whatever type. -/
def contains (f : Field) (element : FieldType) (x : element.Val) : Condition :=
  .contains f.name ((element.encode x).getD .null)

def isNull (f : Field) : Condition := .isNull f.name

def isNotNull (f : Field) : Condition := .isNotNull f.name

def present (f : Field) : Condition := .present f.name

/-- What a message shows of a field. -/
def describe (f : Field) : String := s!"Field({Text.quoted f.name})"

end Field

/-- The field of that handle name. -/
def ShapeParts.field? (s : ShapeParts FieldType) (handle : String) : Option Field :=
  (s.handles.find? fun h => h.1 == handle).map fun h => ⟨h.2.1, h.2.2⟩

end ItemStore
