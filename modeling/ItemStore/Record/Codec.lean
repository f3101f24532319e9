import ItemStore.Record.FieldType
import ItemStore.Value.Kind
/-!
# Reading and writing fields

Every field type has a kind, a way to become a wire value (or none, for nothing to write)
and a way back.  What is absent, what is null and what is empty differ by type: an option
reads both absence and null as nothing; a set is never written empty, and reads absence and
null as the empty set; every other type has to be there.  A mismatch of types is reported
with the path of attribute names to it.
-/
namespace ItemStore

/-- A mismatch before any attribute name is known. -/
def mismatch (expected : Kind) (found : Value) : Error :=
  .typeMismatch "" expected.display found.wireType.display

/-! ## Sets -/

namespace SetElement

/-- The kind of a set of such elements. -/
def setKind : SetElement → Kind
  | text => .stringSet
  | binary => .binarySet
  | numeral | integer _ => .numberSet

def encodeSet : (e : SetElement) → List e.Val → Value
  | text, xs => .stringSet xs
  | numeral, xs => .numberSet xs
  | binary, xs => .binarySet xs
  | integer _, xs => .numberSet (xs.map fun n => Numeral.ofInt n.val)

def nonEmpty {α : Type} (xs : List α) : Except Error (List α) :=
  if xs.isEmpty then .error (.malformedAttribute "set must not be empty") else .ok xs

end SetElement

/-- Reads a numeral into an integer type. -/
def BoundedInt.read (t : IntType) (x : Numeral) : Except Error (BoundedInt t) := do
  let n ← x.toInteger t
  if h : t.Contains n then .ok ⟨n, h⟩
  else .error (.malformedNumber s!"'{x.text}' does not fit the target type")

def SetElement.decodeSet : (e : SetElement) → Value → Except Error (List e.Val)
  | .text, .stringSet xs => nonEmpty xs
  | .numeral, .numberSet xs => nonEmpty xs
  | .binary, .binarySet xs => nonEmpty xs
  | .integer t, .numberSet xs => do (← nonEmpty xs).mapM (BoundedInt.read t)
  | e, found => .error (mismatch e.setKind found)

/-! ## What a type says of itself -/

namespace FieldType

def kind : FieldType → Kind
  | text | timestamp | date | uuid => .string
  | numeral | integer _ => .number
  | binary => .binary
  | flag => .boolean
  | option inner => inner.kind
  | list element => .list element.kind
  | map element => .map element.kind
  | set element => element.setKind
  | document name _ => .document name

/-- Whether the attribute may be absent. -/
def isOptional : FieldType → Bool
  | option _ | set _ => true
  | _ => false

end FieldType

/-! ## Writing -/

/-- Writes one attribute; nothing to write becomes a null where that is asked for. -/
def writeAttribute (name : String) (nullable : Bool) (encoded : Option Value) (item : Item) : Item :=
  match encoded with
  | some v => item.put name v
  | none => if nullable then item.put name .null else item

mutual

/-- The wire value, or none to write nothing. -/
def FieldType.encode : (t : FieldType) → t.Val → Option Value
  | .text, s => some (.string s)
  | .numeral, n => some (.number n)
  | .binary, b => some (.binary b)
  | .flag, b => some (.boolean b)
  | .integer _, n => some (.ofInt (BoundedInt.val n))
  | .timestamp, t => some (.string (Timestamp.render t))
  | .date, d => some (.string (Date.render d))
  | .uuid, u => some (.string (Uuid.render u))
  | .option inner, x => Option.bind x inner.encode
  | .list element, xs => some (.list (List.map (fun x => (element.encode x).getD .null) xs))
  | .map element, es =>
    some (.map ((Named.entries es).map fun e => (e.1, (element.encode e.2).getD .null)))
  | .set element, xs =>
    if SortedSet.isEmpty xs then none else some (element.encodeSet (SortedSet.elements xs))
  | .document _ fields, r => some (.map (fields.encodeInto r []))

/-- Writes the stored fields into an item, one after the other. -/
def FieldList.encodeInto : (fs : FieldList) → fs.Val → Item → Item
  | .nil, _, item => item
  | .stored name type nullable rest, (x, r), item =>
    rest.encodeInto r (writeAttribute name nullable (type.encode x) item)
  | .skipped _ rest, (_, r), item => rest.encodeInto r item

end

def encodeAttribute (t : FieldType) (name : String) (x : t.Val) (nullable : Bool) (item : Item) :
    Item :=
  writeAttribute name nullable (t.encode x) item

/-! ## Reading -/

/-- The value of an absent attribute of that name, for the types that allow absence. -/
def FieldType.decodeAbsent (name : String) : (t : FieldType) → Except Error t.Val
  | .option inner => .ok (none : Option inner.Val)
  | .set element => .ok (SortedSet.empty : SortedSet element.Val)
  | _ => .error (.malformedAttribute s!"missing required attribute '{name}'")

/-- Text that a type reads in its own way. -/
def readText {α : Type} (what : String) (parse : String → Option α) (s : String) :
    Except Error α :=
  match parse s with
  | some x => .ok x
  | none => .error (.malformedAttribute s!"invalid {what} '{s}'")

/-- Reads one attribute by the reader for its presence or for its absence. -/
def readAttribute {α : Type} (name : String) (present : Value → Except Error α)
    (absent : Except Error α) (item : Item) : Except Error α :=
  match item.get? name with
  | some v => (present v).mapError (·.atAttribute name)
  | none => absent

mutual

def FieldType.decode : (t : FieldType) → Value → Except Error t.Val
  | .text, .string s => .ok s
  | .numeral, .number n => .ok n
  | .binary, .binary b => .ok b
  | .flag, .boolean b => .ok b
  | .integer t, .number n => BoundedInt.read t n
  | .timestamp, .string s => readText "timestamp" Timestamp.parse? s
  | .date, .string s => readText "date" Date.parse? s
  | .uuid, .string s => readText "uuid" Uuid.parse? s
  | .option inner, .null => .ok (none : Option inner.Val)
  | .option inner, v => (inner.decode v).map (some : inner.Val → Option inner.Val)
  | .list element, .list xs => xs.mapM fun x => element.decode x
  | .map element, .map es => do
    let es ← es.mapM fun e => do return (e.1, ← element.decode e.2)
    return Named.ofList es
  | .set element, .null => .ok (SortedSet.empty : SortedSet element.Val)
  | .set element, v => (element.decodeSet v).map SortedSet.ofList
  | .document _ fields, .map es => fields.decode es
  | t, found => .error (mismatch t.kind found)

/-- Reads the stored fields in order; the first fault is reported. -/
def FieldList.decode : (fs : FieldList) → Item → Except Error fs.Val
  | .nil, _ => .ok ()
  | .stored name type _ rest, item => do
    let x ← readAttribute name type.decode (type.decodeAbsent name) item
    return (x, ← rest.decode item)
  | .skipped type rest, item => do
    return (type.initial, ← rest.decode item)

end

def decodeAttribute (t : FieldType) (name : String) (item : Item) : Except Error t.Val :=
  readAttribute name t.decode (t.decodeAbsent name) item

/-! ## Records -/

/-- A type of record: its name and its fields. -/
structure RecordType where
  name : String
  fields : FieldList

namespace RecordType

abbrev Val (r : RecordType) : Type := r.fields.Val

def toItem (r : RecordType) (x : r.Val) : Item := r.fields.encodeInto x []

def ofItem (r : RecordType) (item : Item) : Except Error r.Val := r.fields.decode item

def type (r : RecordType) : FieldType := .document r.name r.fields

end RecordType
end ItemStore
