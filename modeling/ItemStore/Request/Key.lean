import ItemStore.Expression.Condition
import ItemStore.Request.Plan
/-!
# Keys and the checks every request shares

The key of an item is itself an item, of the key attributes only.  It is made from the
values of a primary key or taken out of a whole item; both check that every value has the
declared kind.
-/
namespace ItemStore
namespace Descriptor

def checkKeyValue (d : Descriptor) (name : String) (v : Value) : Except Error Unit := do
  let a ← d.requireAttribute name
  if a.kind.accepts v then .ok ()
  else .error (.typeMismatch name a.kind.display v.wireType.display)

/-- The key with these values. -/
def keyItem (d : Descriptor) (k : PrimaryKey) : Except Error Item := do
  d.checkKeyValue d.key.partition k.partition
  let key : Item := Entries.put [] d.key.partition k.partition
  match d.key.sort, k.sort with
  | some name, some v =>
    d.checkKeyValue name v
    return key.put name v
  | some name, none =>
    .error (.missingKeyCondition s!"shape '{d.name}' needs a value for sort key '{name}'")
  | none, some _ => .error (.invalidQuery s!"shape '{d.name}' has no sort key")
  | none, none => return key

/-- The key that an item carries, put together from the attributes `names`. -/
def takeKey (d : Descriptor) (item key : Item) : List String → Except Error Item
  | [] => .ok key
  | name :: names =>
    match item.get? name with
    | none => .error (.malformedAttribute s!"item has no value for key attribute '{name}'")
    | some v => do
      d.checkKeyValue name v
      d.takeKey item (key.put name v) names

def keyOfItem (d : Descriptor) (item : Item) : Except Error Item := d.takeKey item [] d.key.names

/-! ## Shared checks -/

def checkProjection (d : Descriptor) (names : List String) : Except Error Unit :=
  names.forM fun name => (d.requireAttribute name).map fun _ => ()

def checkConditions (d : Descriptor) (cs : List Condition) : Except Error Unit :=
  cs.forM fun c => c.validate d

/-- Global indexes are never read with strong consistency. -/
def checkConsistency (d : Descriptor) (index : Option String) (c : Consistency) :
    Except Error Unit :=
  match c, index with
  | .strong, some name =>
    if (d.index? name).any fun i => i.kind == .global then
      .error (.invalidQuery s!"strongly consistent read on global index '{name}'")
    else .ok ()
  | _, _ => .ok ()

end Descriptor

def checkLimit (limit : Option Nat) : Except Error Unit :=
  if limit = some 0 then .error (.invalidQuery "limit must be greater than zero") else .ok ()

/-- A projection is written only where one is asked for. -/
def Writer.projection? (w : Writer) (names : List String) : Option String × Writer :=
  if names = [] then (none, w)
  else
    let (text, w) := w.projection names
    (some text, w)

/-- The texts with the bindings that the writer has collected. -/
def Writer.expressions (w : Writer) (filter condition projection : Option String) : Expressions where
  filter := filter
  condition := condition
  projection := projection
  bindings := w.bindings

end ItemStore
