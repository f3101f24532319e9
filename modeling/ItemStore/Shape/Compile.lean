import ItemStore.Shape.Schema
/-!
# Checking declarations

`Declaration.compile` turns a declaration into a descriptor or names the first rule that it
breaks.  Attributes are checked in order, each for its own name before its part in the key;
then the partition key has to be there; then the indexes are checked in order.
-/
namespace ItemStore

/-- The rules a declaration can break. -/
inductive SchemaFault where
  | emptyTable
  | emptyAttribute
  | duplicateAttribute (name : String)
  | secondPartition (first second : String)
  | secondSort (first second : String)
  | keyKind (name : String) (kind : Kind)
  | keyAbsence (name : String)
  | noPartition
  | duplicateIndex (name : String)
  | globalWithoutPartition (index : String)
  | foreignPartition (index name : String)
  | localWithoutSort (index : String)
  | undeclaredIndexKey (index name : String)
  | indexKeyKind (index name : String)
  | sameIndexKeys (index name : String)
  deriving DecidableEq

def SchemaFault.reason : SchemaFault → String
  | emptyTable => "table name must not be empty"
  | emptyAttribute => "attribute name must not be empty"
  | duplicateAttribute name => s!"duplicate attribute name '{name}'"
  | secondPartition first second => s!"more than one partition key ('{first}' and '{second}')"
  | secondSort first second => s!"more than one sort key ('{first}' and '{second}')"
  | keyKind name kind =>
    s!"key attribute '{name}' must be a string, number or binary, found {kind.display}"
  | keyAbsence name => s!"key attribute '{name}' must not be optional or nullable"
  | noPartition => "missing partition key"
  | duplicateIndex name => s!"duplicate index name '{name}'"
  | globalWithoutPartition index => s!"global index '{index}' has no partition attribute"
  | foreignPartition index name =>
    s!"local index '{index}' must use the table partition key, not '{name}'"
  | localWithoutSort index => s!"local index '{index}' has no sort attribute"
  | undeclaredIndexKey index name => s!"index '{index}' references undeclared attribute '{name}'"
  | indexKeyKind index name =>
    s!"index '{index}' key attribute '{name}' must be a string, number or binary"
  | sameIndexKeys index name => s!"index '{index}' uses '{name}' as both partition and sort key"

/-! ## Attributes -/

def checkKeyAttribute (a : Attribute) : Except SchemaFault Unit :=
  if a.kind.isKeyScalar = false then .error (.keyKind a.name a.kind)
  else if a.optional || a.nullable then .error (.keyAbsence a.name)
  else .ok ()

/-- The key attributes found so far. -/
structure KeysFound where
  partition : Option String
  sort : Option String

/-- Takes one attribute's part in the key into account. -/
def KeysFound.add (k : KeysFound) (a : Attribute) : Except SchemaFault KeysFound :=
  match a.role with
  | .none => .ok k
  | .partition =>
    match k.partition with
    | some first => .error (.secondPartition first a.name)
    | none => (checkKeyAttribute a).map fun _ => { k with partition := some a.name }
  | .sort =>
    match k.sort with
    | some first => .error (.secondSort first a.name)
    | none => (checkKeyAttribute a).map fun _ => { k with sort := some a.name }

/-- Checks attributes after those with the names `seen`. -/
def findKeys (seen : List String) (k : KeysFound) : List Attribute → Except SchemaFault KeysFound
  | [] => .ok k
  | a :: rest =>
    if a.name = "" then .error .emptyAttribute
    else if a.name ∈ seen then .error (.duplicateAttribute a.name)
    else do findKeys (a.name :: seen) (← k.add a) rest

/-! ## Indexes -/

def indexPartition (tablePartition : String) (i : IndexDeclaration) : Except SchemaFault String :=
  match i.kind, i.partition with
  | .global, some p => .ok p
  | .global, none => .error (.globalWithoutPartition i.name)
  | .local, none => .ok tablePartition
  | .local, some p =>
    if p = tablePartition then .ok p else .error (.foreignPartition i.name p)

def checkIndexKey (attributes : List Attribute) (index name : String) : Except SchemaFault Unit :=
  match attributes.find? fun a => a.name == name with
  | none => .error (.undeclaredIndexKey index name)
  | some a => if a.kind.isKeyScalar then .ok () else .error (.indexKeyKind index name)

def compileIndex (tablePartition : String) (attributes : List Attribute) (i : IndexDeclaration) :
    Except SchemaFault Index := do
  let key : KeySchema := ⟨← indexPartition tablePartition i, i.sort⟩
  if i.kind = .local ∧ i.sort = none then .error (.localWithoutSort i.name)
  else
    key.names.forM (checkIndexKey attributes i.name)
    if i.sort = some key.partition then .error (.sameIndexKeys i.name key.partition)
    else .ok ⟨i.name, i.kind, key⟩

/-- Checks indexes after those with the names `seen`. -/
def compileIndexes (tablePartition : String) (attributes : List Attribute) (seen : List String) :
    List IndexDeclaration → Except SchemaFault (List Index)
  | [] => .ok []
  | i :: rest =>
    if i.name ∈ seen then .error (.duplicateIndex i.name)
    else do
      let index ← compileIndex tablePartition attributes i
      return index :: (← compileIndexes tablePartition attributes (i.name :: seen) rest)

/-! ## Declarations -/

namespace Declaration

def check (d : Declaration) : Except SchemaFault Descriptor := do
  if d.table = "" then .error .emptyTable
  else
    let keys ← findKeys [] ⟨none, none⟩ d.attributes
    match keys.partition with
    | none => .error .noPartition
    | some partition =>
      let indexes ← compileIndexes partition d.attributes [] d.indexes
      return ⟨d.name, d.table, d.attributes, ⟨partition, keys.sort⟩, indexes⟩

def compile (d : Declaration) : Except Error Descriptor :=
  d.check.mapError fun fault => .schema d.name fault.reason

/-- Checks declarations one by one; a fault in one says nothing about the others. -/
def compileAll (ds : List Declaration) : List (Except Error Descriptor) := ds.map compile

end Declaration
end ItemStore
