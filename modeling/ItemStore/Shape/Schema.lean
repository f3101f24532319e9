import ItemStore.Error
import ItemStore.Value.Kind
/-!
# Shapes

A shape says how the records of one table look: the attributes with their kinds, which of
them form the table's key, and the secondary indexes.  A `Declaration` is what is written
down, a `Descriptor` what the rest of the library works with once the declaration has been
checked.  Both keep their parts in the order of declaration.
-/
namespace ItemStore

inductive KeyRole where
  | none | partition | sort
  deriving DecidableEq

inductive IndexKind where
  /-- Shares the table's partition key under another sort key. -/
  | «local»
  /-- Has keys of its own and is only eventually consistent. -/
  | global
  deriving DecidableEq

structure Attribute where
  name : String
  kind : Kind
  optional : Bool
  nullable : Bool
  role : KeyRole
  deriving DecidableEq

def Attribute.isKey (a : Attribute) : Bool := a.role != .none

structure IndexDeclaration where
  name : String
  kind : IndexKind
  /-- A local index may leave it out. -/
  partition : Option String
  sort : Option String
  deriving DecidableEq

structure Declaration where
  name : String
  table : String
  attributes : List Attribute
  indexes : List IndexDeclaration
  deriving DecidableEq

/-- The names of the key attributes of a table or an index. -/
structure KeySchema where
  partition : String
  sort : Option String
  deriving DecidableEq

structure Index where
  name : String
  kind : IndexKind
  key : KeySchema
  deriving DecidableEq

structure Descriptor where
  name : String
  table : String
  attributes : List Attribute
  key : KeySchema
  indexes : List Index
  deriving DecidableEq

/-- The key attributes, partition first. -/
def KeySchema.names (k : KeySchema) : List String := k.partition :: k.sort.toList

namespace Descriptor

def attribute? (d : Descriptor) (name : String) : Option Attribute :=
  d.attributes.find? fun a => a.name == name

def requireAttribute (d : Descriptor) (name : String) : Except Error Attribute :=
  match d.attribute? name with
  | some a => .ok a
  | none => .error (.unknownAttribute d.name name)

def index? (d : Descriptor) (name : String) : Option Index :=
  d.indexes.find? fun i => i.name == name

/-- The key of the table, or of one of its indexes. -/
def keySchema (d : Descriptor) : Option String → Except Error KeySchema
  | none => .ok d.key
  | some name =>
    match d.index? name with
    | some i => .ok i.key
    | none => .error (.invalidQuery s!"unknown index '{name}' on shape '{d.name}'")

def isTableKey (d : Descriptor) (name : String) : Bool := d.key.names.contains name

/-- What a message shows of the table. -/
def describe (d : Descriptor) : String :=
  s!"Table \x7b shape: {Text.quoted d.name}, table: {Text.quoted d.table} \x7d"

end Descriptor
end ItemStore
