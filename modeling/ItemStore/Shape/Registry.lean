import ItemStore.Shape.Compile
import ItemStore.Value.Entries
/-!
# The registry

A registry holds one compiled shape under each name: its descriptor and the type of record
that its mapper maps.  Shapes can be added until the registry is sealed; adding the same
definition again changes nothing, and another definition under a taken name is refused.
-/
namespace ItemStore

/-- Mappers are the same when they map the same type of record. -/
structure Mapper where
  typeName : String
  deriving DecidableEq

namespace Mapper

def maps (m : Mapper) (typeName : String) : Bool := m.typeName == typeName

/-- Runs `f` for records of a type, if that is the type mapped. -/
def guard {α : Type} (m : Mapper) (typeName : String) (f : Except Error α) : Except Error α :=
  if m.maps typeName then f
  else .error (.invalidArgument s!"mapper for {m.typeName} cannot map {typeName}")

/-- What a message shows of a mapper. -/
def describe (m : Mapper) : String := s!"Mapper \x7b type_name: {Text.quoted m.typeName} \x7d"

end Mapper

structure CompiledShape where
  descriptor : Descriptor
  mapper : Mapper
  deriving DecidableEq

/-- Refuses a shape that belongs to another type of record. -/
def CompiledShape.forType (c : CompiledShape) (typeName : String) : Except Error CompiledShape :=
  if c.mapper.maps typeName then .ok c
  else .error
    (.duplicateShape s!"'{c.descriptor.name}' is registered for {c.mapper.typeName}")

/-- Shapes are added to the open map.  Sealing publishes a copy of it, and from then on nothing is added and all
look-ups read the copy. -/
structure Registry where
  opened : Entries CompiledShape
  snapshot : Option (Entries CompiledShape)

namespace Registry

def empty : Registry := ⟨[], none⟩

def isSealed (r : Registry) : Bool := r.snapshot.isSome

/-- The map that look-ups read. -/
def shapes (r : Registry) : Entries CompiledShape := r.snapshot.getD r.opened

def lookup (r : Registry) (name : String) : Except Error CompiledShape :=
  match r.shapes.get? name with
  | some c => .ok c
  | none => .error (.shapeNotFound name)

/-- Adds a shape; answers the entry under its name from now on. -/
def register (r : Registry) (c : CompiledShape) : Except Error CompiledShape × Registry :=
  let name := c.descriptor.name
  if r.isSealed then (.error (.registryClosed name), r)
  else
    match r.opened.get? name with
    | some existing => (if existing = c then .ok existing else .error (.duplicateShape name), r)
    | none => (.ok c, { r with opened := r.opened.put name c })

/-- Compiles a declaration and adds it for a type of record. -/
def registerShape (r : Registry) (d : Declaration) (typeName : String) :
    Except Error CompiledShape × Registry :=
  match d.compile with
  | .error e => (.error e, r)
  | .ok descriptor =>
    let (entry, r) := r.register ⟨descriptor, ⟨typeName⟩⟩
    (entry.bind (·.forType typeName), r)

/-- The entry of a name, for a type of record. -/
def table (r : Registry) (name typeName : String) : Except Error CompiledShape :=
  (r.lookup name).bind (·.forType typeName)

/-- Closes the registry for good.  Only the first time is anything published. -/
def close (r : Registry) : Registry :=
  if r.isSealed then r else { r with snapshot := some r.opened }

/-- The names of all shapes in increasing order. -/
def names (r : Registry) : List String := r.shapes.map Prod.fst

end Registry
end ItemStore
