import ItemStore.Shape.Schema
import ItemStore.Text.Json
/-!
# The written form of shapes

Declarations and descriptors as JSON documents.  A declaration may leave out what has a
usual value: flags that are false, a role that is none, lists that are empty.
-/
namespace ItemStore
/-! ## Kinds -/

namespace Kind

/-- The kinds that a single word names. -/
def plain : List (String × Kind) :=
  [("String", string), ("Number", number), ("Binary", binary), ("Boolean", boolean),
    ("StringSet", stringSet), ("NumberSet", numberSet), ("BinarySet", binarySet)]

def toJson : Kind → Json
  | list element => .obj [("List", element.toJson)]
  | map element => .obj [("Map", element.toJson)]
  | document name => .obj [("Document", .str name)]
  | string => .str "String"
  | number => .str "Number"
  | binary => .str "Binary"
  | boolean => .str "Boolean"
  | stringSet => .str "StringSet"
  | numberSet => .str "NumberSet"
  | binarySet => .str "BinarySet"

def ofJson? : Json → Option Kind
  | .str word => plain.lookup word
  | .obj [("List", element)] => (ofJson? element).map list
  | .obj [("Map", element)] => (ofJson? element).map map
  | .obj [("Document", .str name)] => some (document name)
  | _ => none

end Kind

/-! ## Parts of a shape -/

namespace KeyRole

def text : KeyRole → String
  | none => "None"
  | partition => "Partition"
  | sort => "Sort"

def ofText (s : String) : KeyRole :=
  if s = "Partition" then partition else if s = "Sort" then sort else none

end KeyRole

namespace IndexKind

def text : IndexKind → String
  | .local => "Local"
  | .global => "Global"

def ofText (s : String) : IndexKind := if s = "Local" then .local else .global

end IndexKind

namespace Attribute

def toJson (a : Attribute) : Json :=
  .obj [("name", .str a.name), ("kind", a.kind.toJson), ("optional", .bool a.optional),
    ("nullable", .bool a.nullable), ("role", .str a.role.text)]

def ofJson? (j : Json) : Option Attribute := do
  return { name := ← (j.member "name").asString?, kind := ← Kind.ofJson? (j.member "kind")
           optional := (j.member "optional").asBool, nullable := (j.member "nullable").asBool
           role := .ofText ((j.member "role").asString?.getD "") }

end Attribute

namespace IndexDeclaration

def toJson (i : IndexDeclaration) : Json :=
  .obj [("name", .str i.name), ("kind", .str i.kind.text),
    ("partition", .ofOption .str i.partition), ("sort", .ofOption .str i.sort)]

def ofJson? (j : Json) : Option IndexDeclaration := do
  return { name := ← (j.member "name").asString?
           kind := .ofText ((j.member "kind").asString?.getD "")
           partition := (j.member "partition").asString?, sort := (j.member "sort").asString? }

end IndexDeclaration

def Declaration.ofJson? (j : Json) : Option Declaration := do
  return { name := ← (j.member "name").asString?, table := ← (j.member "table").asString?
           attributes := ← (j.member "attributes").elements.mapM Attribute.ofJson?
           indexes := ← (j.member "indexes").elements.mapM IndexDeclaration.ofJson? }

/-! ## Descriptors -/

namespace KeySchema

def members (k : KeySchema) : List (String × Json) :=
  [("partition_key", .str k.partition), ("sort_key", .ofOption .str k.sort)]

def ofJson? (j : Json) : Option KeySchema := do
  return ⟨← (j.member "partition_key").asString?, (j.member "sort_key").asString?⟩

end KeySchema

namespace Index

def toJson (i : Index) : Json :=
  .obj ([("name", .str i.name), ("kind", .str i.kind.text)] ++ i.key.members)

def ofJson? (j : Json) : Option Index := do
  return { name := ← (j.member "name").asString?
           kind := .ofText ((j.member "kind").asString?.getD ""), key := ← KeySchema.ofJson? j }

end Index

namespace Descriptor

def toJson (d : Descriptor) : Json :=
  .obj ([("name", .str d.name), ("table", .str d.table),
    ("attributes", .arr (d.attributes.map Attribute.toJson)),
    ("indexes", .arr (d.indexes.map Index.toJson))] ++ d.key.members)

def ofJson? (j : Json) : Option Descriptor := do
  return { name := ← (j.member "name").asString?, table := ← (j.member "table").asString?
           attributes := ← (j.member "attributes").elements.mapM Attribute.ofJson?
           key := ← KeySchema.ofJson? j
           indexes := ← (j.member "indexes").elements.mapM Index.ofJson? }

end Descriptor
end ItemStore
