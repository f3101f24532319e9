import ItemStore.Record.TypeText
import ItemStore.Shape.Written
/-!
# The written form of checked definitions

What a record definition comes to, as a JSON document: the table and its indexes, how each
field is stored, the handles on the fields, and which types have to be fit for keys.  A
record without a table has only the way its fields are stored.
-/
namespace ItemStore

/-- The document around the parts that only shapes have. -/
def RecordParts.document (r : RecordParts TypeText) (declaration : Json)
    (attributes indexes handles keyTypes : List Json) : Json :=
  .obj [("declaration", declaration), ("attributes", .arr attributes), ("indexes", .arr indexes),
    ("handles", .arr handles), ("key_types", .arr keyTypes),
    ("encodes", .arr (r.encodings.map fun e => .arr [.str e.1, .str e.2.1, .bool e.2.2])),
    ("skipped", .arr (r.skipped.map .str))]

def RecordParts.toJson (r : RecordParts TypeText) : Json := r.document .null [] [] [] []

namespace ShapeParts

def attributeToJson (f : FieldPart TypeText) : Json :=
  .obj [("name", .str f.name), ("type", .str f.type.render), ("nullable", .bool f.nullable),
    ("role", .str f.role.text)]

def toJson (s : ShapeParts TypeText) : Json :=
  s.document (.obj [("name", .str s.name), ("table", .str s.table)])
    (s.persisted.map attributeToJson) (s.indexes.map IndexDeclaration.toJson)
    (s.handles.map fun h => .arr [.str h.1, .str h.2.1, .str h.2.2.render])
    (s.keyTypes.map fun t => .str t.render)

end ShapeParts
end ItemStore
