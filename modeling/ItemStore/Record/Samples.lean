import ItemStore.Record.Definition
import ItemStore.Shape.Compile
/-!
# Sample shapes

Shapes to try the library with: orders under an id and a date of creation, with an index by
customer and one by total; customers under an id alone; and a shape that has a field of
nearly every type.
-/
namespace ItemStore
namespace Samples

/-! ## Writing definitions -/

def flag (key : String) : Annotation := ⟨key, none⟩

def setting (key value : String) : Annotation := ⟨key, some value⟩

def field (ident : String) (type : FieldType) (annotations : List Annotation) :
    FieldDefinition FieldType :=
  ⟨ident, type, annotations⟩

def record (name : String) (annotations : List Annotation)
    (fields : List (FieldDefinition FieldType)) : Definition FieldType :=
  ⟨name, false, annotations, .fields fields⟩

/-! ## Definitions -/

def addressDefinition : Definition FieldType :=
  record "Address" []
    [field "street" .text [],
     field "city" .text []]

/-- The type of an accepted record definition; a refused one has no fields. -/
def typeOf (d : Definition FieldType) : RecordType :=
  match d.document with
  | .ok parts => parts.recordType
  | .error _ =>
    match d.shape with
    | .ok parts => parts.toRecordParts.recordType
    | .error _ => ⟨d.name, .nil⟩

/-- The declaration of an accepted shape definition; a refused one declares nothing. -/
def declarationOf (d : Definition FieldType) : Declaration :=
  match d.shape with
  | .ok parts => parts.declaration
  | .error _ => ⟨d.name, "", [], []⟩

def address : RecordType := typeOf addressDefinition

def orderDefinition : Definition FieldType :=
  record "Order" [setting "table" "orders", setting "rename_all" "camelCase"]
    [field "order_id" .text [flag "partition_key"],
     field "created_at" .text [flag "sort_key", setting "gsi_sort" "byCustomer"],
     field "customer_id" .text [setting "gsi_partition" "byCustomer"],
     field "total" (.integer (.signed 64)) [setting "lsi" "byTotal"],
     field "tags" (.set .text) [],
     field "coupon" (.option .text) [flag "nullable"],
     field "note" (.option .text) [],
     field "history" (.list .text) [],
     field "shipping" (.option address.type) []]

def customerDefinition : Definition FieldType :=
  record "Customer" [setting "table" "customers"]
    [field "id" .text [flag "partition_key"],
     field "name" .text [],
     field "email" (.option .text) [setting "rename" "mail"],
     field "visits" (.integer (.unsigned 32)) [],
     field "session" (.option .text) [flag "skip"]]

/-- An order seen only by its total. -/
def orderTotalDefinition : Definition FieldType :=
  record "OrderTotal" [setting "rename_all" "camelCase"]
    [field "order_id" .text [],
     field "total" (.integer (.signed 64)) []]

def sinkDefinition : Definition FieldType :=
  record "Sink" [setting "table" "sink", setting "rename_all" "PascalCase"]
    [field "tenant_id" (.integer (.unsigned 64)) [flag "partition_key"],
     field "seq_no" .numeral [flag "sort_key"],
     field "r#type" .text [setting "rename" "kind", setting "gsi_partition" "byKind"],
     field "when" .timestamp [setting "gsi_sort" "byKind", setting "lsi" "byWhen"],
     field "day" (.option .date) [],
     field "owner" (.option .uuid) [flag "nullable"],
     field "blob" .binary [],
     field "labels" (.set .text) [flag "nullable"],
     field "counts" (.map (.integer (.signed 32))) [],
     field "flags" (.list (.option .flag)) [],
     field "nested" (.list address.type) [],
     field "scores" (.set .numeral) [],
     field "cache" (.list (.integer (.unsigned 8))) [flag "skip"]]

def order : RecordType := typeOf orderDefinition

def customer : RecordType := typeOf customerDefinition

def orderTotal : RecordType := typeOf orderTotalDefinition

def sink : RecordType := typeOf sinkDefinition

/-- Every record type of this module. -/
def recordTypes : List RecordType := [order, address, customer, orderTotal, sink]

/-- The declarations of those that have a table. -/
def declarations : List Declaration :=
  [declarationOf orderDefinition, declarationOf customerDefinition, declarationOf sinkDefinition]

/-! ## Records -/

/-- An order of customer `C1` with nothing in its collections. -/
def orderItem (id created : String) (total : Int) : Item :=
  Entries.ofList
    [("orderId", .string id), ("createdAt", .string created), ("customerId", .string "C1"),
     ("total", .ofInt total), ("coupon", .null), ("history", .list [])]

def customerItem (id name : String) : Item :=
  Entries.ofList [("id", .string id), ("name", .string name), ("visits", .ofInt 0)]

end Samples
end ItemStore
