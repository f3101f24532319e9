import ItemStore.Request.Several
import ItemStore.Text.JsonRead
/-!
# The written form of plans and requests

Plans can be written down as JSON documents and read again; requests are written in the
same way for logs.  Everything but the operation may be left out of a plan.
-/
namespace ItemStore
namespace Item

def listToJson (items : List Item) : Json := .arr (items.map toJson)

def listOfJson? (j : Json) : Option (List Item) := j.elements.mapM ofJson?

/-- The item under a name. -/
def member? (name : String) (j : Json) : Option Item := ofJson? (j.member name)

end Item

/-- A member that may be missing or null, but not anything else that does not read. -/
def Json.optional? {α : Type} (read : Json → Option α) (name : String) (j : Json) :
    Option (Option α) :=
  if (j.member name).isNull then some none else (read (j.member name)).map some

namespace Consistency

def text : Consistency → String
  | eventual => "Eventual"
  | strong => "Strong"

def ofText (s : String) : Consistency := if s = "Strong" then strong else eventual

end Consistency

def ReturnValues.ofText (s : String) : ReturnValues :=
  (all.find? fun r => r.text == s).getD nothing

namespace BatchEntry

def toJson : BatchEntry → Json
  | put item => .obj [("put", Item.toJson item)]
  | delete key => .obj [("delete", Item.toJson key)]

def ofJson? : Json → Option BatchEntry
  | .obj [("put", item)] => (Item.ofJson? item).map put
  | .obj [("delete", key)] => (Item.ofJson? key).map delete
  | _ => none

end BatchEntry

namespace Segment

def toJson (s : Segment) : Json := .arr [.ofNat s.number, .ofNat s.total]

def ofJson? : Json → Option Segment
  | .arr [number, total] => do
    return ⟨← number.natBelow? (twoPow 32), ← total.natBelow? (twoPow 32)⟩
  | _ => none

end Segment

/-- A cursor with its token's length, and whether the token leads back to it. -/
def PageCursor.describe (c : PageCursor) : Json :=
  .obj [("shape", .str c.shape), ("key", Item.toJson c.key),
    ("token_len", .ofNat c.token.length), ("token_ok", .bool (ofToken? c.token == some c))]

def Expressions.members (e : Expressions) : List (String × Json) :=
  [("filter", .ofOption .str e.filter), ("condition", .ofOption .str e.condition),
    ("projection", .ofOption .str e.projection),
    ("names", .obj (e.bindings.names.map fun n => (n.1, .str n.2))),
    ("values", Item.toJson e.bindings.values)]

/-! ## Writing -/

mutual

def Operation.toJson : Operation → Json
  | .get key => .obj [("type", .str "get"), ("key", Item.toJson key)]
  | .query condition => .obj [("type", .str "query"), ("key_condition", .str condition)]
  | .scan => .obj [("type", .str "scan")]
  | .put item => .obj [("type", .str "put"), ("item", Item.toJson item)]
  | .update key update =>
    .obj [("type", .str "update"), ("key", Item.toJson key), ("update", .str update)]
  | .delete key => .obj [("type", .str "delete"), ("key", Item.toJson key)]
  | .batchGet keys => .obj [("type", .str "batch_get"), ("keys", Item.listToJson keys)]
  | .batchWrite entries =>
    .obj [("type", .str "batch_write"), ("requests", .arr (entries.map BatchEntry.toJson))]
  | .transaction writes token =>
    .obj [("type", .str "transact_write"), ("writes", .arr (PlanOf.listToJson writes)),
      ("client_token", .ofOption .str token)]

def PlanOf.members : PlanOf Operation → List (String × Json)
  | ⟨shape, table, operation, expressions, index, consistency, limit, cursor, forward, segment,
      returnValues⟩ =>
    [("shape", .str shape), ("table", .str table), ("operation", operation.toJson),
      ("index", .ofOption .str index), ("consistency", .str consistency.text),
      ("limit", .ofOption .ofNat limit), ("cursor", .ofOption PageCursor.describe cursor),
      ("forward", .bool forward), ("segment", .ofOption Segment.toJson segment),
      ("return_values", .str returnValues.text),
      ("is_conditional", .bool expressions.condition.isSome),
      ("is_write", .bool operation.isWrite), ("is_paged", .bool operation.isPaged)]
    ++ expressions.members

def PlanOf.listToJson : List (PlanOf Operation) → List Json
  | [] => []
  | p :: ps => .obj p.members :: PlanOf.listToJson ps

end

def PlanOf.toJson (p : Plan) : Json := .obj p.members

def Request.toJson (r : Request) : Json :=
  .obj ([("action", .str r.operation.action), ("table", .str r.table),
    ("operation", r.operation.toJson), ("index", .ofOption .str r.index),
    ("consistent_read", .bool r.consistentRead), ("limit", .ofOption .ofNat r.limit),
    ("start", .ofOption Item.toJson r.start), ("forward", .bool r.forward),
    ("segment", .ofOption Segment.toJson r.segment),
    ("return_values", .str r.returnValues.text)] ++ r.expressions.members)

/-! ## Reading -/

namespace Expressions

def ofJson? (j : Json) : Option Expressions := do
  let names := match j.member "names" with
    | .obj ms => Entries.ofList (ms.map fun m => (m.1, m.2.asString?.getD ""))
    | _ => []
  let values ← (j.optional? Item.ofJson? "values")
  return { filter := (j.member "filter").asString?, condition := (j.member "condition").asString?
           projection := (j.member "projection").asString?, bindings := ⟨names, values.getD []⟩ }

end Expressions

/-- A plan around an operation that has been read. -/
def PlanOf.ofParts? (operation : Operation) (j : Json) : Option Plan := do
  return { shape := (j.member "shape").asString?.getD ""
           table := (j.member "table").asString?.getD "", operation
           expressions := ← Expressions.ofJson? j, index := (j.member "index").asString?
           consistency := .ofText ((j.member "consistency").asString?.getD "")
           limit := ← j.optional? (Json.natBelow? (twoPow 32)) "limit"
           cursor := ← j.optional? PageCursor.ofJson? "cursor"
           forward := (j.member "forward").isNull || (j.member "forward").asBool
           segment := ← j.optional? Segment.ofJson? "segment"
           returnValues := .ofText ((j.member "return_values").asString?.getD "") }

/-- Plans of transactions nested at most `depth` times. -/
def PlanOf.ofJsonWithin? : Nat → Json → Option Plan
  | 0, _ => none
  | depth + 1, j => do
    let op := j.member "operation"
    let operation : Operation ← match ← (op.member "type").asString? with
      | "get" => (Item.member? "key" op).map .get
      | "query" => some (.query ((op.member "key_condition").asString?.getD ""))
      | "scan" => some .scan
      | "put" => (Item.member? "item" op).map .put
      | "update" =>
        (Item.member? "key" op).map fun k => .update k ((op.member "update").asString?.getD "")
      | "delete" => (Item.member? "key" op).map .delete
      | "batch_get" => (Item.listOfJson? (op.member "keys")).map .batchGet
      | "batch_write" => ((op.member "requests").elements.mapM BatchEntry.ofJson?).map .batchWrite
      | "transact_write" =>
        ((op.member "writes").elements.mapM (ofJsonWithin? depth)).map fun ws =>
          .transaction ws (op.member "client_token").asString?
      | _ => none
    ofParts? operation j

def PlanOf.ofJson? (j : Json) : Option Plan := PlanOf.ofJsonWithin? j.depth j

end ItemStore
