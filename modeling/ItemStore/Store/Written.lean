import ItemStore.Request.Written
import ItemStore.Store.Reply
/-!
# The written form of replies

Responses and errors of a store as JSON documents, written for those who look at them and
read where a reply is laid down in advance.
-/
namespace ItemStore

namespace Response

def toJson (r : Response) : Json :=
  .obj [("item", .ofOption Item.toJson r.item), ("items", Item.listToJson r.items),
    ("last", .ofOption Item.toJson r.last), ("attributes", .ofOption Item.toJson r.attributes),
    ("unprocessed_keys", Item.listToJson r.unprocessedKeys),
    ("unprocessed_writes", .arr (r.unprocessedWrites.map BatchEntry.toJson))]

/-- Every member may be missing or null. -/
def ofJson? (j : Json) : Option Response := do
  return {
    item := ← j.optional? Item.ofJson? "item"
    items := ← Item.listOfJson? (j.member "items")
    last := ← j.optional? Item.ofJson? "last"
    attributes := ← j.optional? Item.ofJson? "attributes"
    unprocessedKeys := ← Item.listOfJson? (j.member "unprocessed_keys")
    unprocessedWrites := ← (j.member "unprocessed_writes").elements.mapM BatchEntry.ofJson? }

end Response

namespace StoreError

def toJson (e : StoreError) : Json := .obj [("error", .str e.kind), ("message", .str e.message)]

def ofJson? (j : Json) : Option StoreError :=
  let detail := (j.member "message").asString?.getD ""
  match (j.member "kind").asString? with
  | some "Throttling" => some (.throttling detail)
  | some "ConditionalCheckFailed" => some (.conditionFailed detail)
  | some "TransactionCanceled" => some (.canceled ((j.member "reasons").elements.map Json.asString?))
  | some "Service" => some (.service detail)
  | _ => none

end StoreError

/-- A reply as it is shown, an error in place of the response. -/
def Reply.toJson : Reply → Json
  | .ok r => r.toJson
  | .error e => e.toJson

end ItemStore
