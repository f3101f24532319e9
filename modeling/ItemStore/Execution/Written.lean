import ItemStore.Execution.Batches
import ItemStore.Execution.WritePool
import ItemStore.Store.Written
/-!
# The written form of outcomes

What has become of requests, as JSON documents for those who look at it.
-/
namespace ItemStore

def Error.toJson (e : Error) : Json := .obj [("error", .str e.code), ("message", .str e.message)]

/-- A result, or the error that stands in its place. -/
def resultToJson {α : Type} (f : α → Json) : Except Error α → Json
  | .ok a => f a
  | .error e => e.toJson

namespace WriteOutcome

def members : WriteOutcome → List (String × Json)
  | written attributes =>
    [("written", .bool true), ("attributes", .ofOption Item.toJson attributes)]
  | conditionFailed reason => [("written", .bool false), ("condition_failed", .str reason)]

def toJson (o : WriteOutcome) : Json := .obj o.members

end WriteOutcome

def TransactionOutcome.toJson : TransactionOutcome → Json
  | committed => .obj [("committed", .bool true)]
  | canceled reasons =>
    .obj [("committed", .bool false), ("reasons", .arr (reasons.map (.ofOption .str)))]

/-- Entries of a batch that failed, each with its error. -/
def failedToJson {ε : Type} (f : ε → Json) (failed : List (ε × Error)) : Json :=
  .arr (failed.map fun e => .arr [f e.1, e.2.toJson])

def BatchGetOutcome.toJson (o : BatchGetOutcome Json) : Json :=
  .obj [("items", .arr o.items), ("failed", failedToJson Item.toJson o.failed),
    ("complete", .bool o.failed.isEmpty)]

def BatchWriteOutcome.toJson (o : BatchWriteOutcome) : Json :=
  .obj [("written", .ofNat o.written),
    ("unprocessed", .arr (o.unprocessed.map BatchEntry.toJson)),
    ("failed", failedToJson BatchEntry.toJson o.failed),
    ("complete", .bool (o.unprocessed.isEmpty && o.failed.isEmpty))]

def RecordPage.toJson (p : RecordPage Json) : Json :=
  .obj [("items", .arr p.items), ("cursor", .ofOption PageCursor.describe p.cursor),
    ("has_more", .bool p.cursor.isSome),
    ("token_len", .ofOption (fun c => .ofNat c.token.length) p.cursor)]

def ItemStream.toJson (s : ItemStream) : Json :=
  .obj [("cursor", .ofOption PageCursor.describe s.cursor),
    ("buffered", .ofNat s.buffer.length), ("pages", .ofNat s.pages),
    ("exhausted", .bool s.isExhausted)]

end ItemStore
