import ItemStore.Execution.RetryPolicy
import ItemStore.Request.Several
/-!
# Settings of an executor

How an executor retries, into what parts it cuts batches, how many writes it has under way
at once, and how large a page is where a request does not say.
-/
namespace ItemStore

structure Settings where
  retry : RetryPolicy := .standard
  batchGetSize : Nat := maxBatchGet
  batchWriteSize : Nat := maxBatchWrite
  writeConcurrency : Nat := 8
  /-- Without one, the store decides. -/
  pageSize : Option Nat := none
  deriving DecidableEq

namespace Settings

inductive Fault where
  | retry (fault : RetryPolicy.Fault)
  | batchGetSize
  | batchWriteSize
  | writeConcurrency
  | pageSize
  deriving DecidableEq

def Fault.message : Fault → String
  | retry fault => fault.message
  | batchGetSize => s!"batch_get_size must be between 1 and {maxBatchGet}"
  | batchWriteSize => s!"batch_write_size must be between 1 and {maxBatchWrite}"
  | writeConcurrency => "write_concurrency must be greater than 0"
  | pageSize => "default_page_size must be greater than 0 when set"

def validate (c : Settings) : Except Fault Unit := do
  c.retry.validate.mapError .retry
  if c.batchGetSize = 0 ∨ c.batchGetSize > maxBatchGet then .error .batchGetSize
  else if c.batchWriteSize = 0 ∨ c.batchWriteSize > maxBatchWrite then .error .batchWriteSize
  else if c.writeConcurrency = 0 then .error .writeConcurrency
  else if c.pageSize = some 0 then .error .pageSize
  else .ok ()

/-- Settings that pass the check. -/
def check (c : Settings) : Except Error Settings :=
  match c.validate with
  | .ok _ => .ok c
  | .error fault => .error (.invalidArgument fault.message)

/-- A page size may be null for none; any other member that is not there, and only then,
leaves its default. -/
def ofJson? (j : Json) : Option Settings := do
  let size (default : Nat) : Option Json → Option Nat
    | some x => Json.natBelow? (twoPow 64) x
    | none => some default
  let defaults : Settings := {}
  match ← Json.record? ["retry", "batch_get_size", "batch_write_size", "write_concurrency",
      "default_page_size"] j with
  | [retry, get, write, concurrency, page] =>
    let retry ← match retry with
      | some x => RetryPolicy.ofJson? x
      | none => some defaults.retry
    let pageSize ← match page with
      | none | some .null => some none
      | some x => (Json.natBelow? (twoPow 32) x).map some
    return { retry, pageSize, batchGetSize := ← size defaults.batchGetSize get
             batchWriteSize := ← size defaults.batchWriteSize write
             writeConcurrency := ← size defaults.writeConcurrency concurrency }
  | _ => none

/-- Settings from the text of a JSON document. -/
def parse (text : String) : Except Error Settings :=
  match (Json.parse? text.length text).bind ofJson? with
  | some c => c.check
  | none => .error (.invalidArgument "invalid executor config")

def toJson (c : Settings) : Json :=
  .obj [("retry", c.retry.toJson), ("batch_get_size", .str (toString c.batchGetSize)),
    ("batch_write_size", .str (toString c.batchWriteSize)),
    ("write_concurrency", .str (toString c.writeConcurrency)),
    ("default_page_size", .ofOption .ofNat c.pageSize)]

end Settings
end ItemStore
