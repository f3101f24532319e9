import ItemStore.Request.Plan
/-!
# Replies

What a store answers to one request: a response, whose parts stay empty where the action
has no use for them, or an error.  Only throttling is worth another attempt.
-/
namespace ItemStore

structure Response where
  /-- What a get has found. -/
  item : Option Item := none
  /-- What a query, a scan or a batch of gets has found. -/
  items : List Item := []
  /-- Where the page ends, if there is more to come. -/
  last : Option Item := none
  /-- The image a write was asked for. -/
  attributes : Option Item := none
  unprocessedKeys : List Item := []
  unprocessedWrites : List BatchEntry := []
  deriving DecidableEq

inductive StoreError where
  | throttling (detail : String)
  | conditionFailed (detail : String)
  /-- For each write of the transaction why it was refused, if it was. -/
  | canceled (reasons : List (Option String))
  | service (detail : String)
  deriving DecidableEq

abbrev Reply := Except StoreError Response

namespace StoreError

def kind : StoreError → String
  | throttling _ => "Throttling"
  | conditionFailed _ => "ConditionalCheckFailed"
  | canceled _ => "TransactionCanceled"
  | service _ => "Service"

/-- The error as the rest of the library reports it. -/
def error : StoreError → Error
  | throttling detail => .throttled detail
  | conditionFailed detail => .conditionalCheckFailed detail
  | canceled reasons => .transactionCanceled reasons
  | service detail => .service detail

def message (e : StoreError) : String := e.error.message

end StoreError
end ItemStore
