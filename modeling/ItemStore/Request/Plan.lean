import ItemStore.Expression.Bindings
import ItemStore.Request.Cursor
/-!
# Plans and requests

A plan is a request that has been checked and written out: the operation, the expressions
with what their placeholders stand for, and how the result is to be read.  It is plain
data; nothing has been sent yet.  A `Request` is what goes to the store for a plan: it no
longer knows the shape, and the cursor has become the key to start after.
-/
namespace ItemStore

inductive Consistency where
  | eventual | strong
  deriving DecidableEq

/-- Which image of the item a write answers with. -/
inductive ReturnValues where
  | nothing | allOld | updatedOld | allNew | updatedNew
  deriving DecidableEq

namespace ReturnValues

def all : List ReturnValues := [nothing, allOld, updatedOld, allNew, updatedNew]

def text : ReturnValues → String
  | nothing => "NONE"
  | allOld => "ALL_OLD"
  | updatedOld => "UPDATED_OLD"
  | allNew => "ALL_NEW"
  | updatedNew => "UPDATED_NEW"

end ReturnValues

/-- One of `total` parts into which a scan is split. -/
structure Segment where
  number : Nat
  total : Nat
  deriving DecidableEq

/-- One write of a batch. -/
inductive BatchEntry where
  | put (item : Item)
  | delete (key : Item)
  deriving DecidableEq

/-- The expressions of a request, and the bindings of their placeholders. -/
structure Expressions where
  filter : Option String := none
  condition : Option String := none
  projection : Option String := none
  bindings : Bindings := {}
  deriving DecidableEq

/-- A plan around an operation of some type. -/
structure PlanOf (ω : Type) where
  shape : String
  table : String
  operation : ω
  expressions : Expressions := {}
  index : Option String := none
  consistency : Consistency := .eventual
  /-- How many items the store looks at for one page. -/
  limit : Option Nat := none
  cursor : Option PageCursor := none
  /-- In increasing order of the sort key. -/
  forward : Bool := true
  segment : Option Segment := none
  returnValues : ReturnValues := .nothing

inductive Operation where
  | get (key : Item)
  | query (keyCondition : String)
  | scan
  | put (item : Item)
  | update (key : Item) (update : String)
  | delete (key : Item)
  | batchGet (keys : List Item)
  | batchWrite (entries : List BatchEntry)
  /-- Writes that are applied together or not at all. -/
  | transaction (writes : List (PlanOf Operation)) (token : Option String)

abbrev Plan := PlanOf Operation

namespace Operation

def name : Operation → String
  | get _ => "get"
  | query _ => "query"
  | scan => "scan"
  | put _ => "put"
  | update .. => "update"
  | delete _ => "delete"
  | batchGet _ => "batch_get"
  | batchWrite _ => "batch_write"
  | transaction .. => "transact_write"

/-- The store's name for the operation. -/
def action : Operation → String
  | get _ => "GetItem"
  | query _ => "Query"
  | scan => "Scan"
  | put _ => "PutItem"
  | update .. => "UpdateItem"
  | delete _ => "DeleteItem"
  | batchGet _ => "BatchGetItem"
  | batchWrite _ => "BatchWriteItem"
  | transaction .. => "TransactWriteItems"

def isGet : Operation → Bool
  | get _ => true
  | _ => false

def isQuery : Operation → Bool
  | query _ => true
  | _ => false

def isScan : Operation → Bool
  | scan => true
  | _ => false

/-- A write of one item. -/
def isWrite : Operation → Bool
  | put _ | update .. | delete _ => true
  | _ => false

/-- An operation that answers page by page. -/
def isPaged : Operation → Bool
  | query _ | scan => true
  | _ => false

end Operation

def PlanOf.isConditional (p : Plan) : Bool := p.expressions.condition.isSome

/-! ## Requests -/

/-- One call to the store. -/
structure Request where
  table : String
  operation : Operation
  expressions : Expressions
  index : Option String
  consistentRead : Bool
  limit : Option Nat
  /-- Results begin after this key. -/
  start : Option Item
  forward : Bool
  segment : Option Segment
  returnValues : ReturnValues

def PlanOf.request (p : Plan) : Request where
  table := p.table
  operation := p.operation
  expressions := p.expressions
  index := p.index
  consistentRead := p.consistency == .strong
  limit := p.limit
  start := p.cursor.map (·.key)
  forward := p.forward
  segment := p.segment
  returnValues := p.returnValues

end ItemStore
