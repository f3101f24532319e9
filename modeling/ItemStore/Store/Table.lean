import ItemStore.Expression.Change
import ItemStore.Request.Several
import ItemStore.Store.Reply
/-!
# Tables

A table holds items in the order in which their keys first came.  Two items are the same one
if their key attributes are level in the order of values, so `1` and `1.0` are one key; a
table never holds two items of one key.  `find?`, `put` and `remove` are the operations of
a finite map from keys.
-/
namespace ItemStore

/-- Why the store cannot serve a request. -/
inductive RequestFault where
  | noTable (name : String)
  | keyAttributes
  | keyType (name : String)
  | keyMissing (name : String)
  | noIndex (name : String)
  | consistentGlobal
  | limit
  | segment
  | batchGetSize
  | batchWriteSize
  | transactionSize
  | keyUpdate (name : String)
  | image (action : String) (wanted : ReturnValues)
  | notAWrite (operation : String)
  | expression (fault : ExpressionFault)

namespace RequestFault

/-- What is wrong with a request that a table could otherwise serve. -/
def detail : RequestFault → String
  | noTable name => s!"table '{name}' not found"
  | keyAttributes => "key must contain exactly the table key attributes"
  | keyType name => s!"key attribute '{name}' must be S, N or B"
  | keyMissing name => s!"missing key attribute '{name}'"
  | noIndex name => s!"index '{name}' does not exist"
  | consistentGlobal => "consistent reads are not supported on global secondary indexes"
  | limit => "limit must be greater than 0"
  | segment => "segment must be less than total segments"
  | batchGetSize => s!"BatchGetItem takes 1 to {maxBatchGet} keys"
  | batchWriteSize => s!"BatchWriteItem takes 1 to {maxBatchWrite} requests"
  | transactionSize => s!"TransactWriteItems takes 1 to {maxTransaction} writes"
  | keyUpdate name => s!"cannot update key attribute '{name}'"
  | image action wanted => s!"{action} does not support {wanted.text}"
  | notAWrite operation => s!"{operation} is not a single-item write"
  | expression fault => fault.error.message

def error (fault : RequestFault) : StoreError :=
  match fault with
  | noTable _ => .service s!"ResourceNotFoundException: {fault.detail}"
  | _ => .service s!"ValidationException: {fault.detail}"

end RequestFault

/-- Puts an expression's fault among those of the request it came with. -/
def expressionFault {α : Type} (x : Except ExpressionFault α) : Except RequestFault α :=
  x.mapError .expression

structure TableIndex where
  kind : IndexKind
  key : KeySchema
  deriving DecidableEq

structure Table where
  key : KeySchema
  indexes : Entries TableIndex := []
  items : List Item := []

/-- The item carries all of the key. -/
def KeySchema.covers (k : KeySchema) (item : Item) : Bool := k.names.all item.has

/-! ## The order of items -/

/-- The order by attributes of these names, the first counting most. -/
def itemOrder : List String → Item → Item → Ordering
  | [], _, _ => .eq
  | name :: names, a, b =>
    (Value.attributeOrder (a.get? name) (b.get? name)).then (itemOrder names a b)

namespace Table

/-- Whether two items, or an item and a key, are one and the same to the table. -/
def sameKey (t : Table) (a b : Item) : Bool := itemOrder t.key.names a b == .eq

/-! ## The finite map -/

def find? (t : Table) (key : Item) : Option Item := t.items.find? fun item => t.sameKey item key

/-- Puts an item in place of the first that `same` holds of, else at the end. -/
def replaceFirst (same : Item → Bool) (item : Item) : List Item → List Item
  | [] => [item]
  | x :: xs => if same x then item :: xs else x :: replaceFirst same item xs

def put (t : Table) (item : Item) : Table :=
  { t with items := replaceFirst (fun x => t.sameKey x item) item t.items }

def remove (t : Table) (key : Item) : Table :=
  { t with items := t.items.eraseP fun x => t.sameKey x key }

/-! ## Checks of keys -/

def checkKeyAttribute (item : Item) (name : String) : Except RequestFault Unit :=
  match item.get? name with
  | some v => if v.asString?.isSome || v.asNumber?.isSome || v.asBinary?.isSome then .ok ()
    else .error (.keyType name)
  | none => .error (.keyMissing name)

def checkKeyAttributes (t : Table) (item : Item) : Except RequestFault Unit :=
  t.key.names.forM (checkKeyAttribute item)

/-- A key is made of the key attributes alone. -/
def checkKey (t : Table) (key : Item) : Except RequestFault Unit :=
  if key.length = t.key.names.length then t.checkKeyAttributes key else .error .keyAttributes

/-! ## Conditions and images -/

/-- Whether a condition text holds of an item; no text always does. -/
def conditionHolds (b : Bindings) (item : Item) : Option String → Except RequestFault Bool
  | none => .ok true
  | some text => expressionFault do
    let f ← Formula.parse text
    f.holds b item

/-- The condition of a write holds on the item that is there, or on an empty one. -/
def checkCondition (e : Expressions) (existing : Option Item) : Except StoreError Unit := do
  if ← (conditionHolds e.bindings (existing.getD []) e.condition).mapError RequestFault.error then
    .ok ()
  else .error (.conditionFailed "The conditional request failed")

/-- The image of a write that knows only the old one. -/
def oldImage (action : String) (existing : Option Item) : ReturnValues → Reply
  | .nothing => .ok {}
  | .allOld => .ok { attributes := existing }
  | other => .error (RequestFault.image action other).error

/-- The image of an update that changed the attributes `touched`. -/
def updateImage (existing : Option Item) (updated : Item) (touched : List String) :
    ReturnValues → Option Item
  | .nothing => none
  | .allOld => existing
  | .allNew => some updated
  | .updatedOld => existing.map fun old => old.restrict touched
  | .updatedNew => some (updated.restrict touched)

/-! ## Writes of one item

A write answers and leaves a table.  What can go wrong before the table changes is checked
first; a put or a delete that asks for an image it cannot have is refused only after it has
been done. -/

/-- The names of the attributes a change list touches, none of them part of the key. -/
def touchedNames (t : Table) (b : Bindings) (cs : List Change) :
    Except RequestFault (List String) :=
  cs.mapM fun c => do
    let name ← expressionFault (b.name c.path)
    if t.key.names.contains name then .error (.keyUpdate name) else return name

/-- The item an update makes, with the names it has touched. -/
def updated (t : Table) (e : Expressions) (key : Item) (update : String) :
    Except StoreError (Item × List String) := do
  let (cs, touched) ← (do
    t.checkKey key
    let cs ← expressionFault (Change.parse update)
    return (cs, ← t.touchedNames e.bindings cs)).mapError RequestFault.error
  let existing := t.find? key
  checkCondition e existing
  let item ← (expressionFault (Change.applyAll e.bindings (existing.getD key) cs)).mapError
    RequestFault.error
  return (item, touched)

/-- What has to hold before a put or a delete. -/
def checkWrite (t : Table) (e : Expressions) (keyCheck : Except RequestFault Unit) (key : Item) :
    Except StoreError Unit := do
  keyCheck.mapError RequestFault.error
  checkCondition e (t.find? key)

/-- Runs a put, an update or a delete. -/
def write (t : Table) (operation : Operation) (e : Expressions) (image : ReturnValues) :
    Reply × Table :=
  match operation with
  | .put item =>
    match t.checkWrite e (t.checkKeyAttributes item) item with
    | .error err => (.error err, t)
    | .ok _ => (oldImage "PutItem" (t.find? item) image, t.put item)
  | .delete key =>
    match t.checkWrite e (t.checkKey key) key with
    | .error err => (.error err, t)
    | .ok _ => (oldImage "DeleteItem" (t.find? key) image, t.remove key)
  | .update key update =>
    match t.updated e key update with
    | .error err => (.error err, t)
    | .ok (item, touched) =>
      (.ok { attributes := updateImage (t.find? key) item touched image }, t.put item)
  | other => (.error (RequestFault.notAWrite other.name).error, t)

end Table
end ItemStore
