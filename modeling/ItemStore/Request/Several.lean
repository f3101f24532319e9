import ItemStore.Request.Writing
/-!
# Several items at once

A batch reads or writes any number of items of one table; whoever sends it cuts it into
parts the store takes.  A transaction holds up to a hundred writes to any tables, applied
together or not at all.  In both, no key may come twice.
-/
namespace ItemStore

/-- The most keys, and the most writes, the store takes in one batch. -/
def maxBatchGet : Nat := 100

def maxBatchWrite : Nat := 25

def maxTransaction : Nat := 100

/-- The length of a transaction's token in bytes. -/
def maxTokenLength : Nat := 36

def checkDistinct (keys : List Item) : Except Error Unit :=
  if keys.Nodup then .ok () else .error (.invalidQuery "duplicate key in batch")

/-! ## Batches -/

structure BatchGet where
  shape : Descriptor
  keys : List PrimaryKey := []
  projection : List String := []
  consistency : Consistency := .eventual

def BatchGet.build (b : BatchGet) : Except Error Plan := do
  if b.keys = [] then .error (.invalidQuery "batch get has no keys")
  else
    let keys ← b.keys.mapM b.shape.keyItem
    checkDistinct keys
    b.shape.checkProjection b.projection
    let (projection, w) := Writer.empty.projection? b.projection
    return { shape := b.shape.name, table := b.shape.table, operation := .batchGet keys
             expressions := w.expressions none none projection, consistency := b.consistency }

/-- A write that waits for its batch to be built. -/
inductive PendingWrite where
  | put (item : Item)
  | delete (key : PrimaryKey)

/-- The entry that is sent, and the key it writes. -/
def PendingWrite.entry (shape : Descriptor) : PendingWrite → Except Error (BatchEntry × Item)
  | put item => do return (.put item, ← shape.keyOfItem item)
  | delete k => do
    let key ← shape.keyItem k
    return (.delete key, key)

structure BatchWrite where
  shape : Descriptor
  writes : List PendingWrite := []

namespace BatchWrite

def put (b : BatchWrite) (item : Item) : BatchWrite := { b with writes := b.writes ++ [.put item] }

def delete (b : BatchWrite) (key : PrimaryKey) : BatchWrite :=
  { b with writes := b.writes ++ [.delete key] }

def build (b : BatchWrite) : Except Error Plan := do
  if b.writes.isEmpty then .error (.invalidQuery "batch write has no requests")
  else
    let entries ← b.writes.mapM (PendingWrite.entry b.shape)
    checkDistinct (entries.map Prod.snd)
    return { shape := b.shape.name, table := b.shape.table
             operation := .batchWrite (entries.map Prod.fst) }

/-- What a message about the batch shows of it. -/
def describe (b : BatchWrite) : String :=
  s!"BatchWrite \x7b shape: {Text.quoted b.shape.name}, writes: {b.writes.length} \x7d"

end BatchWrite

/-! ## Transactions -/

/-- A write inside a transaction. -/
inductive SingleWrite where
  | put (p : Put)
  | update (u : Update)
  | delete (d : Delete)

namespace SingleWrite

def build : SingleWrite → Except Error Plan
  | put p => p.build
  | update u => u.build
  | delete d => d.build

def key : SingleWrite → Except Error Item
  | put p => p.key
  | update u => u.keyItem
  | delete d => d.key

/-- The plan and the key it writes.  Writes of a transaction answer with nothing. -/
def member (s : SingleWrite) : Except Error (Plan × Item) := do
  let plan ← s.build
  let key ← s.key
  if plan.returnValues = .nothing then .ok (plan, key)
  else .error (.invalidQuery
    s!"{plan.operation.name} inside a transaction cannot return {plan.returnValues.text}")

end SingleWrite

structure Transaction where
  writes : List SingleWrite := []
  /-- Names the transaction, so that sending it again is recognised. -/
  token : Option String := none

namespace Transaction

def add (t : Transaction) (s : SingleWrite) : Transaction := { t with writes := t.writes ++ [s] }

def checkToken : Option String → Except Error Unit
  | some token =>
    if token = "" ∨ token.utf8ByteSize > maxTokenLength then
      .error (.invalidQuery s!"client request token must be 1 to {maxTokenLength} characters")
    else .ok ()
  | none => .ok ()

/-- Refuses the first item that is written a second time, after those in `seen`. -/
def checkTargets (seen : List (String × Item)) : List (String × Item) → Except Error Unit
  | [] => .ok ()
  | target :: rest =>
    if target ∈ seen then
      .error (.invalidQuery s!"transaction writes the same item of '{target.1}' more than once")
    else checkTargets (target :: seen) rest

def build (t : Transaction) : Except Error Plan := do
  if t.writes.isEmpty then .error (.invalidQuery "transaction has no writes")
  else if t.writes.length > maxTransaction then
    .error (.invalidQuery
      s!"transaction has {t.writes.length} writes, the limit is {maxTransaction}")
  else
    checkToken t.token
    let members ← t.writes.mapM SingleWrite.member
    checkTargets [] (members.map fun m => (m.1.table, m.2))
    return { shape := "", table := "", operation := .transaction (members.map Prod.fst) t.token }

end Transaction
end ItemStore
