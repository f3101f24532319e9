import ItemStore.Store.Page
/-!
# The store and how it serves requests

A store is its tables, the faults that are to strike its next requests, and the log of all
requests it has been sent.  `Store.send` serves one request: it is logged, then a fault may
strike it, and only then do the tables see it.  A transaction is tried on a copy of the
tables, which takes their place if every condition held.
-/
namespace ItemStore

abbrev Tables := Entries Table

/-- Faults that wait for requests. -/
structure Faults where
  /-- How many requests more are throttled. -/
  throttled : Nat := 0
  /-- The errors of the requests after those. -/
  errors : List StoreError := []
  /-- How many entries at the end of the next batch are left undone. -/
  unprocessed : Nat := 0

structure Store where
  tables : Tables := []
  faults : Faults := {}
  log : List Request := []

/-! ## Reading and writing one table -/

namespace Table

def get (t : Table) (e : Expressions) (key : Item) : Except RequestFault Response := do
  t.checkKey key
  match t.find? key with
  | some item => return { item := some (← project e item) }
  | none => return {}

/-- The items of the keys, those that are there, up to the first fault. -/
def getAll (t : Table) (e : Expressions) : List Item → Except RequestFault (List Item)
  | [] => .ok []
  | key :: keys => do
    t.checkKey key
    match t.find? key with
    | some item =>
      let shown ← project e item
      return shown :: (← t.getAll e keys)
    | none => t.getAll e keys

def checkEntry (t : Table) : BatchEntry → Except RequestFault Unit
  | .put item => t.checkKeyAttributes item
  | .delete key => t.checkKey key

def applyEntry (t : Table) : BatchEntry → Table
  | .put item => t.put item
  | .delete key => t.remove key

/-- A batch has to have entries, and not too many. -/
def sizeFits {α : Type} (greatest : Nat) (entries : List α) : Bool :=
  !entries.isEmpty && entries.length ≤ greatest

/-- Splits off the entries at the end that are left undone. -/
def splitUnprocessed {α : Type} (undone : Nat) (entries : List α) : List α × List α :=
  entries.splitAt (entries.length - undone)

end Table

/-! ## Transactions -/

namespace Tables

/-- Runs one write of a transaction. -/
def writeOne (tables : Tables) (p : Plan) : Reply × Tables :=
  match tables.get? p.table with
  | none => (.error (RequestFault.noTable p.table).error, tables)
  | some t =>
    let (reply, t) := t.write p.operation p.expressions p.returnValues
    (reply, tables.put p.table t)

/-- Runs writes one after the other; for each, why it was refused, if it was.  Any error but
a condition that does not hold ends the run. -/
def stage (tables : Tables) : List Plan → Except StoreError (List (Option String) × Tables)
  | [] => .ok ([], tables)
  | p :: ps =>
    match tables.writeOne p with
    | (.ok _, tables) => do
      let (reasons, tables) ← stage tables ps
      return (none :: reasons, tables)
    | (.error (.conditionFailed _), tables) => do
      let (reasons, tables) ← stage tables ps
      return (some "ConditionalCheckFailed" :: reasons, tables)
    | (.error e, _) => .error e

def transact (tables : Tables) (writes : List Plan) : Reply × Tables :=
  if Table.sizeFits maxTransaction writes then
    match tables.stage writes with
    | .error e => (.error e, tables)
    | .ok (reasons, staged) =>
      if reasons.any Option.isSome then (.error (.canceled reasons), tables) else (.ok {}, staged)
  else (.error RequestFault.transactionSize.error, tables)

end Tables

/-! ## Faults -/

namespace Faults

/-- The fault that strikes the next request, if one does. -/
def next (f : Faults) : Option StoreError × Faults :=
  match f.throttled, f.errors with
  | n + 1, _ =>
    (some (.throttling "Rate of requests exceeds the allowed throughput"), { f with throttled := n })
  | 0, e :: rest => (some e, { f with errors := rest })
  | 0, [] => (none, f)

end Faults

/-! ## The store -/

namespace Store

/-- The reply with what has become of one table. -/
def withTable (s : Store) (name : String) (result : Reply × Table) : Reply × Store :=
  (result.1, { s with tables := s.tables.put name result.2 })

/-- The count of entries left undone holds for one batch only. -/
def settleBatch (s : Store) : Store := { s with faults := { s.faults with unprocessed := 0 } }

/-- A read answers with a response or a fault of the request. -/
def answer (r : Except RequestFault Response) : Reply := r.mapError RequestFault.error

def batchGet (s : Store) (t : Table) (e : Expressions) (keys : List Item) : Reply × Store :=
  if Table.sizeFits maxBatchGet keys then
    let (done, undone) := Table.splitUnprocessed s.faults.unprocessed keys
    (answer ((t.getAll e done).map fun items => { items, unprocessedKeys := undone }),
      s.settleBatch)
  else (.error RequestFault.batchGetSize.error, s)

def batchWrite (s : Store) (name : String) (t : Table) (entries : List BatchEntry) :
    Reply × Store :=
  if Table.sizeFits maxBatchWrite entries then
    match entries.forM t.checkEntry with
    | .error fault => (.error fault.error, s)
    | .ok _ =>
      let (done, undone) := Table.splitUnprocessed s.faults.unprocessed entries
      s.settleBatch.withTable name
        (.ok { unprocessedWrites := undone }, done.foldl Table.applyEntry t)
  else (.error RequestFault.batchWriteSize.error, s)

/-- Serves a request on the table it names. -/
def serveTable (s : Store) (t : Table) (r : Request) : Reply × Store :=
  match r.operation with
  | .get key => (answer (t.get r.expressions key), s)
  | .query condition => (answer (t.query r condition), s)
  | .scan => (answer (t.scan r), s)
  | .batchGet keys => s.batchGet t r.expressions keys
  | .batchWrite entries => s.batchWrite r.table t entries
  | operation => s.withTable r.table (t.write operation r.expressions r.returnValues)

/-- Serves a request that no fault has struck. -/
def serve (s : Store) (r : Request) : Reply × Store :=
  match r.operation with
  | .transaction writes _ =>
    let (reply, tables) := s.tables.transact writes
    (reply, { s with tables })
  | _ =>
    match s.tables.get? r.table with
    | some t => s.serveTable t r
    | none => (.error (RequestFault.noTable r.table).error, s)

def send (s : Store) (r : Request) : Reply × Store :=
  let s := { s with log := s.log ++ [r] }
  match s.faults.next with
  | (some e, faults) => (.error e, { s with faults })
  | (none, _) => s.serve r

/-! ## Setting up -/

/-- Creates the table of a shape.  A table that is there already keeps its key and gains the
indexes it lacks. -/
def create (s : Store) (d : Descriptor) : Store :=
  let t := (s.tables.get? d.table).getD { key := d.key }
  let indexes := d.indexes.foldl (fun acc i =>
    if acc.has i.name then acc else acc.put i.name ⟨i.kind, i.key⟩) t.indexes
  { s with tables := s.tables.put d.table { t with indexes } }

def ofShapes (ds : List Descriptor) : Store := ds.foldl create {}

/-- Puts an item without a request; a table that is not there takes none. -/
def insert (s : Store) (table : String) (item : Item) : Store :=
  match s.tables.get? table with
  | some t => { s with tables := s.tables.put table (t.put item) }
  | none => s

def items (s : Store) (table : String) : List Item :=
  match s.tables.get? table with
  | some t => t.items
  | none => []

def throttleNext (s : Store) (n : Nat) : Store := { s with faults := { s.faults with throttled := n } }

def failNext (s : Store) (e : StoreError) : Store :=
  { s with faults := { s.faults with errors := s.faults.errors ++ [e] } }

def leaveUnprocessed (s : Store) (n : Nat) : Store :=
  { s with faults := { s.faults with unprocessed := n } }

def clearLog (s : Store) : Store := { s with log := [] }

end Store
end ItemStore
