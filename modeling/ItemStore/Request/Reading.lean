import ItemStore.Request.Key
/-!
# Reading one item, reading all

A get reads the item of one key.  A scan reads a whole table or index, perhaps one segment
of it, and keeps what passes its filters.  Building checks a request against its shape and
writes it out; the first fault found is reported, in the order of the checks.
-/
namespace ItemStore

structure Get where
  shape : Descriptor
  key : PrimaryKey
  projection : List String := []
  consistency : Consistency := .eventual

def Get.build (g : Get) : Except Error Plan := do
  let key ← g.shape.keyItem g.key
  g.shape.checkProjection g.projection
  let (projection, w) := Writer.empty.projection? g.projection
  return { shape := g.shape.name, table := g.shape.table, operation := .get key
           expressions := w.expressions none none projection, consistency := g.consistency }

/-- Where a paged read begins: at a cursor, if there is one.  A token that could not be read
makes the whole request invalid, whatever is set later. -/
structure Start where
  cursor : Option PageCursor := none
  fault : Option Error := none

namespace Start

def fromCursor (s : Start) (c : PageCursor) : Start := { s with cursor := some c }

def fromToken (s : Start) (token : String) : Start :=
  match PageCursor.ofToken token with
  | .ok c => s.fromCursor c
  | .error e => { s with fault := some e }

def checkToken (s : Start) : Except Error Unit :=
  match s.fault with
  | some e => .error e
  | none => .ok ()

def checkShape (s : Start) (shape : String) : Except Error Unit :=
  match s.cursor with
  | some c => c.checkShape shape
  | none => .ok ()

end Start

/-- What queries and scans share: where they read, what they keep and what they show of it. -/
structure PagedRead where
  shape : Descriptor
  index : Option String := none
  filters : List Condition := []
  projection : List String := []
  consistency : Consistency := .eventual
  limit : Option Nat := none
  start : Start := {}

namespace PagedRead

/-- The key of what is read. -/
def source (r : PagedRead) : Except Error KeySchema := do
  r.start.checkToken
  let key ← r.shape.keySchema r.index
  r.shape.checkConsistency r.index r.consistency
  return key

/-- The plan around an operation, with what the writer has already written. -/
def plan (r : PagedRead) (operation : Operation) (w : Writer) : Plan :=
  let (filter, w) := w.conjunction r.filters
  let (projection, w) := w.projection? r.projection
  { shape := r.shape.name, table := r.shape.table, operation
    expressions := w.expressions filter none projection, index := r.index
    consistency := r.consistency, limit := r.limit, cursor := r.start.cursor }

end PagedRead

structure Scan extends PagedRead where
  segment : Option Segment := none

def checkSegment : Option Segment → Except Error Unit
  | some ⟨n, total⟩ =>
    if n < total then .ok ()
    else .error (.invalidQuery s!"segment {n} is out of range for {total} total segments")
  | none => .ok ()

def Scan.build (q : Scan) : Except Error Plan := do
  let _ ← q.source
  q.shape.checkConditions q.filters
  q.shape.checkProjection q.projection
  checkLimit q.limit
  checkSegment q.segment
  q.start.checkShape q.shape.name
  return { q.plan .scan Writer.empty with segment := q.segment }

end ItemStore
