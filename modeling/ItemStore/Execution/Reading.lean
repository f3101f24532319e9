import ItemStore.Execution.Executor
/-!
# Reading records, page by page

A get reads one record.  A query or a scan is read by the page, or as a stream that fetches
a page whenever the items of the last one are used up.  When a page cannot be fetched, the
stream stays where it is and the next call tries again; an item that is no record is an
error of its own and the stream goes on behind it.
-/
namespace ItemStore

/-- How items become records of a type, and the shape whose plans read them. -/
structure RecordReader (α : Type) where
  shape : String
  read : Item → Except Error α

structure RecordPage (α : Type) where
  items : List α
  /-- Where the next page begins, if there is one. -/
  cursor : Option PageCursor

namespace Executor

/-- Where the plan sets no limit, a page is as large as the settings say. -/
def paged (x : Executor) (p : Plan) : Plan := { p with limit := p.limit.or x.pageSize }

section Read
variable {σ α : Type} [Client σ]

/-- The items of one page, and the cursor of the next. -/
def fetchItems (x : Executor) (p : Plan) (w : World σ) :
    Except Error (List Item × Option PageCursor) × World σ :=
  let (result, w) := x.submit p.request w
  (result.map fun response => (response.items, response.last.map fun key => ⟨p.shape, key⟩), w)

def get (x : Executor) (d : RecordReader α) (p : Plan) (w : World σ) :
    Except Error (Option α) × World σ :=
  match (do p.checkShape d.shape; p.checkOperation "get" Operation.isGet) with
  | .error e => (.error e, w)
  | .ok () =>
    let (result, w) := x.submit p.request w
    (result.bind fun response => response.item.mapM d.read, w)

/-- Fails if any item of the page is no record. -/
def page (x : Executor) (d : RecordReader α) (p : Plan) (w : World σ) :
    Except Error (RecordPage α) × World σ :=
  match (do p.checkShape d.shape; p.checkOperation "query or scan" Operation.isPaged) with
  | .error e => (.error e, w)
  | .ok () =>
    let (fetched, w) := x.fetchItems (x.paged p) w
    (do
      let (items, cursor) ← fetched
      return { items := ← items.mapM d.read, cursor }, w)

end Read
end Executor

/-! ## Streams -/

structure ItemStream where
  plan : Plan
  /-- Items fetched and not yet read. -/
  buffer : List Item := []
  /-- Where the next page begins. -/
  cursor : Option PageCursor
  /-- The last page has been fetched. -/
  lastFetched : Bool := false
  /-- How many pages have been fetched. -/
  pages : Nat := 0

namespace ItemStream

def ofPlan (p : Plan) : ItemStream := { plan := p, cursor := p.cursor }

def isExhausted (s : ItemStream) : Bool := s.lastFetched && s.buffer.isEmpty

/-- What a message shows of a stream. -/
def describe (s : ItemStream) : String :=
  s!"ItemStream \x7b shape: {Text.quoted s.plan.shape}, buffered: {s.buffer.length}, pages: {s.pages}, exhausted: {s.lastFetched} \x7d"

end ItemStream

namespace Executor

/-- The stream of a query. -/
def queryStream (x : Executor) (shape : String) (p : Plan) : Except Error ItemStream := do
  p.checkShape shape
  p.checkOperation "query" Operation.isQuery
  return .ofPlan (x.paged p)

/-- The stream of a scan. -/
def scanStream (x : Executor) (shape : String) (p : Plan) : Except Error ItemStream := do
  p.checkShape shape
  p.checkOperation "scan" Operation.isScan
  return .ofPlan (x.paged p)

/-- A stream whose items are read as some other type, whatever the shape of the plan. -/
def streamAs (x : Executor) (p : Plan) : Except Error ItemStream := do
  p.checkOperation "query or scan" Operation.isPaged
  return .ofPlan (x.paged p)

section Stream
variable {σ α : Type} [Client σ]

/-- Fetches the next page. -/
def fetch (x : Executor) (s : ItemStream) (w : World σ) : Except Error ItemStream × World σ :=
  let (fetched, w) := x.fetchItems { s.plan with cursor := s.cursor } w
  (fetched.map fun (items, cursor) =>
    { s with buffer := s.buffer ++ items, cursor, lastFetched := cursor.isNone
             pages := s.pages + 1 }, w)

/-- The next record, or none behind the last.  As pages may be empty, it may take several
of them to find one; the outer option is none if `pages` of them were not enough. -/
def next (x : Executor) (read : Item → Except Error α) (pages : Nat) (s : ItemStream)
    (w : World σ) : Option (Except Error (Option α)) × ItemStream × World σ :=
  match s.buffer with
  | item :: buffer => (some ((read item).map some), { s with buffer }, w)
  | [] =>
    if s.lastFetched then (some (.ok none), s, w)
    else match pages with
      | 0 => (none, s, w)
      | pages + 1 =>
        match x.fetch s w with
        | (.error e, w) => (some (.error e), s, w)
        | (.ok s, w) => x.next read pages s w

/-- All records from here on, or the first error. -/
def collect (x : Executor) (read : Item → Except Error α) (pages : Nat) (s : ItemStream)
    (w : World σ) : Option (Except Error (List α)) × World σ :=
  match s.buffer.mapM read with
  | .error e => (some (.error e), w)
  | .ok records =>
    if s.lastFetched then (some (.ok records), w)
    else match pages with
      | 0 => (none, w)
      | pages + 1 =>
        match x.fetch { s with buffer := [] } w with
        | (.error e, w) => (some (.error e), w)
        | (.ok s, w) =>
          let (rest, w) := x.collect read pages s w
          (rest.map fun r => r.map (records ++ ·), w)

/-- The first `n` results, errors among them, or fewer if the stream ends before. -/
def drain (x : Executor) (read : Item → Except Error α) (pages : Nat) :
    Nat → ItemStream → World σ → List (Except Error α) × World σ
  | 0, _, w => ([], w)
  | n + 1, s, w =>
    match x.next read pages s w with
    | (some (.ok (some record)), s, w) =>
      let (rest, w) := x.drain read pages n s w
      (.ok record :: rest, w)
    | (some (.error e), s, w) =>
      let (rest, w) := x.drain read pages n s w
      (.error e :: rest, w)
    | (_, _, w) => ([], w)

end Stream
end Executor
end ItemStore
