import ItemStore.Store.Table
/-!
# Views and pages

A query or a scan looks at a view of a table: the items that carry the key of what is read
and pass the key condition or fall into the segment, in the order of that key and then of
the table's.  A page is cut out of the view: it begins after the start key and takes as many
items as the limit says; only then is the filter applied.  So a page may be short, or empty,
and yet not be the last.  Where items are left behind the page, it says where it ended.
-/
namespace ItemStore
namespace Table

/-! ## Views -/

/-- The key of what is read, and whether that is a global index. -/
def source (t : Table) (index : Option String) : Except RequestFault (KeySchema × Bool) :=
  match index with
  | none => .ok (t.key, false)
  | some name =>
    match t.indexes.get? name with
    | some i => .ok (i.key, i.kind == .global)
    | none => .error (.noIndex name)

def readSource (t : Table) (r : Request) : Except RequestFault KeySchema := do
  let (key, isGlobal) ← t.source r.index
  if r.consistentRead && isGlobal then .error .consistentGlobal else .ok key

/-- The attributes that a view is ordered by, each once. -/
def viewNames (t : Table) (key : KeySchema) : List String := (key.names ++ t.key.names).eraseDups

/-- The items in the order of a view. -/
def inOrder (t : Table) (key : KeySchema) (items : List Item) : List Item :=
  items.mergeSort fun a b => itemOrder (t.viewNames key) a b != .gt

/-! ## Segments -/

/-- The hash FNV-1a of 64 bits. -/
def hash (bytes : List UInt8) : UInt64 :=
  bytes.foldl (fun h b => (h ^^^ b.toUInt64) * 0x100000001b3) 0xcbf29ce484222325

/-- What a partition value contributes to its hash. -/
def hashedBytes : Option Value → List UInt8
  | some (.string s) => s.toUTF8.toList
  | some (.number n) => n.text.toUTF8.toList
  | some (.binary b) => b
  | _ => []

/-- The segment, out of `total`, to which a partition value belongs. -/
def segmentOf (v : Option Value) (total : Nat) : Nat := (hash (hashedBytes v)).toNat % total

def inSegment (t : Table) (segment : Option Segment) (item : Item) : Bool :=
  match segment with
  | some s => segmentOf (item.get? t.key.partition) s.total == s.number
  | none => true

/-! ## Pages -/

/-- The names that a projection text lists; blanks around them and empty parts do not
count. -/
def projectedNames (b : Bindings) (text : String) : Except RequestFault (List String) :=
  let parts := (text.toList.splitOnP (· == ',')).map Text.trim
  expressionFault ((parts.filter (· ≠ [])).mapM fun part => b.name (String.ofList part))

/-- An item as a projection shows it. -/
def project (e : Expressions) (item : Item) : Except RequestFault Item :=
  match e.projection with
  | none => .ok item
  | some text => do return item.restrict (← projectedNames e.bindings text)

/-- An item comes after the start key, in the direction of reading. -/
def isAfter (names : List String) (forward : Bool) (start item : Item) : Bool :=
  itemOrder names item start == if forward then .gt else .lt

/-- What is left of a view behind the start key. -/
def remaining (names : List String) (forward : Bool) (start : Option Item) (view : List Item) :
    List Item :=
  match start with
  | some key => view.filter (isAfter names forward key)
  | none => view

/-- The items that pass a test, as they are shown; of two faults the first met counts. -/
def showPassing (passes : Item → Except RequestFault Bool)
    (shown : Item → Except RequestFault Item) : List Item → Except RequestFault (List Item)
  | [] => .ok []
  | x :: xs => do
    if ← passes x then
      let y ← shown x
      return y :: (← showPassing passes shown xs)
    else showPassing passes shown xs

/-- Whether an item passes a filter; without one, every item does. -/
def passes (b : Bindings) (filter : Option Formula) (item : Item) : Except RequestFault Bool :=
  match filter with
  | some f => expressionFault (f.holds b item)
  | none => .ok true

/-- The items of a page that pass the filter, as the projection shows them. -/
def served (e : Expressions) (items : List Item) : Except RequestFault (List Item) := do
  let filter ← e.filter.mapM fun text => expressionFault (Formula.parse text)
  showPassing (passes e.bindings filter) (project e) items

/-- Cuts a page out of a view. -/
def page (names : List String) (forward : Bool) (r : Request) (view : List Item) :
    Except RequestFault Response := do
  if r.limit = some 0 then .error .limit
  else
    let rest := remaining names forward r.start view
    let evaluated := rest.take (r.limit.getD rest.length)
    let items ← served r.expressions evaluated
    let last := if rest.length > evaluated.length
      then evaluated.getLast?.map fun item => item.restrict names else none
    return { items, last }

/-! ## The two reads -/

def query (t : Table) (r : Request) (condition : String) : Except RequestFault Response := do
  let key ← t.readSource r
  let f ← expressionFault (Formula.parse condition)
  let items ← (t.items.filter key.covers).filterM fun item =>
    expressionFault (f.holds r.expressions.bindings item)
  let view := t.inOrder key items
  page (t.viewNames key) r.forward r (if r.forward then view else view.reverse)

/-- A scan always reads forward. -/
def scan (t : Table) (r : Request) : Except RequestFault Response := do
  let key ← t.readSource r
  if r.segment.any fun s => s.total ≤ s.number then .error .segment
  else
    let items := t.items.filter fun item => key.covers item && t.inSegment r.segment item
    page (t.viewNames key) true r (t.inOrder key items)

end Table
end ItemStore
