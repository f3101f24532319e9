import ItemStore.Request.Reading
/-!
# Queries

A query reads the items of one partition, of the table or of an index.  What it asks of the
key is collected from two sides, a partition value with a sort condition, and predicates on
the key attributes joined by AND, and has to come to one equality on the partition key and
at most one condition on the sort key.  All else belongs into filters, which in turn must
leave the key alone.
-/
namespace ItemStore

/-- A condition on the sort key, whichever attribute that is. -/
inductive SortCondition where
  | equal (v : Value)
  | less (v : Value)
  | atMost (v : Value)
  | greater (v : Value)
  | atLeast (v : Value)
  | between (low high : Value)
  | beginsWith (start : Value)
  deriving DecidableEq

def SortCondition.on (name : String) : SortCondition → Condition
  | equal v => .compare name .eq v
  | less v => .compare name .lt v
  | atMost v => .compare name .le v
  | greater v => .compare name .gt v
  | atLeast v => .compare name .ge v
  | between low high => .between name low high
  | beginsWith start => .beginsWith name start

structure Query extends PagedRead where
  partition : Option Value := none
  sort : Option SortCondition := none
  keyConditions : List Condition := []
  forward : Bool := true

/-! ## The key condition -/

namespace Condition

/-- The parts of a condition that are joined by AND, left to right. -/
def conjuncts : Condition → Except Error (List Condition)
  | and left right => do
    let ls ← left.conjuncts
    return ls ++ (← right.conjuncts)
  | or .. | not _ => .error (.invalidQuery "key conditions can only be combined with AND")
  | leaf => .ok [leaf]

def isEquality : Condition → Bool
  | compare _ .eq _ => true
  | _ => false

/-- The conditions a sort key can be asked for. -/
def isSortCondition : Condition → Bool
  | compare _ op _ => op != .ne
  | between .. | beginsWith .. => true
  | _ => false

end Condition

/-- The conditions on the key attributes found so far. -/
structure KeyClauses where
  partition : Option Condition
  sort : Option Condition

/-- Takes in one more condition; `target` is what the query reads, for messages. -/
def KeyClauses.add (target : String) (key : KeySchema) (k : KeyClauses) (c : Condition) :
    Except Error KeyClauses :=
  let name := c.attributes.headD ""
  if name = key.partition then
    if c.isEquality = false then
      .error (.invalidQuery s!"partition key '{name}' only supports equality")
    else if k.partition.isSome then
      .error (.invalidQuery s!"more than one condition on partition key '{name}'")
    else .ok { k with partition := some c }
  else if some name = key.sort then
    if c.isSortCondition = false then
      .error (.invalidQuery s!"unsupported condition on sort key '{name}'")
    else if k.sort.isSome then
      .error (.invalidQuery s!"more than one condition on sort key '{name}'")
    else .ok { k with sort := some c }
  else .error (.invalidQuery s!"'{name}' is not a key attribute of {target}, use a filter")

namespace Query

/-- What the query reads, as messages name it. -/
def target (q : Query) : String :=
  match q.index with
  | some index => s!"index '{index}' of '{q.shape.name}'"
  | none => s!"'{q.shape.name}'"

def sortClause (q : Query) (key : KeySchema) : Except Error (Option Condition) :=
  match q.sort, key.sort with
  | some c, some name => .ok (some (c.on name))
  | some _, none =>
    .error (.invalidQuery s!"sort key condition on '{q.target}' which has no sort key")
  | none, _ => .ok none

/-- The one partition condition and the sort condition, if there is one. -/
def keyClauses (q : Query) (key : KeySchema) : Except Error (Condition × Option Condition) := do
  let sort ← q.sortClause key
  let partition := q.partition.map fun v => Condition.compare key.partition .eq v
  let leaves ← q.keyConditions.mapM Condition.conjuncts
  let k ← leaves.flatten.foldlM (KeyClauses.add q.target key) ⟨partition, sort⟩
  match k.partition with
  | some c => .ok (c, k.sort)
  | none => .error (.missingKeyCondition
      s!"query on {q.target} needs an equality condition on partition key '{key.partition}'")

/-! ## Building -/

def checkSort (shape : Descriptor) : Option Condition → Except Error Unit
  | some c => c.validate shape
  | none => .ok ()

/-- A filter must not speak of the key that is queried. -/
def checkFilter (key : KeySchema) (c : Condition) : Except Error Unit :=
  match c.attributes.find? fun name => key.names.contains name with
  | some name =>
    .error (.invalidQuery s!"filter on key attribute '{name}', use a key condition instead")
  | none => .ok ()

/-- The two parts stand side by side, without parentheses. -/
def writeKeyCondition (w : Writer) (partition : Condition) (sort : Option Condition) :
    String × Writer :=
  let (p, w) := w.condition partition
  match sort with
  | none => (p, w)
  | some c =>
    let (s, w) := w.condition c
    (s!"{p} AND {s}", w)

def build (q : Query) : Except Error Plan := do
  let key ← q.source
  let (partition, sort) ← q.keyClauses key
  partition.validate q.shape
  checkSort q.shape sort
  q.shape.checkConditions q.filters
  q.filters.forM (checkFilter key)
  q.shape.checkProjection q.projection
  checkLimit q.limit
  q.start.checkShape q.shape.name
  let (keyCondition, w) := writeKeyCondition Writer.empty partition sort
  return { q.plan (.query keyCondition) w with forward := q.forward }

end Query
end ItemStore
