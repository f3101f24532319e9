import ItemStore.Expression.UpdateAction
/-!
# Writing expressions

Requests carry conditions, updates and projections as text in which every attribute name
stands behind a placeholder `#n0`, `#n1`, … and every value behind a placeholder `:v0`,
`:v1`, ….  The writer hands placeholders out in order of use: a name used twice keeps its
placeholder, a value never does.  So the same calls always give the same texts, and the
writer's two lists say at the end what the placeholders stand for.
-/
namespace ItemStore

structure Writer where
  /-- The names handed out so far; the placeholder of each is its position. -/
  names : List String
  values : List Value

namespace Writer

def empty : Writer := ⟨[], []⟩

def namePlaceholder (i : Nat) : String := s!"#n{i}"

def valuePlaceholder (i : Nat) : String := s!":v{i}"

def name (w : Writer) (a : String) : String × Writer :=
  match w.names.idxOf? a with
  | some i => (namePlaceholder i, w)
  | none => (namePlaceholder w.names.length, { w with names := w.names ++ [a] })

def value (w : Writer) (v : Value) : String × Writer :=
  (valuePlaceholder w.values.length, { w with values := w.values ++ [v] })

/-- A name and a value, in that order. -/
def nameValue (w : Writer) (a : String) (v : Value) : String × String × Writer :=
  let (n, w) := w.name a
  let (v, w) := w.value v
  (n, v, w)

def valueList (w : Writer) : List Value → List String × Writer
  | [] => ([], w)
  | v :: vs =>
    let (p, w) := w.value v
    let (ps, w) := w.valueList vs
    (p :: ps, w)

/-! ## Conditions -/

def condition (w : Writer) : Condition → String × Writer
  | .compare a op v =>
    let (n, v, w) := w.nameValue a v
    (s!"{n} {op.symbol} {v}", w)
  | .between a low high =>
    let (n, low, w) := w.nameValue a low
    let (high, w) := w.value high
    (s!"{n} BETWEEN {low} AND {high}", w)
  | .isIn a vs =>
    let (n, w) := w.name a
    let (ps, w) := w.valueList vs
    let list := ", ".intercalate ps
    (s!"{n} IN ({list})", w)
  | .beginsWith a v =>
    let (n, v, w) := w.nameValue a v
    (s!"begins_with({n}, {v})", w)
  | .contains a v =>
    let (n, v, w) := w.nameValue a v
    (s!"contains({n}, {v})", w)
  | .present a =>
    let (n, w) := w.name a
    (s!"attribute_exists({n})", w)
  | .absent a =>
    let (n, w) := w.name a
    (s!"attribute_not_exists({n})", w)
  | .hasType a t =>
    let (n, v, w) := w.nameValue a (.string t.tag)
    (s!"attribute_type({n}, {v})", w)
  | .and left right =>
    let (l, w) := w.condition left
    let (r, w) := w.condition right
    (s!"({l}) AND ({r})", w)
  | .or left right =>
    let (l, w) := w.condition left
    let (r, w) := w.condition right
    (s!"({l}) OR ({r})", w)
  | .not inner =>
    let (x, w) := w.condition inner
    (s!"NOT ({x})", w)

def conditionList (w : Writer) : List Condition → List String × Writer
  | [] => ([], w)
  | c :: cs =>
    let (text, w) := w.condition c
    let (texts, w) := w.conditionList cs
    (text :: texts, w)

/-- All of the conditions; one stands without parentheses, none gives no text. -/
def conjunction (w : Writer) : List Condition → Option String × Writer
  | [] => (none, w)
  | [c] =>
    let (text, w) := w.condition c
    (some text, w)
  | cs =>
    let (texts, w) := w.conditionList cs
    (some (" AND ".intercalate (texts.map fun text => s!"({text})")), w)

/-! ## Updates

Actions are written in the order given, then gathered under the clause they belong to. -/

inductive Clause where
  | set | remove | add | delete
  deriving DecidableEq

namespace Clause

def all : List Clause := [set, remove, add, delete]

def keyword : Clause → String
  | set => "SET"
  | remove => "REMOVE"
  | add => "ADD"
  | delete => "DELETE"

end Clause

def action (w : Writer) : UpdateAction → Clause × String × Writer
  | .set a v =>
    let (n, v, w) := w.nameValue a v
    (.set, s!"{n} = {v}", w)
  | .increment a x =>
    let (n, v, w) := w.nameValue a (.number x)
    (.set, s!"{n} = {n} + {v}", w)
  | .decrement a x =>
    let (n, v, w) := w.nameValue a (.number x)
    (.set, s!"{n} = {n} - {v}", w)
  | .append a v =>
    let (n, v, w) := w.nameValue a v
    (.set, s!"{n} = list_append({n}, {v})", w)
  | .remove a =>
    let (n, w) := w.name a
    (.remove, n, w)
  | .add a v =>
    let (n, v, w) := w.nameValue a v
    (.add, s!"{n} {v}", w)
  | .delete a v =>
    let (n, v, w) := w.nameValue a v
    (.delete, s!"{n} {v}", w)

def actionList (w : Writer) : List UpdateAction → List (Clause × String) × Writer
  | [] => ([], w)
  | u :: us =>
    let (clause, text, w) := w.action u
    let (rest, w) := w.actionList us
    ((clause, text) :: rest, w)

/-- The clause with the texts that belong to it, if there are any. -/
def clauseText? (parts : List (Clause × String)) (clause : Clause) : Option String :=
  match (parts.filter fun p => p.1 == clause).map Prod.snd with
  | [] => none
  | texts => some (clause.keyword ++ " " ++ ", ".intercalate texts)

def update (w : Writer) (actions : List UpdateAction) : String × Writer :=
  let (parts, w) := w.actionList actions
  (" ".intercalate (Clause.all.filterMap (clauseText? parts)), w)

/-! ## Projections and the bindings -/

def nameList (w : Writer) : List String → List String × Writer
  | [] => ([], w)
  | a :: as =>
    let (n, w) := w.name a
    let (ns, w) := w.nameList as
    (n :: ns, w)

def projection (w : Writer) (names : List String) : String × Writer :=
  let (ns, w) := w.nameList names
  (", ".intercalate ns, w)

/-- Each placeholder of a name with the name, in order of first use. -/
def boundNames (w : Writer) : Entries String :=
  w.names.zipIdx.map fun (a, i) => (namePlaceholder i, a)

def boundValues (w : Writer) : Entries Value :=
  w.values.zipIdx.map fun (v, i) => (valuePlaceholder i, v)

end Writer
end ItemStore
