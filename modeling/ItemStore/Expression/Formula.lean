import ItemStore.Expression.Bindings
/-!
# Formulas

A formula is a condition as the store reads it: comparisons, tests and their combinations
over paths and value placeholders.  The grammar lets any formula stand where an operand is
needed; only paths and placeholders are operands when it is evaluated.  Evaluation goes from
left to right and stops as soon as the answer is known, so a fault behind that point is
never met.
-/
namespace ItemStore

inductive Formula where
  | compare (op : Comparator) (left right : Formula)
  | between (x low high : Formula)
  | isIn (x : Formula) (candidates : List Formula)
  | and (left right : Formula)
  | or (left right : Formula)
  | not (inner : Formula)
  | present (path : String)
  | absent (path : String)
  | hasType (path : String) (tag : Formula)
  | beginsWith (x start : Formula)
  | contains (x part : Formula)
  | path (path : String)
  | value (placeholder : String)
  deriving Inhabited

namespace Formula

/-- What an operand stands for; a path to an attribute the item lacks stands for nothing. -/
def resolve (b : Bindings) (item : Item) : Formula → Except ExpressionFault (Option Value)
  | path p => do return item.get? (← b.name p)
  | value p => do return some (← b.value p)
  | _ => .error .notAnOperand

/-- Both operands are there and the test holds of them. -/
def test (f : Value → Value → Bool) : Option Value → Option Value → Bool
  | some x, some y => f x y
  | _, _ => false

/-- Whether one of the candidates equals `x`; the first that does ends the search. -/
def equalsOne (b : Bindings) (item : Item) (x : Value) :
    List Formula → Except ExpressionFault Bool
  | [] => .ok false
  | c :: cs => do
    if test Value.equal (some x) (← c.resolve b item) then return true
    else equalsOne b item x cs

/-- Whether the formula holds of an item. -/
def holds (b : Bindings) (item : Item) : Formula → Except ExpressionFault Bool
  | compare op left right => do
    let l ← left.resolve b item
    return op.holds l (← right.resolve b item)
  | between x low high => do
    let v ← x.resolve b item
    if Comparator.ge.holds v (← low.resolve b item) then
      return Comparator.le.holds v (← high.resolve b item)
    else return false
  | isIn x candidates => do
    match ← x.resolve b item with
    | some v => equalsOne b item v candidates
    | none => return false
  | and left right => do
    if ← left.holds b item then right.holds b item else return false
  | or left right => do
    if ← left.holds b item then return true else right.holds b item
  | not inner => do return !(← inner.holds b item)
  | present p => do return item.has (← b.name p)
  | absent p => do return !item.has (← b.name p)
  | hasType p tag => do
    let name ← b.name p
    match ← tag.resolve b item with
    | some (.string t) => return (item.get? name).any fun v => v.wireType.tag == t
    | _ => .error .typeWord
  | beginsWith x start => do
    let v ← x.resolve b item
    return test Value.beginsWith v (← start.resolve b item)
  | contains x part => do
    let v ← x.resolve b item
    return test Value.contains v (← part.resolve b item)
  | path _ | value _ => .error .notACondition

end Formula
end ItemStore
