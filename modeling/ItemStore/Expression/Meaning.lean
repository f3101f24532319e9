import ItemStore.Expression.Combination
import ItemStore.Expression.UpdateAction
/-!
# What conditions and update actions mean

The meaning of a condition is whether it holds of an item, that of an update action the item
it makes of another.  Both are said directly of the item's attributes, without any text,
placeholders or clauses in between; what the store makes of a written expression is
measured by them.
-/
namespace ItemStore

namespace Condition

/-- An attribute that an item lacks is unequal to everything and passes no other test. -/
def holds (item : Item) : Condition → Bool
  | compare name op v => op.holds (item.get? name) (some v)
  | between name low high =>
    Comparator.ge.holds (item.get? name) (some low)
      && Comparator.le.holds (item.get? name) (some high)
  | isIn name vs => (item.get? name).any fun x => vs.any x.equal
  | beginsWith name start => (item.get? name).any fun x => x.beginsWith start
  | contains name part => (item.get? name).any fun x => x.contains part
  | present name => item.has name
  | absent name => !item.has name
  | hasType name t => (item.get? name).any fun x => x.wireType == t
  | and left right => left.holds item && right.holds item
  | or left right => left.holds item || right.holds item
  | not inner => !inner.holds item

/-- Whether all of the conditions hold. -/
def allHold (item : Item) (cs : List Condition) : Bool := cs.all (holds item)

end Condition

namespace UpdateAction

/-- The value that an attribute has to have for the action to act on it. -/
def oldValue (item : Item) (name : String) : Except ExpressionFault Value :=
  match item.get? name with
  | some v => .ok v
  | none => .error (.missingAttribute name)

/-- What becomes of the attribute; none if it goes. -/
def newValue (item : Item) : UpdateAction → Except ExpressionFault (Option Value)
  | set _ v => .ok (some v)
  | remove _ => .ok none
  | increment name x => do
    return some (← Value.arithmetic false (← oldValue item name) (.number x))
  | decrement name x => do
    return some (← Value.arithmetic true (← oldValue item name) (.number x))
  | add name v => do return some (← Value.add (item.get? name) v)
  | delete name v =>
    match item.get? name with
    | some old => old.delete v
    | none => .ok none
  | append name vs => do return some (← (← oldValue item name).append vs)

def apply (item : Item) (u : UpdateAction) : Except ExpressionFault Item := do
  match ← u.newValue item with
  | some v => return item.put u.name v
  | none => return item.remove u.name

/-- One action after the other, each on what the one before has made. -/
def applyAll (item : Item) (us : List UpdateAction) : Except ExpressionFault Item :=
  us.foldlM apply item

end UpdateAction
end ItemStore
