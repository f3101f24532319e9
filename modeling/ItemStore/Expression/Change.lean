import ItemStore.Expression.Combination
import ItemStore.Expression.Parse
/-!
# Changes

A change is one step of an update as the store reads it.  The changes of an update are
applied in order; the operands of a change always speak of the item as it was before the
update, while ADD and DELETE act on what the changes before have left.
-/
namespace ItemStore

/-- What a SET or an ADD computes. -/
inductive Term where
  | value (placeholder : String)
  | path (path : String)
  | plus (left right : Term)
  | minus (left right : Term)
  | append (left right : Term)
  deriving DecidableEq

inductive Change where
  | set (path : String) (term : Term)
  | remove (path : String)
  | add (path : String) (term : Term)
  | delete (path : String) (term : Term)
  deriving DecidableEq

/-! ## Applying -/

namespace Term

def eval (b : Bindings) (item : Item) : Term → Except ExpressionFault Value
  | value p => b.value p
  | path p => do
    let name ← b.name p
    match item.get? name with
    | some v => return v
    | none => .error (.missingAttribute name)
  | plus left right => do
    let l ← left.eval b item
    Value.arithmetic false l (← right.eval b item)
  | minus left right => do
    let l ← left.eval b item
    Value.arithmetic true l (← right.eval b item)
  | append left right => do
    let l ← left.eval b item
    Value.append l (← right.eval b item)

end Term

/-- An attribute that has become `v`, or has gone. -/
def Entries.write (item : Item) (name : String) : Option Value → Item
  | some v => item.put name v
  | none => item.remove name

namespace Change

def path : Change → String
  | set p _ | remove p | add p _ | delete p _ => p

/-- One change of `item`, in an update of what was `before`. -/
def apply (b : Bindings) (before item : Item) (c : Change) : Except ExpressionFault Item := do
  let name ← b.name c.path
  match c with
  | set _ term => return item.put name (← term.eval b before)
  | remove _ => return item.remove name
  | add _ term =>
    let v ← term.eval b before
    return item.put name (← Value.add (item.get? name) v)
  | delete _ term =>
    let v ← term.eval b before
    match item.get? name with
    | none => return item
    | some old => return Entries.write item name (← Value.delete old v)

def applyAll (b : Bindings) (before : Item) (cs : List Change) : Except ExpressionFault Item :=
  cs.foldlM (apply b before) before

end Change

/-! ## Reading

    update  = clause+
    clause  = SET change ("," change)* | REMOVE … | ADD … | DELETE …

A SET takes a term with at most one `+` or `-`, an ADD or a DELETE a single operand.  A
clause may come more than once. -/

namespace Term

open Token (expect)

/-- The fuel is the number of functions that may be nested. -/
def readOperand : Nat → List Token → Parsed (Reading Term)
  | _, .identifier p :: ts | _, .name p :: ts => .ok (path p, ts)
  | _, .value p :: ts => .ok (value p, ts)
  | fuel + 1, .keyword .listAppend :: ts => do
    let ts ← expect .opening ts
    let (left, ts) ← readOperand fuel ts
    let ts ← expect .comma ts
    let (right, ts) ← readOperand fuel ts
    return (append left right, ← expect .closing ts)
  | _, ts => .error (.updateOperand ts.head?)

def read (fuel : Nat) (ts : List Token) : Parsed (Reading Term) := do
  let (left, ts) ← readOperand fuel ts
  match ts with
  | .plus :: ts =>
    let (right, ts) ← readOperand fuel ts
    return (plus left right, ts)
  | .minus :: ts =>
    let (right, ts) ← readOperand fuel ts
    return (minus left right, ts)
  | ts => return (left, ts)

end Term

namespace Change

open Token (expect takePath)

/-- One change of the clause that a keyword begins. -/
def read (clause : Token) (fuel : Nat) (ts : List Token) : Parsed (Reading Change) :=
  match clause with
  | .keyword .set => do
    let (p, ts) ← takePath "SET" ts
    let ts ← expect (.compare .eq) ts
    let (x, ts) ← Term.read fuel ts
    return (set p x, ts)
  | .keyword .remove => do
    let (p, ts) ← takePath "REMOVE" ts
    return (remove p, ts)
  | .keyword .add => do
    let (p, ts) ← takePath "ADD" ts
    let (x, ts) ← Term.readOperand fuel ts
    return (add p x, ts)
  | .keyword .delete => do
    let (p, ts) ← takePath "DELETE" ts
    let (x, ts) ← Term.readOperand fuel ts
    return (delete p x, ts)
  | other => .error (.clause other)

/-- The changes of a clause and all clauses after it, at most `fuel` changes. -/
def readClause (clause : Token) : Nat → List Token → Parsed (List Change)
  | 0, ts => .error (.updateOperand ts.head?)
  | fuel + 1, ts => do
    let (c, ts) ← read clause fuel ts
    match ts with
    | [] => return [c]
    | .comma :: ts => return c :: (← readClause clause fuel ts)
    | next :: ts => return c :: (← readClause next fuel ts)

/-- Reads all tokens as one update.  Every change takes a token, and so does every function,
so the fuel lasts. -/
def ofTokens : List Token → Parsed (List Change)
  | [] => .error .emptyUpdate
  | clause :: ts => readClause clause (ts.length + 1) ts

def parse (text : String) : Parsed (List Change) := do
  ofTokens (← Token.scan text.toList)

end Change
end ItemStore
