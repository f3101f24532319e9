import ItemStore.Expression.Condition
/-!
# Update actions

What an update does to one attribute of an item.  A whole update is a list of actions on
different attributes; none of them may touch the table's key, and none may take away what
the shape requires.
-/
namespace ItemStore

inductive UpdateAction where
  | set (name : String) (value : Value)
  | remove (name : String)
  | increment (name : String) (by_ : Numeral)
  | decrement (name : String) (by_ : Numeral)
  /-- Adds to a number, or elements to a set. -/
  | add (name : String) (value : Value)
  /-- Takes elements out of a set. -/
  | delete (name : String) (value : Value)
  /-- Adds elements at the end of a list. -/
  | append (name : String) (values : Value)
  deriving DecidableEq

namespace UpdateAction

def name : UpdateAction → String
  | set name _ | remove name | increment name _ | decrement name _ | add name _ | delete name _
  | append name _ => name

def isAddable : Kind → Bool
  | .number => true
  | kind => kind.isSet

def isList : Kind → Bool
  | .list _ => true
  | _ => false

/-- The rule for an attribute that is no part of the key. -/
def checkAttribute (a : Attribute) : UpdateAction → Except Error Unit
  | set name value =>
    if value.isNull then
      if a.nullable then .ok ()
      else .error (.invalidQuery s!"'{name}' is not nullable, use remove for optional attributes")
    else Condition.checkOperand a value
  | remove name =>
    if a.optional || a.nullable then .ok ()
    else .error (.invalidQuery s!"required attribute '{name}' cannot be removed")
  | increment name _ | decrement name _ =>
    if a.kind = .number then .ok ()
    else .error (.typeMismatch name Kind.number.display a.kind.display)
  | add name value =>
    if isAddable a.kind then Condition.checkOperand a value
    else .error
      (.invalidQuery s!"ADD needs a number or set attribute, '{name}' is {a.kind.display}")
  | delete name value =>
    if a.kind.isSet then Condition.checkOperand a value
    else .error (.invalidQuery s!"DELETE needs a set attribute, '{name}' is {a.kind.display}")
  | append name values =>
    if isList a.kind then Condition.checkOperand a values
    else .error (.invalidQuery s!"append needs a list attribute, '{name}' is {a.kind.display}")

def validate (shape : Descriptor) (action : UpdateAction) : Except Error Unit := do
  let a ← shape.requireAttribute action.name
  if shape.isTableKey action.name then
    .error (.invalidQuery s!"key attribute '{action.name}' cannot be updated")
  else action.checkAttribute a

/-- Checks actions after those on the attributes `seen`. -/
def validateAfter (shape : Descriptor) (seen : List String) :
    List UpdateAction → Except Error Unit
  | [] => .ok ()
  | action :: rest => do
    action.validate shape
    if action.name ∈ seen then
      .error (.invalidQuery s!"attribute '{action.name}' is updated more than once")
    else validateAfter shape (action.name :: seen) rest

/-- Checks a whole update. -/
def validateAll (shape : Descriptor) (actions : List UpdateAction) : Except Error Unit :=
  if actions = [] then .error (.invalidQuery "update has no actions")
  else validateAfter shape [] actions

end UpdateAction
end ItemStore
