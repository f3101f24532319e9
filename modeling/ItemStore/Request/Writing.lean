import ItemStore.Expression.UpdateAction
import ItemStore.Request.Key
/-!
# Writing one item

A put stores a whole item, a delete takes one away, an update changes some attributes of
one.  Each can be made to depend on conditions, all of which have to hold on the item as it
is; and each can answer with an image of the item, puts and deletes only with the old one.
-/
namespace ItemStore

/-- The conditions of a write, written out after what the writer holds already. -/
def Writer.conditionExpressions (w : Writer) (cs : List Condition) : Expressions :=
  let (condition, w) := w.conjunction cs
  w.expressions none condition none

/-- What a put or a delete can answer with. -/
def checkOldImage (what : String) (r : ReturnValues) : Except Error Unit :=
  if r = .nothing ∨ r = .allOld then .ok ()
  else .error (.invalidQuery s!"{what} cannot return {r.text}")

/-- What all writes share: what they depend on and what they answer with. -/
structure ItemWrite where
  shape : Descriptor
  conditions : List Condition := []
  returnValues : ReturnValues := .nothing

namespace ItemWrite

def addCondition (w : ItemWrite) (c : Condition) : ItemWrite :=
  { w with conditions := w.conditions ++ [c] }

/-- Only where the item is there already. -/
def ifExists (w : ItemWrite) : ItemWrite := w.addCondition (.present w.shape.key.partition)

/-- Only where no item has this key yet. -/
def ifNotExists (w : ItemWrite) : ItemWrite := w.addCondition (.absent w.shape.key.partition)

/-- The plan around an operation, with what the writer has already written. -/
def plan (w : ItemWrite) (operation : Operation) (writer : Writer) : Plan where
  shape := w.shape.name
  table := w.shape.table
  operation := operation
  expressions := writer.conditionExpressions w.conditions
  returnValues := w.returnValues

end ItemWrite

/-! ## Puts -/

structure Put extends ItemWrite where
  item : Item

namespace Put

def key (p : Put) : Except Error Item := p.shape.keyOfItem p.item

def build (p : Put) : Except Error Plan := do
  let _ ← p.key
  p.shape.checkConditions p.conditions
  checkOldImage "put" p.returnValues
  return p.plan (.put p.item) Writer.empty

end Put

/-! ## Deletes -/

/-- The item to delete, by its key or as a whole. -/
inductive DeleteTarget where
  | key (k : PrimaryKey)
  | item (item : Item)

structure Delete extends ItemWrite where
  target : DeleteTarget

namespace Delete

def key (d : Delete) : Except Error Item :=
  match d.target with
  | .key k => d.shape.keyItem k
  | .item item => d.shape.keyOfItem item

def build (d : Delete) : Except Error Plan := do
  let key ← d.key
  d.shape.checkConditions d.conditions
  checkOldImage "delete" d.returnValues
  return d.plan (.delete key) Writer.empty

end Delete

/-! ## Updates -/

structure Update extends ItemWrite where
  key : PrimaryKey
  actions : List UpdateAction := []

namespace Update

def addAction (u : Update) (a : UpdateAction) : Update := { u with actions := u.actions ++ [a] }

def keyItem (u : Update) : Except Error Item := u.shape.keyItem u.key

def build (u : Update) : Except Error Plan := do
  let key ← u.keyItem
  UpdateAction.validateAll u.shape u.actions
  u.shape.checkConditions u.conditions
  let (update, w) := Writer.empty.update u.actions
  return u.plan (.update key update) w

end Update
end ItemStore
