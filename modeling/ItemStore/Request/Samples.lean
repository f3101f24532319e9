import ItemStore.Expression.Field
import ItemStore.Record.Samples
import ItemStore.Request.Query
import ItemStore.Request.Several
/-!
# Sample requests

What a shop does with its orders and customers, as requests on the sample shapes.
-/
namespace ItemStore
namespace Samples

/-! ## Shapes and fields -/

/-- The descriptor of an accepted declaration; a refused one has no attributes. -/
def descriptorOf (d : Declaration) : Descriptor :=
  match d.compile with
  | .ok descriptor => descriptor
  | .error _ => { name := d.name, table := d.table, attributes := [], key := ⟨"", none⟩, indexes := [] }

def orders : Descriptor := descriptorOf (declarationOf orderDefinition)

def customers : Descriptor := descriptorOf (declarationOf customerDefinition)

/-- The handle of that name, on an order or a customer. -/
def field? (handle : String) : Option Field :=
  [orderDefinition, customerDefinition].findSome? fun d => d.shape.toOption.bind (·.field? handle)

/-! ## Orders -/

def orderKey (id created : String) : PrimaryKey :=
  { partition := .string id, sort := some (.string created) }

def getOrder (id created : String) : Get := { shape := orders, key := orderKey id created }

def putOrder (id created : String) (total : Int) : Put :=
  { shape := orders, item := orderItem id created total }

/-- Only where there is no such order yet. -/
def placeOrder (id created : String) (total : Int) : Put :=
  let p := putOrder id created total
  { p with toItemWrite := p.ifNotExists }

/-- Deletes an order that is cheap enough, and shows it. -/
def cancelOrder (id created : String) (below : Int) : Delete :=
  { shape := orders, target := .key (orderKey id created), returnValues := .allOld
    conditions := [.compare "total" .lt (.ofInt below)] }

/-- Deletes an order that has to be there. -/
def removeOrder (id created : String) : Delete :=
  let w : ItemWrite := { shape := orders }
  { w.ifExists with target := .key (orderKey id created) }

def deleteOrder (id created : String) (total : Int) : Delete :=
  { shape := orders, target := .item (orderItem id created total) }

/-- Pays a part of the total, if it is not more than that. -/
def payOrder (id created : String) (amount : Int) : Update :=
  { shape := orders, key := orderKey id created, returnValues := .allNew
    actions := [.decrement "total" (.ofInt amount), .append "history" (.list [.string "paid"]),
      .add "tags" (.stringSet ["paid"]), .set "note" (.string created), .set "coupon" .null]
    conditions := [.compare "total" .ge (.ofInt amount)] }

/-- Takes back what paying has noted. -/
def clearOrder (id created : String) : Update :=
  { shape := orders, key := orderKey id created, returnValues := .updatedOld
    actions := [.remove "note", .delete "tags" (.stringSet ["paid"])]
    conditions := [.and (.isNull "coupon") (.present "note")] }

/-- Cannot be built, since it changes the key. -/
def moveOrder (id created : String) : Update :=
  { shape := orders, key := orderKey id created, actions := [.set "createdAt" (.string "moved")] }

def ordersAtLeast (id : String) (total : Int) : Query :=
  { shape := orders, partition := some (.string id), limit := some 2
    filters := [.compare "total" .ge (.ofInt total)] }

/-- The latest first. -/
def ordersSince (id created : String) : Query :=
  { shape := orders, partition := some (.string id), sort := some (.greater (.string created))
    forward := false }

def ordersOfCustomer (customer created : String) : Query :=
  { shape := orders, index := some "byCustomer", partition := some (.string customer)
    sort := some (.beginsWith (.string created)) }

def ordersUpTo (id : String) (total : Int) : Query :=
  { shape := orders, index := some "byTotal", partition := some (.string id)
    sort := some (.atMost (.ofInt total)), limit := some 1 }

/-! ## Customers -/

def customerKey (id : String) : PrimaryKey := { partition := .string id }

def getCustomer (id : String) : Get := { shape := customers, key := customerKey id }

def putCustomer (id name : String) : Put := { shape := customers, item := customerItem id name }

def countVisits (id : String) (visits : Numeral) : Update :=
  { shape := customers, key := customerKey id, actions := [.increment "visits" visits] }

/-- Sets the address for mail of a customer who is there. -/
def setMail (id mail : String) : Update :=
  let w : ItemWrite := { shape := customers }
  { w.ifExists with key := customerKey id, actions := [.set "mail" (.string mail)] }

end Samples
end ItemStore
