import ItemStore.Expression.Change
import ItemStore.Value.Written
/-!
# The written form of conditions, actions, formulas and changes

A condition as a JSON document: `c` says which one, `a` is the attribute, and the operands
stand under names of their own.  An action is written likewise, with `u` for its kind.
Formulas and changes are written as arrays with the operator in front.
-/
namespace ItemStore
namespace Comparator

/-- The word for the comparison. -/
def word : Comparator → String
  | eq => "eq"
  | ne => "ne"
  | lt => "lt"
  | le => "le"
  | gt => "gt"
  | ge => "ge"

def ofWord? (s : String) : Option Comparator := all.find? fun op => op.word == s

end Comparator

/-- The value under a name. -/
def Value.member? (name : String) (j : Json) : Option Value := Value.ofJson? (j.member name)

namespace Condition

/-- Conditions on one attribute. -/
def leafOfJson? (word name : String) (j : Json) : Option Condition :=
  match word with
  | "begins_with" => (Value.member? "v" j).map (beginsWith name)
  | "contains" => (Value.member? "v" j).map (contains name)
  | "between" => do return between name (← Value.member? "lo" j) (← Value.member? "hi" j)
  | "in" => ((j.member "vs").elements.mapM Value.ofJson?).map (isIn name)
  | "exists" => some (present name)
  | "not_exists" => some (absent name)
  | "is_null" => some (isNull name)
  | "is_not_null" => some (isNotNull name)
  | "is_type" => do return hasType name (← WireType.ofTag? (← (j.member "t").asString?))
  | word => do return compare name (← Comparator.ofWord? word) (← Value.member? "v" j)

/-- A document nested at most `depth` times. -/
def ofJsonWithin? : Nat → Json → Option Condition
  | 0, _ => none
  | depth + 1, j => do
    match ← (j.member "c").asString? with
    | "and" =>
      return and (← ofJsonWithin? depth (j.member "l")) (← ofJsonWithin? depth (j.member "r"))
    | "or" =>
      return or (← ofJsonWithin? depth (j.member "l")) (← ofJsonWithin? depth (j.member "r"))
    | "not" => return not (← ofJsonWithin? depth (j.member "x"))
    | word => leafOfJson? word (← (j.member "a").asString?) j

def ofJson? (j : Json) : Option Condition := ofJsonWithin? j.depth j

end Condition

/-! ## Actions -/

namespace UpdateAction

/-- The number text of an action is checked on its own. -/
def ofJson? (j : Json) : Option (Except Error UpdateAction) := do
  let name ← (j.member "a").asString?
  let withValue (make : String → Value → UpdateAction) : Option (Except Error UpdateAction) :=
    (Value.member? "v" j).map fun v => .ok (make name v)
  let withNumber (make : String → Numeral → UpdateAction) : Option (Except Error UpdateAction) :=
    (j.member "by").asString?.map fun text => (Numeral.parse text).map (make name)
  match ← (j.member "u").asString? with
  | "set" => withValue set
  | "add" => withValue add
  | "delete" => withValue delete
  | "append" => withValue append
  | "remove" => return .ok (remove name)
  | "inc" => withNumber increment
  | "dec" => withNumber decrement
  | _ => none

end UpdateAction

/-! ## Formulas and changes -/

/-- An operator and its operands. -/
def Json.term (operator : String) (operands : List Json) : Json := .arr (.str operator :: operands)

namespace Formula

mutual

def toJson : Formula → Json
  | compare op left right => .term op.symbol [left.toJson, right.toJson]
  | between x low high => .term "between" [x.toJson, low.toJson, high.toJson]
  | isIn x candidates => .term "in" [x.toJson, .arr (listToJson candidates)]
  | and left right => .term "and" [left.toJson, right.toJson]
  | or left right => .term "or" [left.toJson, right.toJson]
  | not inner => .term "not" [inner.toJson]
  | present p => .term "attribute_exists" [.str p]
  | absent p => .term "attribute_not_exists" [.str p]
  | hasType p tag => .term "attribute_type" [.str p, tag.toJson]
  | beginsWith x start => .term "begins_with" [x.toJson, start.toJson]
  | contains x part => .term "contains" [x.toJson, part.toJson]
  | path p => .term "path" [.str p]
  | value p => .term "value" [.str p]

def listToJson : List Formula → List Json
  | [] => []
  | f :: fs => f.toJson :: listToJson fs

end

end Formula

def Term.toJson : Term → Json
  | value p => .term "value" [.str p]
  | path p => .term "path" [.str p]
  | plus left right => .term "+" [left.toJson, right.toJson]
  | minus left right => .term "-" [left.toJson, right.toJson]
  | append left right => .term "list_append" [left.toJson, right.toJson]

def Change.toJson : Change → Json
  | set p x => .term "SET" [.str p, x.toJson]
  | remove p => .term "REMOVE" [.str p]
  | add p x => .term "ADD" [.str p, x.toJson]
  | delete p x => .term "DELETE" [.str p, x.toJson]

end ItemStore
