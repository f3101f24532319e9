import ItemStore.Text.Json
import ItemStore.Value.Basic
/-!
# The written form of values

A value is written as a JSON object with one member: the tag of its type and its content.
A null is `true` under its tag, binary content is base 64, and numbers are their decimal
texts.  Reading takes that form only; of two entries with one name inside a map the later
counts, but every one of them has to be a value.
-/
namespace ItemStore
namespace Value

mutual

def toJson : Value → Json
  | string s => .obj [("S", .str s)]
  | number n => .obj [("N", .str n.text)]
  | binary b => .obj [("B", .str (String.ofList (Text.Base64.standard.encode b)))]
  | boolean b => .obj [("BOOL", .bool b)]
  | null => .obj [("NULL", .bool true)]
  | stringSet xs => .obj [("SS", .arr (xs.map Json.str))]
  | numberSet xs => .obj [("NS", .arr (xs.map fun n => .str n.text))]
  | binarySet xs =>
    .obj [("BS", .arr (xs.map fun b => .str (String.ofList (Text.Base64.standard.encode b))))]
  | list xs => .obj [("L", .arr (toJsonList xs))]
  | map es => .obj [("M", .obj (toJsonEntries es))]

def toJsonList : List Value → List Json
  | [] => []
  | x :: xs => toJson x :: toJsonList xs

def toJsonEntries : List (String × Value) → List (String × Json)
  | [] => []
  | (name, x) :: es => (name, toJson x) :: toJsonEntries es

end

/-! ## Reading -/

def readString? : Json → Option String
  | .str s => some s
  | _ => none

def readNumeral? : Json → Option Numeral
  | .str s => (Numeral.parse s).toOption
  | _ => none

def readBytes? : Json → Option Bytes
  | .str s => Text.Base64.standard.decode? s.toList
  | _ => none

mutual

def ofJson? : Json → Option Value
  | .obj [(tag, content)] =>
    match WireType.ofTag? tag with
    | some .list =>
      match content with
      | .arr xs => (ofJsonList? xs).map list
      | _ => none
    | some .map =>
      match content with
      | .obj ms => (ofJsonMembers? ms).map fun es => map (Entries.ofList es)
      | _ => none
    | some .string => (readString? content).map string
    | some .number => (readNumeral? content).map number
    | some .binary => (readBytes? content).map binary
    | some .boolean =>
      match content with
      | .bool b => some (boolean b)
      | _ => none
    | some .null =>
      match content with
      | .bool true => some null
      | _ => none
    | some .stringSet =>
      match content with
      | .arr xs => (xs.mapM readString?).map stringSet
      | _ => none
    | some .numberSet =>
      match content with
      | .arr xs => (xs.mapM readNumeral?).map numberSet
      | _ => none
    | some .binarySet =>
      match content with
      | .arr xs => (xs.mapM readBytes?).map binarySet
      | _ => none
    | none => none
  | _ => none

def ofJsonList? : List Json → Option (List Value)
  | [] => some []
  | x :: xs => do
    let v ← ofJson? x
    let vs ← ofJsonList? xs
    return v :: vs

def ofJsonMembers? : List (String × Json) → Option (List (String × Value))
  | [] => some []
  | (name, x) :: ms => do
    let v ← ofJson? x
    let vs ← ofJsonMembers? ms
    return (name, v) :: vs

end

/-- The deepest nesting of arrays and objects that is read. -/
def maxDepth : Nat := 127

def parse? (text : String) : Option Value := (Json.parse? maxDepth text).bind ofJson?

end Value

namespace Item

def toJson (item : Item) : Json := .obj (Value.toJsonEntries item)

def ofJson? : Json → Option Item
  | .obj ms => (Value.ofJsonMembers? ms).map Entries.ofList
  | _ => none

end Item
end ItemStore
