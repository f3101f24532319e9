import ItemStore.Error
import ItemStore.Value.Written
/-!
# Page cursors

A page of results ends with the key after which the next one begins.  A cursor is that key
with the name of the shape it belongs to; outside the library it travels as a token, the
compact written form of the two in base 64.
-/
namespace ItemStore

structure PageCursor where
  shape : String
  key : Item
  deriving DecidableEq

namespace PageCursor

def toJson (c : PageCursor) : Json := .obj [("shape", .str c.shape), ("key", Item.toJson c.key)]

/-- Both members once each and in any order, with others beside them that do not count; or
the two of them as an array.  Only what is read is bounded in depth. -/
def ofJson? (j : Json) : Option PageCursor := do
  let (shape, key) ← match j with
    | .obj _ =>
      match j.fields "shape", j.fields "key" with
      | [shape], [key] => some (shape, key)
      | _, _ => none
    | .arr [shape, key] => some (shape, key)
    | _ => none
  if key.depth < Value.maxDepth then
    return ⟨← Value.readString? shape, ← Item.ofJson? key⟩
  else none

def token (c : PageCursor) : String :=
  String.ofList (Text.Base64.urlSafe.encode c.toJson.render.toUTF8.toList)

def ofToken? (token : String) : Option PageCursor := do
  let bytes ← Text.Base64.urlSafe.decode? token.toList
  let text ← String.fromUTF8? ⟨bytes.toArray⟩
  ofJson? (← Json.parse? text.length text)

def ofToken (token : String) : Except Error PageCursor :=
  match ofToken? token with
  | some c => .ok c
  | none => .error (.invalidCursor "not a cursor token")

/-- A cursor continues only requests for the shape it was issued for. -/
def checkShape (c : PageCursor) (shape : String) : Except Error Unit :=
  if c.shape = shape then .ok ()
  else .error (.invalidCursor s!"cursor was issued for shape '{c.shape}', not '{shape}'")

end PageCursor
end ItemStore
