import ItemStore.Expression.Token
import ItemStore.Expression.Writer
/-!
# Bindings

What the placeholders of an expression stand for.  A path that begins with `#` is a
placeholder and has to be bound; any other path is the name itself.
-/
namespace ItemStore

structure Bindings where
  names : Entries String := []
  values : Entries Value := []
  deriving DecidableEq

namespace Bindings

def name (b : Bindings) (path : String) : Except ExpressionFault String :=
  if path.toList.head? = some '#' then
    match b.names.get? path with
    | some name => .ok name
    | none => .error (.unboundName path)
  else .ok path

def value (b : Bindings) (placeholder : String) : Except ExpressionFault Value :=
  match b.values.get? placeholder with
  | some v => .ok v
  | none => .error (.unboundValue placeholder)

end Bindings

/-- The placeholders that a writer has handed out. -/
def Writer.bindings (w : Writer) : Bindings := ⟨w.boundNames, w.boundValues⟩

end ItemStore
