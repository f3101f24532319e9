import ItemStore.Text.Quoted
/-!
# Errors

Everything that can go wrong, with its stable code and its message.  A class of error is a
constructor; the detail inside it is text, since several of them hold what a store or a
client said.  Only throttling is worth trying again: all other errors are final.
-/
namespace ItemStore

inductive Error where
  | schema (shape reason : String)
  | typeMismatch (path expected found : String)
  | malformedNumber (detail : String)
  | malformedAttribute (detail : String)
  | missingKeyCondition (detail : String)
  | unknownAttribute (shape name : String)
  | invalidQuery (detail : String)
  | invalidExpression (detail : String)
  | invalidCursor (detail : String)
  | invalidArgument (detail : String)
  | duplicateShape (detail : String)
  | registryClosed (detail : String)
  | shapeNotFound (detail : String)
  | conditionalCheckFailed (detail : String)
  /-- One entry for each write of the transaction: why the store refused it, if it did. -/
  | transactionCanceled (reasons : List (Option String))
  | throttled (detail : String)
  | capacityExceeded (attempts : Nat)
  | service (detail : String)
  deriving DecidableEq

/-- The reasons of a cancellation as a message lists them. -/
def showReasons (reasons : List (Option String)) : String :=
  let one : Option String → String
    | none => "None"
    | some text => s!"Some({Text.quoted text})"
  "[" ++ ", ".intercalate (reasons.map one) ++ "]"

namespace Error

def code : Error → String
  | schema .. => "SCHEMA_ERROR"
  | typeMismatch .. => "TYPE_MISMATCH"
  | malformedNumber _ => "MALFORMED_NUMBER"
  | malformedAttribute _ => "MALFORMED_ATTRIBUTE"
  | missingKeyCondition _ => "MISSING_KEY_CONDITION"
  | unknownAttribute .. => "UNKNOWN_ATTRIBUTE"
  | invalidQuery _ => "INVALID_QUERY"
  | invalidExpression _ => "INVALID_EXPRESSION"
  | invalidCursor _ => "INVALID_CURSOR"
  | invalidArgument _ => "INVALID_ARGUMENT"
  | duplicateShape _ => "DUPLICATE_SHAPE"
  | registryClosed _ => "REGISTRY_CLOSED"
  | shapeNotFound _ => "SHAPE_NOT_FOUND"
  | conditionalCheckFailed _ => "CONDITIONAL_CHECK_FAILED"
  | transactionCanceled _ => "TRANSACTION_CANCELED"
  | throttled _ => "THROTTLED"
  | capacityExceeded _ => "CAPACITY_EXCEEDED"
  | service _ => "SERVICE_ERROR"

def message : Error → String
  | schema shape reason => s!"Invalid shape '{shape}': {reason}"
  | typeMismatch path expected found =>
    s!"Type mismatch on '{path}': expected {expected}, found {found}"
  | malformedNumber detail => s!"Malformed number: {detail}"
  | malformedAttribute detail => s!"Malformed attribute: {detail}"
  | missingKeyCondition detail => s!"Missing key condition: {detail}"
  | unknownAttribute shape name => s!"Unknown attribute '{name}' on shape '{shape}'"
  | invalidQuery detail => s!"Invalid query: {detail}"
  | invalidExpression detail => s!"Invalid expression: {detail}"
  | invalidCursor detail => s!"Invalid cursor: {detail}"
  | invalidArgument detail => s!"Invalid argument: {detail}"
  | duplicateShape detail => s!"Shape already registered with a different definition: {detail}"
  | registryClosed detail => s!"Registry is sealed, cannot register: {detail}"
  | shapeNotFound detail => s!"Shape not found: {detail}"
  | conditionalCheckFailed detail => s!"Conditional check failed: {detail}"
  | transactionCanceled reasons => s!"Transaction canceled: {showReasons reasons}"
  | throttled detail => s!"Throttled: {detail}"
  | capacityExceeded attempts => s!"Capacity exceeded after {attempts} attempts"
  | service detail => s!"Service error: {detail}"

def isRetryable : Error → Bool
  | throttled _ => true
  | _ => false

/-- Puts an attribute name in front of the path of a mismatch found inside that attribute;
other errors stay. -/
def atAttribute (name : String) : Error → Error
  | typeMismatch inner expected found =>
    typeMismatch (if inner = "" then name else s!"{name}.{inner}") expected found
  | other => other

end Error
end ItemStore
