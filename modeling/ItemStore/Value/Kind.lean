import ItemStore.Value.Basic
/-!
# Attribute kinds

The type that a shape declares for an attribute.  It says more than a wire type about what
is inside lists and maps, and less about documents, whose content has mappers of its own.
-/
namespace ItemStore

inductive Kind where
  | string | number | binary | boolean
  | stringSet | numberSet | binarySet
  | list (element : Kind)
  | map (element : Kind)
  /-- A nested record, by the name of its type. -/
  | document (name : String)
  deriving DecidableEq

namespace Kind

def display : Kind → String
  | string => "string"
  | number => "number"
  | binary => "binary"
  | boolean => "boolean"
  | stringSet => "string set"
  | numberSet => "number set"
  | binarySet => "binary set"
  | list element => s!"list<{element.display}>"
  | map element => s!"map<{element.display}>"
  | document name => s!"document {name}"

/-- The kinds that key attributes, of tables and of indexes, may have. -/
def isKeyScalar : Kind → Bool
  | string | number | binary => true
  | _ => false

def isSet : Kind → Bool
  | stringSet | numberSet | binarySet => true
  | _ => false

/-- The kind of the elements of a set or a list. -/
def element? : Kind → Option Kind
  | stringSet => some .string
  | numberSet => some .number
  | binarySet => some .binary
  | list element => some element
  | _ => none

/-- Whether a value has the kind.  A set must not be empty; elements of lists and maps may
be null; a document is any map. -/
def accepts : Kind → Value → Bool
  | string, .string _ => true
  | number, .number _ => true
  | binary, .binary _ => true
  | boolean, .boolean _ => true
  | stringSet, .stringSet xs => !xs.isEmpty
  | numberSet, .numberSet xs => !xs.isEmpty
  | binarySet, .binarySet xs => !xs.isEmpty
  | list element, .list xs => xs.all fun x => x.isNull || element.accepts x
  | map element, .map es => es.all fun e => e.2.isNull || element.accepts e.2
  | document _, .map _ => true
  | _, _ => false

end Kind
end ItemStore
