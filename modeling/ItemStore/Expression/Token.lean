import ItemStore.Error
import ItemStore.Text.CharCase
import ItemStore.Text.CharClass
import ItemStore.Value.Comparison
/-!
# Tokens of expressions

The store reads expressions as text.  White space separates tokens where nothing else does;
a word is a keyword in any case, else an identifier; `#` and `:` begin the placeholders of
names and values.  `Token.scan` splits a text into tokens or meets a character that begins
none.
-/
namespace ItemStore

inductive Keyword where
  | and | or | not | between | isIn
  | set | remove | add | delete
  | attributeExists | attributeNotExists | attributeType | beginsWith | contains | listAppend
  deriving DecidableEq

namespace Keyword

def all : List Keyword :=
  [and, or, not, between, isIn, set, remove, add, delete, attributeExists, attributeNotExists,
    attributeType, beginsWith, contains, listAppend]

def spelling : Keyword → String
  | and => "AND"
  | or => "OR"
  | not => "NOT"
  | between => "BETWEEN"
  | isIn => "IN"
  | set => "SET"
  | remove => "REMOVE"
  | add => "ADD"
  | delete => "DELETE"
  | attributeExists => "ATTRIBUTE_EXISTS"
  | attributeNotExists => "ATTRIBUTE_NOT_EXISTS"
  | attributeType => "ATTRIBUTE_TYPE"
  | beginsWith => "BEGINS_WITH"
  | contains => "CONTAINS"
  | listAppend => "LIST_APPEND"

/-- The name of the keyword in messages. -/
def display : Keyword → String
  | and => "And"
  | or => "Or"
  | not => "Not"
  | between => "Between"
  | isIn => "In"
  | set => "Set"
  | remove => "Remove"
  | add => "Add"
  | delete => "Delete"
  | attributeExists => "AttributeExists"
  | attributeNotExists => "AttributeNotExists"
  | attributeType => "AttributeType"
  | beginsWith => "BeginsWith"
  | contains => "Contains"
  | listAppend => "ListAppend"

/-- The keyword that a word is in upper case. -/
def ofWord? (word : String) : Option Keyword := all.find? fun k => k.spelling == Text.upper word

end Keyword

inductive Token where
  | compare (op : Comparator)
  | plus | minus | opening | closing | comma
  | keyword (k : Keyword)
  | identifier (word : String)
  /-- A placeholder for a name, `#` included. -/
  | name (placeholder : String)
  /-- A placeholder for a value, `:` included. -/
  | value (placeholder : String)
  deriving DecidableEq

namespace Token

def displayComparator : Comparator → String
  | .eq => "Equal"
  | .ne => "NotEqual"
  | .lt => "LessThan"
  | .le => "LessThanOrEqual"
  | .gt => "GreaterThan"
  | .ge => "GreaterThanOrEqual"

/-- The token in messages. -/
def display : Token → String
  | compare op => displayComparator op
  | plus => "Plus"
  | minus => "Minus"
  | opening => "LeftParen"
  | closing => "RightParen"
  | comma => "Comma"
  | keyword k => k.display
  | identifier word => s!"Identifier({Text.quoted word})"
  | name placeholder => s!"NamePlaceholder({Text.quoted placeholder})"
  | value placeholder => s!"ValuePlaceholder({Text.quoted placeholder})"

/-- A token or the end of the text. -/
def displayNext : Option Token → String
  | some t => t.display
  | none => "Eof"

end Token

/-! ## What can be wrong with an expression -/

inductive ExpressionFault where
  | character (c : Char)
  /-- Another token, or the end, stands where `wanted` has to. -/
  | expected (wanted found : Option Token)
  | expectedPath (place : String)
  | operand (found : Option Token)
  | clause (found : Token)
  | updateOperand (found : Option Token)
  | emptyUpdate
  | unboundName (placeholder : String)
  | unboundValue (placeholder : String)
  | notACondition
  | notAnOperand
  | typeWord
  | missingAttribute (name : String)
  | arithmetic
  | listAppend
  | addition
  | deletion
  /-- A sum that no numeral writes. -/
  | sum (text : String)
  deriving DecidableEq

namespace ExpressionFault

def detail : ExpressionFault → String
  | character c => s!"Unexpected character: {c}"
  | expected wanted found =>
    s!"Expected {Token.displayNext wanted}, got {Token.displayNext found}"
  | expectedPath place => s!"Expected attribute path in {place}"
  | operand found => s!"Unexpected token: {Token.displayNext found}"
  | clause found => s!"Unexpected token in update expression: {found.display}"
  | updateOperand found => s!"Expected value, got {Token.displayNext found}"
  | emptyUpdate => "Empty update expression"
  | unboundName placeholder => s!"Name placeholder '{placeholder}' not found"
  | unboundValue placeholder => s!"Value placeholder '{placeholder}' not found"
  | notACondition => "Cannot evaluate operand as boolean expression"
  | notAnOperand => "Cannot resolve non-value expression to value"
  | typeWord => "attribute_type needs a type string"
  | missingAttribute name => s!"Attribute {name} not found"
  | arithmetic => "Arithmetic requires numbers"
  | listAppend => "list_append requires lists"
  | addition => "ADD requires a number or a matching set"
  | deletion => "DELETE requires a matching set"
  | sum text => text

def error : ExpressionFault → Error
  | sum text => .malformedNumber text
  | fault => .invalidExpression fault.detail

end ExpressionFault

/-! ## Scanning -/

namespace Token

def isNameChar (c : Char) : Bool := Text.isAlphanumeric c || c == '_'

/-- Parentheses, commas and operators; a longer operator is taken before a shorter one. -/
def symbol? : List Char → Option (Token × List Char)
  | '(' :: rest => some (opening, rest)
  | ')' :: rest => some (closing, rest)
  | ',' :: rest => some (comma, rest)
  | '+' :: rest => some (plus, rest)
  | '-' :: rest => some (minus, rest)
  | '=' :: rest => some (compare .eq, rest)
  | '<' :: '>' :: rest => some (compare .ne, rest)
  | '<' :: '=' :: rest => some (compare .le, rest)
  | '<' :: rest => some (compare .lt, rest)
  | '>' :: '=' :: rest => some (compare .ge, rest)
  | '>' :: rest => some (compare .gt, rest)
  | _ => none

def ofWord (word : String) : Token :=
  match Keyword.ofWord? word with
  | some k => keyword k
  | none => identifier word

/-- The first token of a text that begins with `c`, and the rest of the text. -/
def first (c : Char) (cs : List Char) : Except ExpressionFault (Token × List Char) :=
  match symbol? (c :: cs) with
  | some p => .ok p
  | none =>
    let word := String.ofList (c :: cs.takeWhile isNameChar)
    let rest := cs.dropWhile isNameChar
    if c = '#' then .ok (name word, rest)
    else if c = ':' then .ok (value word, rest)
    else if Text.isAlphabetic c then .ok (ofWord word, rest)
    else .error (.character c)

theorem length_of_symbol? {c : Char} {cs : List Char} {p : Token × List Char}
    (h : symbol? (c :: cs) = some p) : p.2.length ≤ cs.length := by
  unfold symbol? at h
  split at h
  case h_12 => cases h
  all_goals
    rename_i heq
    cases h
    cases heq
    dsimp only [List.length_cons]
    omega

theorem length_of_first {c : Char} {cs : List Char} {p : Token × List Char}
    (h : first c cs = .ok p) : p.2.length ≤ cs.length := by
  have hdrop : (cs.dropWhile isNameChar).length ≤ cs.length :=
    (List.dropWhile_sublist _).length_le
  unfold first at h
  split at h
  · next hs =>
    cases h
    exact length_of_symbol? hs
  · dsimp only at h
    split at h
    · cases h; exact hdrop
    · split at h
      · cases h; exact hdrop
      · split at h
        · cases h; exact hdrop
        · cases h

/-- All tokens of a text in order. -/
def scan : List Char → Except ExpressionFault (List Token)
  | [] => .ok []
  | c :: cs =>
    if Text.isWhiteSpace c then scan cs
    else
      match _h : first c cs with
      | .error fault => .error fault
      | .ok p => do
        let ts ← scan p.2
        return p.1 :: ts
termination_by cs => cs.length
decreasing_by
  · simp
  · have := length_of_first _h
    simp only [List.length_cons]
    omega

end Token
end ItemStore
