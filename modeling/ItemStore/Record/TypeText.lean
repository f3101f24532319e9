import ItemStore.Record.Definition
import ItemStore.Record.TypeToken
/-!
# Field types as text

A field type written as text: `TypeText.ofString` reads it into parts, with what stands
between brackets as one part, and `render` writes it without blanks.  The only question
asked of it is whether it is a path that ends in `Option` with one type for its argument,
such as `Option<T>` or `std::option::Option<T>`; bounds (`dyn a::Option<T>`), paths inside
another type (`<A as B>::Option<T>`) and arguments that are values (`Option<3>`) are not.

The brackets `<` and `>` hold arguments where a type stands.  In the length of an array and
in a block they are comparisons unless a `::` stands before them, and in the input of a macro
they have no meaning at all.
-/
namespace ItemStore

/-- A part of a written type. -/
inductive TypePart where
  | token (t : TypeToken)
  /-- What stands between round, square or curly brackets. -/
  | enclosed (opening : Char) (inside : List TypePart)
  /-- The arguments between `<` and `>`, and whether a comma follows the last. -/
  | arguments (args : List (List TypePart)) (comma : Bool)

namespace TypePart

def closing : Char → Char
  | '(' => ')'
  | '[' => ']'
  | '<' => '>'
  | _ => '\x7d'

mutual

def chars : TypePart → List Char
  | token t => t.chars
  | enclosed opening inside => opening :: charsOf inside ++ [closing opening]
  | arguments args comma => '<' :: charsOfArguments args ++ (if comma then [',', '>'] else ['>'])

def charsOf : List TypePart → List Char
  | [] => []
  | part :: rest => part.chars ++ charsOf rest

/-- The arguments with commas between them. -/
def charsOfArguments : List (List TypePart) → List Char
  | [] => []
  | [arg] => charsOf arg
  | arg :: rest => charsOf arg ++ ',' :: charsOfArguments rest

end

/-! ## Arguments -/

def isLifetime : List TypePart → Bool
  | [token (.lifetime _)] => true
  | _ => false

/-- Lifetimes are written before the other arguments; an argument that moves keeps the
comma after it. -/
def lifetimesFirst (args : List (List TypePart)) (comma : Bool) : TypePart :=
  let others := args.filter (!isLifetime ·)
  arguments (args.filter isLifetime ++ others)
    (comma || (!others.isEmpty && (args.getLast?.map isLifetime).getD false))

/-- Whether a name, with arguments of its own or without, is given a value or a bound. -/
def isBinding : List TypePart → Bool
  | token (.mark c) :: _ | arguments _ _ :: token (.mark c) :: _
  | token .separator :: arguments _ _ :: token (.mark c) :: _ => c == '=' || c == ':'
  | _ => false

/-- An argument that is a type, and not a lifetime, a value or a binding.  A lifetime that
is followed by `+` is the first bound of a type. -/
def isType : List TypePart → Bool
  | [] => false
  | token (.name text) :: rest =>
    text != "true".toList && text != "false".toList && !isBinding rest
  | token (.lifetime _) :: token (.mark '+') :: _ => true
  | token (.lifetime _) :: _ | token (.literal _) :: _ | token (.mark '-') :: _ => false
  | enclosed opening _ :: _ => opening != '\x7b'
  | _ => true

/-! ## Paths -/

/-- The last name of a path and its arguments, if it has any. -/
def lastName? : List TypePart → Option (List Char × List (List TypePart))
  | [token (.name n)] => some (n, [])
  | [token (.name n), arguments args _] => some (n, args)
  | [token (.name n), token .separator, arguments args _] => some (n, args)
  | token (.name _) :: arguments _ _ :: token .separator :: rest => lastName? rest
  | token (.name _) :: token .separator :: arguments _ _ :: token .separator :: rest =>
    lastName? rest
  | token (.name _) :: token .separator :: rest => lastName? rest
  | _ => none

/-- Words that begin a type other than a path. -/
def nonPathWords : List String := ["dyn", "impl", "fn", "unsafe", "extern", "for"]

/-- The path that the parts are, without the `::` it may begin with. -/
def path? : List TypePart → Option (List TypePart)
  | token .separator :: rest => some rest
  | token (.name n) :: rest =>
    if String.ofList n ∈ nonPathWords then none else some (token (.name n) :: rest)
  | _ => none

end TypePart

/-! ## Reading -/

/-- What is written inside a bracket, which decides what `<` means there. -/
inductive BracketUse where
  /-- Types, where `<` begins arguments. -/
  | types
  /-- An expression, where `<` begins arguments behind `::` only. -/
  | expression
  /-- The lifetimes that a `for` brings in, which stay in their order. -/
  | binder
  /-- The input of a macro or of an attribute, where `<` is a mark like any other. -/
  | input
  deriving DecidableEq

/-- A bracket that has not been closed: what has been read since, the last first. -/
structure OpenBracket where
  opening : Char
  use : BracketUse
  /-- The arguments that are complete. -/
  args : List (List TypePart) := []
  current : List TypePart := []

namespace OpenBracket

def push (b : OpenBracket) (part : TypePart) : OpenBracket :=
  { b with current := part :: b.current }

/-- The bracket as one part. -/
def close (b : OpenBracket) : TypePart :=
  if b.opening = '<' then
    let args := if b.current.isEmpty then b.args else b.current.reverse :: b.args
    let comma := b.current.isEmpty && !b.args.isEmpty
    if b.use = .binder then .arguments args.reverse comma
    else TypePart.lifetimesFirst args.reverse comma
  else .enclosed b.opening b.current.reverse

/-- The use of a bracket other than `<` that is opened next: that of the bracket around it,
unless what has been read last makes it an input. -/
def nextUse (b : OpenBracket) : BracketUse :=
  match b.use, b.current with
  | .binder, _ | .input, _ | _, .token (.mark '!') :: _ | _, .token (.mark '#') :: _ => .input
  | use, _ => use

/-- The use of the arguments that a `<` begins, if it begins any. -/
def argumentUse? (b : OpenBracket) : Option BracketUse :=
  match b.use, b.current with
  | .types, .token (.name ['f', 'o', 'r']) :: _ => some .binder
  | .types, _ | .expression, .token .separator :: _ => some .types
  | _, _ => none

/-- The bracket that a character opens, if it opens one.  A block is an expression. -/
def opened? (b : OpenBracket) (c : Char) : Option OpenBracket :=
  if c = '(' ∨ c = '[' then some ⟨c, b.nextUse, [], []⟩
  else if c = '\x7b' then
    some ⟨c, if b.nextUse = .input then .input else .expression, [], []⟩
  else if c = '<' then b.argumentUse?.map fun use => ⟨c, use, [], []⟩
  else none

/-- A mark that opens and closes nothing: a comma ends an argument, and after the element
type of an array stands an expression. -/
def mark (b : OpenBracket) (c : Char) : OpenBracket :=
  if c = ',' ∧ b.opening = '<' then { b with args := b.current.reverse :: b.args, current := [] }
  else
    let b := b.push (.token (.mark c))
    if c = ';' ∧ b.opening = '[' ∧ b.use = .types then { b with use := .expression } else b

end OpenBracket

namespace TypePart

/-- Reads tokens inside the bracket `b`, which stands inside the brackets `outer`. -/
def read (b : OpenBracket) (outer : List OpenBracket) : List TypeToken → List TypePart
  | [] => b.current.reverse
  | .mark c :: rest =>
    match b.opened? c with
    | some inner => read inner (b :: outer) rest
    | none =>
      match outer with
      | [] => read (b.mark c) [] rest
      | parent :: more =>
        if c = closing b.opening then read (parent.push b.close) more rest
        else read (b.mark c) outer rest
  | t :: rest => read (b.push (.token t)) outer rest

def ofTokens (ts : List TypeToken) : List TypePart := read ⟨' ', .types, [], []⟩ [] ts

end TypePart

/-! ## Types -/

structure TypeText where
  parts : List TypePart

namespace TypeText

def ofString (s : String) : TypeText := ⟨TypePart.ofTokens (TypeToken.scan s.toList)⟩

/-- The type without blanks, also those inside literals. -/
def render (t : TypeText) : String :=
  String.ofList ((TypePart.charsOf t.parts).filter (· != ' '))

/-- For an option, the type inside. -/
def optionInner? (t : TypeText) : Option TypeText :=
  match TypePart.path? t.parts >>= TypePart.lastName? with
  | some (n, [arg]) =>
    if n = "Option".toList ∧ TypePart.isType arg then some ⟨arg⟩ else none
  | _ => none

instance : OptionalType TypeText := ⟨optionInner?⟩

end TypeText
end ItemStore
