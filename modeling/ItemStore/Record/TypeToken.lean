import ItemStore.Text.Quoted
/-!
# Tokens of written types

The type of a field is written as text.  `TypeToken.scan` splits the text into words,
lifetimes, literals and marks; blanks and comments only separate them, except that a comment
which documents something stands for an attribute.  A literal is one token with all that
stands between its quotes, so a bracket in it opens and closes nothing.  How far a token goes
is told by its length, which leaves the rest of the text shorter.
-/
namespace ItemStore

inductive TypeToken where
  | name (text : List Char)
  | lifetime (text : List Char)
  | literal (text : List Char)
  /-- The `::` between the names of a path. -/
  | separator
  /-- The `->` before a result, whose second character closes nothing. -/
  | arrow
  | mark (c : Char)
  deriving DecidableEq

namespace TypeToken

def chars : TypeToken → List Char
  | name text | lifetime text | literal text => text
  | separator => [':', ':']
  | arrow => ['-', '>']
  | mark c => [c]

/-! ## Blanks and comments -/

/-- White space, and the two marks of writing direction. -/
def isBlank (c : Char) : Bool := Text.isWhiteSpace c || c == '\u200e' || c == '\u200f'

/-- How far a comment goes on after its `/*`; comments nest. -/
def commentLength (depth : Nat) : List Char → Nat
  | [] => 0
  | '*' :: '/' :: rest =>
    match depth with
    | 0 => 2
    | depth + 1 => 2 + commentLength depth rest
  | '/' :: '*' :: rest => 2 + commentLength (depth + 1) rest
  | _ :: rest => 1 + commentLength depth rest

/-- The length of the blank or comment that a text begins with, 0 if there is none. -/
def gapLength : List Char → Nat
  | '/' :: '*' :: rest => 2 + commentLength 0 rest
  | '/' :: '/' :: rest => 2 + (rest.takeWhile (· != '\n')).length
  | c :: _ => if isBlank c then 1 else 0
  | [] => 0

/-! ## Documentation -/

/-- A comment that documents what comes after it or, if it is inner, what it stands in. -/
structure DocComment where
  inner : Bool
  text : List Char
  length : Nat

namespace DocComment

/-- The comment that begins with a sign and goes on to the end of the line. -/
def ofLine (inner : Bool) (rest : List Char) : DocComment :=
  let text := rest.takeWhile (· != '\n')
  ⟨inner, if text.getLast? = some '\r' then text.dropLast else text, 3 + text.length⟩

/-- The comment that begins with a sign and goes on to the `*/` that closes it. -/
def ofBlock (inner : Bool) (rest : List Char) : DocComment :=
  let length := commentLength 0 rest
  ⟨inner, rest.take (length - 2), 3 + length⟩

/-- The documentation that a text begins with, if it does.  A sign that is repeated once
more makes it a plain comment, and so does an end in its place. -/
def first? : List Char → Option DocComment
  | '/' :: '/' :: '!' :: rest => some (ofLine true rest)
  | '/' :: '/' :: '/' :: '/' :: _ => none
  | '/' :: '/' :: '/' :: rest => some (ofLine false rest)
  | '/' :: '*' :: '!' :: rest => some (ofBlock true rest)
  | '/' :: '*' :: '*' :: '*' :: _ | '/' :: '*' :: '*' :: '/' :: _ => none
  | '/' :: '*' :: '*' :: rest => some (ofBlock false rest)
  | _ => none

/-- The attribute that the comment stands for. -/
def tokens (d : DocComment) : List TypeToken :=
  let sign := if d.inner then [mark '#', mark '!'] else [mark '#']
  sign ++ [mark '[', name "doc".toList, mark '=',
    literal (Text.quoted (String.ofList d.text)).toList, mark ']']

end DocComment

/-! ## Literals and words -/

/-- How far a text goes on to its closing quote, the quote included; a character after a
backslash closes nothing. -/
def quotedLength (close : Char) : List Char → Nat
  | [] => 0
  | '\\' :: _ :: rest => 2 + quotedLength close rest
  | c :: rest => if c = close then 1 else 1 + quotedLength close rest

/-- How far a text goes on to a quote with as many `#` after it as before the text. -/
def rawLength (hashes : Nat) : List Char → Nat
  | [] => 0
  | c :: rest =>
    if c = '"' ∧ (rest.takeWhile (· == '#')).length ≥ hashes then 1 + hashes
    else 1 + rawLength hashes rest

/-- The length of a text without escapes after its `r`, 0 if none stands there. -/
def rawQuotedLength (cs : List Char) : Nat :=
  let hashes := (cs.takeWhile (· == '#')).length
  match cs.drop hashes with
  | '"' :: rest => hashes + 1 + rawLength hashes rest
  | _ => 0

def isWordChar (c : Char) : Bool :=
  if c.toNat < 128 then c.isAlphanum || c == '_' else !isBlank c

def wordLength (cs : List Char) : Nat := (cs.takeWhile isWordChar).length

/-- The length of a word; one that would be a keyword goes on after the mark `r#`. -/
def markedLength : List Char → Nat
  | 'r' :: '#' :: rest => 2 + wordLength rest
  | cs => wordLength cs

/-- The length of the character or text in quotes that a text begins with, 0 if there is
none.  A lifetime is not closed by a second quote. -/
def quoteLength : List Char → Nat
  | '"' :: rest => 1 + quotedLength '"' rest
  | '\'' :: '\\' :: _ :: rest => 3 + quotedLength '\'' rest
  | '\'' :: _ :: '\'' :: _ => 3
  | _ => 0

/-- The length of the literal that a text begins with, 0 if there is none: a number, or
quotes with the letters of their kind before them. -/
def literalLength : List Char → Nat
  | [] => 0
  | c :: cs =>
    let quoted := quoteLength (c :: cs)
    let raw := rawQuotedLength cs
    if c.isDigit then wordLength (c :: cs)
    else if quoted ≠ 0 then quoted
    else if c = 'r' ∧ raw ≠ 0 then 1 + raw
    else if c = 'b' ∨ c = 'c' then
      match cs with
      | 'r' :: rest =>
        let raw := rawQuotedLength rest
        if raw ≠ 0 then 2 + raw else 0
      | _ =>
        let quoted := quoteLength cs
        if quoted ≠ 0 then 1 + quoted else 0
    else 0

/-- The token that a text other than a gap begins with, and by how much it is longer than
one character. -/
def first (c : Char) (cs : List Char) : TypeToken × Nat :=
  let literalSize := literalLength (c :: cs)
  if literalSize ≠ 0 then (literal ((c :: cs).take literalSize), literalSize - 1)
  else if c = '\'' then
    let size := markedLength cs
    (lifetime (c :: cs.take size), size)
  else if isWordChar c then
    let size := markedLength (c :: cs) - 1
    (name (c :: cs.take size), size)
  else
    match c, cs with
    | ':', ':' :: _ => (separator, 1)
    | '-', '>' :: _ => (arrow, 1)
    | _, _ => (mark c, 0)

/-- All tokens of a text in order. -/
def scan : List Char → List TypeToken
  | [] => []
  | c :: cs =>
    match DocComment.first? (c :: cs), gapLength (c :: cs) with
    | some d, _ => d.tokens ++ scan (cs.drop (d.length - 1))
    | none, gap + 1 => scan (cs.drop gap)
    | none, 0 =>
      let p := first c cs
      p.1 :: scan (cs.drop p.2)
termination_by cs => cs.length
decreasing_by
  all_goals
    simp only [List.length_drop, List.length_cons]
    omega

end TypeToken
end ItemStore
