import ItemStore.Expression.Formula
/-!
# Reading formulas

The grammar, loosest first; OR and AND group to the left:

    disjunction  = conjunction (OR conjunction)*
    conjunction  = negation (AND negation)*
    negation     = NOT negation | comparison
    comparison   = operand [op operand | BETWEEN operand AND operand
                            | IN "(" operand ("," operand)* ")"]
    operand      = "(" disjunction ")" | path | value | function "(" … ")"

Each reader takes its own tokens from the front and leaves the rest.  The readers call each
other without taking a token at most five times in a row, so a fuel of six for every token,
and six more, is never used up.
-/
namespace ItemStore

/-- What a reader has made of the tokens at the front, and the tokens after those. -/
abbrev Reading (α : Type) := α × List Token

abbrev Parsed := Except ExpressionFault

namespace Token

/-- Takes one given token. -/
def expect (wanted : Token) : List Token → Parsed (List Token)
  | [] => .error (.expected (some wanted) none)
  | t :: ts => if t = wanted then .ok ts else .error (.expected (some wanted) (some t))

/-- Nothing is left. -/
def expectEnd : List Token → Parsed Unit
  | [] => .ok ()
  | t :: _ => .error (.expected none (some t))

/-- Takes an identifier or the placeholder of a name. -/
def takePath (place : String) : List Token → Parsed (Reading String)
  | identifier p :: ts | name p :: ts => .ok (p, ts)
  | _ => .error (.expectedPath place)

end Token

namespace Formula

open Token (expect takePath)

/-- The arguments of a function on one path. -/
def readPathArgument (make : String → Formula) (ts : List Token) : Parsed (Reading Formula) := do
  let ts ← expect .opening ts
  let (p, ts) ← takePath "attribute_exists" ts
  return (make p, ← expect .closing ts)

mutual

def readDisjunction : Nat → List Token → Parsed (Reading Formula)
  | 0, ts => .error (.operand ts.head?)
  | fuel + 1, ts => do
    let (left, ts) ← readConjunction fuel ts
    readMoreDisjuncts fuel left ts

/-- Goes on after a first part for as long as OR follows. -/
def readMoreDisjuncts : Nat → Formula → List Token → Parsed (Reading Formula)
  | fuel + 1, left, .keyword .or :: ts => do
    let (right, ts) ← readConjunction fuel ts
    readMoreDisjuncts fuel (or left right) ts
  | _, left, ts => .ok (left, ts)

def readConjunction : Nat → List Token → Parsed (Reading Formula)
  | 0, ts => .error (.operand ts.head?)
  | fuel + 1, ts => do
    let (left, ts) ← readNegation fuel ts
    readMoreConjuncts fuel left ts

/-- Goes on after a first part for as long as AND follows. -/
def readMoreConjuncts : Nat → Formula → List Token → Parsed (Reading Formula)
  | fuel + 1, left, .keyword .and :: ts => do
    let (right, ts) ← readNegation fuel ts
    readMoreConjuncts fuel (and left right) ts
  | _, left, ts => .ok (left, ts)

def readNegation : Nat → List Token → Parsed (Reading Formula)
  | 0, ts => .error (.operand ts.head?)
  | fuel + 1, .keyword .not :: ts => do
    let (inner, ts) ← readNegation fuel ts
    return (not inner, ts)
  | fuel + 1, ts => readComparison fuel ts

def readComparison : Nat → List Token → Parsed (Reading Formula)
  | 0, ts => .error (.operand ts.head?)
  | fuel + 1, ts => do
    let (left, ts) ← readOperand fuel ts
    match ts with
    | .compare op :: ts =>
      let (right, ts) ← readOperand fuel ts
      return (compare op left right, ts)
    | .keyword .between :: ts =>
      let (low, ts) ← readOperand fuel ts
      let ts ← expect (.keyword .and) ts
      let (high, ts) ← readOperand fuel ts
      return (between left low high, ts)
    | .keyword .isIn :: ts =>
      let ts ← expect .opening ts
      let (first, ts) ← readOperand fuel ts
      let (more, ts) ← readMoreCandidates fuel ts
      return (isIn left (first :: more), ← expect .closing ts)
    | ts => return (left, ts)

/-- Further candidates for as long as a comma follows. -/
def readMoreCandidates : Nat → List Token → Parsed (Reading (List Formula))
  | fuel + 1, .comma :: ts => do
    let (x, ts) ← readOperand fuel ts
    let (xs, ts) ← readMoreCandidates fuel ts
    return (x :: xs, ts)
  | _, ts => .ok ([], ts)

def readOperand : Nat → List Token → Parsed (Reading Formula)
  | 0, ts => .error (.operand ts.head?)
  | fuel + 1, .opening :: ts => do
    let (inner, ts) ← readDisjunction fuel ts
    return (inner, ← expect .closing ts)
  | _ + 1, .identifier p :: ts | _ + 1, .name p :: ts => .ok (path p, ts)
  | _ + 1, .value p :: ts => .ok (value p, ts)
  | _ + 1, .keyword .attributeExists :: ts => readPathArgument present ts
  | _ + 1, .keyword .attributeNotExists :: ts => readPathArgument absent ts
  | fuel + 1, .keyword .attributeType :: ts => do
    let ts ← expect .opening ts
    let (p, ts) ← takePath "attribute_type" ts
    let ts ← expect .comma ts
    let (tag, ts) ← readOperand fuel ts
    return (hasType p tag, ← expect .closing ts)
  | fuel + 1, .keyword .beginsWith :: ts => readTwoArguments fuel beginsWith ts
  | fuel + 1, .keyword .contains :: ts => readTwoArguments fuel contains ts
  | _ + 1, ts => .error (.operand ts.head?)

/-- The arguments of a function on two operands. -/
def readTwoArguments :
    Nat → (Formula → Formula → Formula) → List Token → Parsed (Reading Formula)
  | 0, _, ts => .error (.operand ts.head?)
  | fuel + 1, make, ts => do
    let ts ← expect .opening ts
    let (x, ts) ← readOperand fuel ts
    let ts ← expect .comma ts
    let (y, ts) ← readOperand fuel ts
    return (make x y, ← expect .closing ts)

end

/-- Reads all tokens as one formula. -/
def ofTokens (ts : List Token) : Parsed Formula := do
  let (f, rest) ← readDisjunction (6 * ts.length + 6) ts
  Token.expectEnd rest
  return f

def parse (text : String) : Parsed Formula := do
  ofTokens (← Token.scan text.toList)

end Formula
end ItemStore
