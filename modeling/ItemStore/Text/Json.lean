/-!
# JSON

Wire values, page tokens and configurations are JSON.  `Json` keeps a document as it was
written: objects keep the order and the repetitions of their names, and a number keeps its
text, so that each reader of a document decides for itself what a repetition or a number
means to it.  Reading is strict (no control characters inside strings, no leading zeros) and
bounded in depth; writing is compact.  Half of a surrogate pair stands for no character, but
does not make a document malformed where nobody asks for the text.
-/
namespace ItemStore

inductive Json where
  | null
  | bool (b : Bool)
  | num (text : String)
  | str (s : String)
  /-- A string with half of a surrogate pair in it, or an object with such a name. -/
  | unreadable
  | arr (elements : List Json)
  | obj (members : List (String × Json))
  deriving Inhabited

namespace Json

def skipBlanks (cs : List Char) : List Char :=
  cs.dropWhile fun c => c == ' ' || c == '\n' || c == '\t' || c == '\r'

/-! ## Strings -/

def hexValue? (c : Char) : Option Nat :=
  if c.isDigit then some (c.toNat - '0'.toNat)
  else if 'a' ≤ c ∧ c ≤ 'f' then some (c.toNat - 'a'.toNat + 10)
  else if 'A' ≤ c ∧ c ≤ 'F' then some (c.toNat - 'A'.toNat + 10)
  else none

def codeUnit? (a b c d : Char) : Option Nat := do
  return (((← hexValue? a) * 16 + (← hexValue? b)) * 16 + (← hexValue? c)) * 16 + (← hexValue? d)

def isHighSurrogate (n : Nat) : Bool := 0xD800 ≤ n && n < 0xDC00

def isLowSurrogate (n : Nat) : Bool := 0xDC00 ≤ n && n < 0xE000

def unescape? : Char → Option Char
  | '"' => some '"'
  | '\\' => some '\\'
  | '/' => some '/'
  | 'b' => some '\x08'
  | 'f' => some '\x0c'
  | 'n' => some '\n'
  | 'r' => some '\r'
  | 't' => some '\t'
  | _ => none

/-- The codes of a string after its opening quote, those of surrogates one by one, and what
follows the closing quote. -/
def readCodes? : List Char → Option (List Nat × List Char)
  | [] => none
  | '"' :: rest => some ([], rest)
  | '\\' :: 'u' :: a :: b :: c :: d :: rest =>
    match codeUnit? a b c d with
    | none => none
    | some n => (readCodes? rest).map fun (ns, tail) => (n :: ns, tail)
  | '\\' :: e :: rest =>
    match unescape? e with
    | none => none
    | some c => (readCodes? rest).map fun (ns, tail) => (c.toNat :: ns, tail)
  | c :: rest =>
    if c < ' ' ∨ c = '\\' then none
    else (readCodes? rest).map fun (ns, tail) => (c.toNat :: ns, tail)

/-- The text of the codes, unless half of a surrogate pair is among them. -/
def ofCodes? : List Nat → Option (List Char)
  | [] => some []
  | [n] => if isHighSurrogate n || isLowSurrogate n then none else some [Char.ofNat n]
  | n :: m :: rest =>
    if isHighSurrogate n && isLowSurrogate m then
      (ofCodes? rest).map (Char.ofNat (0x10000 + (n - 0xD800) * 1024 + (m - 0xDC00)) :: ·)
    else if isHighSurrogate n || isLowSurrogate n then none
    else (ofCodes? (m :: rest)).map (Char.ofNat n :: ·)

/-- A string after its opening quote, if there is a text of it, and what follows. -/
def readString? (cs : List Char) : Option (Option String × List Char) :=
  (readCodes? cs).map fun (ns, tail) => ((ofCodes? ns).map String.ofList, tail)

/-! ## Numbers -/

/-- At least one digit. -/
def readDigits? (cs : List Char) : Option (List Char × List Char) :=
  match cs.takeWhile Char.isDigit with
  | [] => none
  | ds => some (ds, cs.dropWhile Char.isDigit)

/-- A zero stands alone before the point. -/
def readWhole? : List Char → Option (List Char × List Char)
  | '0' :: c :: rest => if c.isDigit then none else some (['0'], c :: rest)
  | cs => readDigits? cs

def readFraction? : List Char → Option (List Char × List Char)
  | '.' :: rest => (readDigits? rest).map fun (ds, tail) => ('.' :: ds, tail)
  | cs => some ([], cs)

def readPower? : List Char → Option (List Char × List Char)
  | [] => some ([], [])
  | e :: rest =>
    if e = 'e' ∨ e = 'E' then
      match rest with
      | '+' :: rest' => (readDigits? rest').map fun (ds, tail) => (e :: '+' :: ds, tail)
      | '-' :: rest' => (readDigits? rest').map fun (ds, tail) => (e :: '-' :: ds, tail)
      | rest' => (readDigits? rest').map fun (ds, tail) => (e :: ds, tail)
    else some ([], e :: rest)

/-- The text of a number and what follows it. -/
def readNumber? (cs : List Char) : Option (List Char × List Char) := do
  let (sign, cs) := match cs with
    | '-' :: rest => (['-'], rest)
    | rest => ([], rest)
  let (whole, cs) ← readWhole? cs
  let (fraction, cs) ← readFraction? cs
  let (power, cs) ← readPower? cs
  return (sign ++ whole ++ fraction ++ power, cs)

/-! ## Values

`depth` is how many arrays and objects may still be opened; `fuel` only bounds the length
of the run and is never what stops a document, see `parse?`. -/

/-- Takes a literal word from the front. -/
def word? (w : String) (cs : List Char) : Option (List Char) :=
  if w.toList.isPrefixOf cs then some (cs.drop w.length) else none

mutual

def readValue? : Nat → Nat → List Char → Option (Json × List Char)
  | 0, _, _ => none
  | fuel + 1, depth, cs =>
    match skipBlanks cs with
    | [] => none
    | 'n' :: rest => (word? "ull" rest).map fun tail => (.null, tail)
    | 't' :: rest => (word? "rue" rest).map fun tail => (.bool true, tail)
    | 'f' :: rest => (word? "alse" rest).map fun tail => (.bool false, tail)
    | '"' :: rest => (readString? rest).map fun (s, tail) => ((s.map Json.str).getD .unreadable, tail)
    | '[' :: rest =>
      match depth with
      | 0 => none
      | depth + 1 =>
        match skipBlanks rest with
        | ']' :: tail => some (.arr [], tail)
        | rest => (readElements? fuel depth rest).map fun (xs, tail) => (.arr xs, tail)
    | '\x7b' :: rest =>
      match depth with
      | 0 => none
      | depth + 1 =>
        match skipBlanks rest with
        | '\x7d' :: tail => some (.obj [], tail)
        | rest => (readMembers? fuel depth rest).map fun (ms, tail) =>
            ((ms.map Json.obj).getD .unreadable, tail)
    | c :: rest =>
      if c = '-' ∨ c.isDigit then
        (readNumber? (c :: rest)).map fun (text, tail) => (.num (String.ofList text), tail)
      else none

/-- One element or more, and the bracket that closes them. -/
def readElements? : Nat → Nat → List Char → Option (List Json × List Char)
  | 0, _, _ => none
  | fuel + 1, depth, cs =>
    match readValue? fuel depth cs with
    | none => none
    | some (x, rest) =>
      match skipBlanks rest with
      | ']' :: tail => some ([x], tail)
      | ',' :: tail => (readElements? fuel depth tail).map fun (xs, tail) => (x :: xs, tail)
      | _ => none

/-- One member or more, if there is a text of every name, and the brace that closes them. -/
def readMembers? : Nat → Nat → List Char → Option (Option (List (String × Json)) × List Char)
  | 0, _, _ => none
  | fuel + 1, depth, cs =>
    match skipBlanks cs with
    | '"' :: rest =>
      match readString? rest with
      | none => none
      | some (name, rest) =>
        match skipBlanks rest with
        | ':' :: rest =>
          match readValue? fuel depth rest with
          | none => none
          | some (x, rest) =>
            match skipBlanks rest with
            | '\x7d' :: tail => some (name.map fun n => [(n, x)], tail)
            | ',' :: tail =>
              (readMembers? fuel depth tail).map fun (ms, tail) =>
                (name.bind fun n => ms.map ((n, x) :: ·), tail)
            | _ => none
        | _ => none
    | _ => none

end

/-- Reads a whole document with at most `depth` levels of arrays and objects.  Every two
steps of the readers take a character at least, so the fuel lasts. -/
def parse? (depth : Nat) (text : String) : Option Json :=
  match readValue? (2 * text.length + 2) depth text.toList with
  | some (v, rest) => if skipBlanks rest = [] then some v else none
  | none => none

/-! ## Writing -/

def hexDigit (n : Nat) : Char := if n < 10 then Char.ofNat (48 + n) else Char.ofNat (87 + n)

/-- One character of a string: controls as letters where JSON has them, else as `\u00xx`. -/
def escapeChar (c : Char) : List Char :=
  if c = '"' then ['\\', '"']
  else if c = '\\' then ['\\', '\\']
  else if c < ' ' then
    if c = '\x08' then ['\\', 'b']
    else if c = '\t' then ['\\', 't']
    else if c = '\n' then ['\\', 'n']
    else if c = '\x0c' then ['\\', 'f']
    else if c = '\r' then ['\\', 'r']
    else ['\\', 'u', '0', '0', hexDigit (c.toNat / 16), hexDigit (c.toNat % 16)]
  else [c]

def renderString (s : String) : List Char := '"' :: (s.toList.flatMap escapeChar ++ ['"'])

mutual

/-- The compact text of a document, put in front of `tail`. -/
def renderTo : Json → List Char → List Char
  | .null, tail => "null".toList ++ tail
  | .bool true, tail => "true".toList ++ tail
  | .bool false, tail => "false".toList ++ tail
  | .num text, tail => text.toList ++ tail
  | .str s, tail => renderString s ++ tail
  | .unreadable, tail => "null".toList ++ tail
  | .arr [], tail => '[' :: ']' :: tail
  | .arr (x :: xs), tail => '[' :: renderTo x (renderElementsTo xs tail)
  | .obj [], tail => '\x7b' :: '\x7d' :: tail
  | .obj ((name, x) :: ms), tail =>
    '\x7b' :: (renderString name ++ ':' :: renderTo x (renderMembersTo ms tail))

/-- What stands after the first element. -/
def renderElementsTo : List Json → List Char → List Char
  | [], tail => ']' :: tail
  | x :: xs, tail => ',' :: renderTo x (renderElementsTo xs tail)

/-- What stands after the first member. -/
def renderMembersTo : List (String × Json) → List Char → List Char
  | [], tail => '\x7d' :: tail
  | (name, x) :: ms, tail =>
    ',' :: (renderString name ++ ':' :: renderTo x (renderMembersTo ms tail))

end

def render (v : Json) : String := String.ofList (renderTo v [])

/-! ## Access -/

mutual

/-- How many arrays and objects stand in one another at most. -/
def depth : Json → Nat
  | .arr xs => depthElements xs + 1
  | .obj ms => depthMembers ms + 1
  | _ => 0

def depthElements : List Json → Nat
  | [] => 0
  | x :: xs => max (depth x) (depthElements xs)

def depthMembers : List (String × Json) → Nat
  | [] => 0
  | (_, x) :: ms => max (depth x) (depthMembers ms)

end

/-- The members of that name, in order. -/
def fields (name : String) : Json → List Json
  | .obj members => (members.filter fun m => m.1 == name).map Prod.snd
  | _ => []

/-- The member of that name; one that is missing reads as null. -/
def member (name : String) (j : Json) : Json := (j.fields name).head?.getD .null

def elements : Json → List Json
  | .arr xs => xs
  | _ => []

def asString? : Json → Option String
  | .str s => some s
  | _ => none

def asBool : Json → Bool
  | .bool b => b
  | _ => false

def isNull : Json → Bool
  | .null => true
  | _ => false

def ofNat (n : Nat) : Json := .num (toString n)

def ofInt (n : Int) : Json := .num (toString n)

def ofOption {α : Type} (f : α → Json) : Option α → Json
  | some a => f a
  | none => .null

end Json
end ItemStore
