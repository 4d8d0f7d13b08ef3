/-! The forms of a simple statement and of a block header. Gaps of spaces, tabs, carriage returns
and line feeds may stand between the tokens of a form, and at both ends. Each reader of a token
answers the token and the text after it, or nothing. -/
namespace Playscript.Script.Grammar

def isGap (c : Char) : Bool :=
  c == ' ' || c == '\t' || c == '\r' || c == '\n'

def skip (text : List Char) : List Char :=
  text.dropWhile isGap

def isNameStart (c : Char) : Bool :=
  c.isAlpha || c == '_'

def isNameChar (c : Char) : Bool :=
  c.isAlphanum || c == '_'

/-- A character of a loop bound, which is taken whole so that a bad bound can be shown. -/
def isBoundChar (c : Char) : Bool :=
  !(c == ';' || c == '<' || c == '>' || c == '(' || c == ')' || c == '=' || isGap c)

/-- A name: a letter or underscore, then letters, digits and underscores. -/
def name? (text : List Char) : Option (List Char × List Char) :=
  match text with
  | c :: cs =>
      if isNameStart c then some (c :: cs.takeWhile isNameChar, cs.dropWhile isNameChar) else none
  | [] => none

/-- A longest nonempty run of characters of a class. -/
def run? (p : Char → Bool) (text : List Char) : Option (List Char × List Char) :=
  match text with
  | c :: cs => if p c then some (c :: cs.takeWhile p, cs.dropWhile p) else none
  | [] => none

def number? (text : List Char) : Option (List Char × List Char) :=
  run? Char.isDigit text

def bound? (text : List Char) : Option (List Char × List Char) :=
  run? isBoundChar text

def word? (word text : List Char) : Option (List Char) :=
  word.isPrefixOf? text

/-- The text after the word `int`, which a gap has to follow. -/
def intWord? (text : List Char) : Option (List Char) :=
  match word? ['i', 'n', 't'] text with
  | some (c :: cs) => if isGap c then some (c :: cs) else none
  | _ => none

/-- What is written between the parentheses of a call. -/
inductive Value
  | number (digits : List Char)
  | name (name : List Char)
deriving DecidableEq, Repr

/-- A simple statement, its tokens as they are written. -/
inductive Simple
  | assign (name digits : List Char)
  | call (name : List Char) (value : Option Value)
deriving DecidableEq, Repr

/-- A loop header, its tokens as they are written: the name declared and the bounds, the name
tested and the name counted up. -/
structure Header where
  declared : List Char
  first : List Char
  tested : List Char
  stop : List Char
  stepped : List Char
deriving DecidableEq, Repr

def value? (text : List Char) : Option (Value × List Char) :=
  match number? text with
  | some (digits, rest) => some (.number digits, rest)
  | none => (name? text).map fun (name, rest) => (.name name, rest)

/-- A name, an equals sign, digits and a semicolon. -/
def assign? (text : List Char) : Option (Simple × List Char) := do
  let (name, rest) ← name? text
  let rest ← word? ['='] (skip rest)
  let (digits, rest) ← number? (skip rest)
  let rest ← word? [';'] (skip rest)
  return (.assign name digits, rest)

/-- A name and parentheses, with at most one value between them, and a semicolon. -/
def call? (text : List Char) : Option (Simple × List Char) := do
  let (name, rest) ← name? text
  let rest ← word? ['('] (skip rest)
  let (value, rest) := match value? (skip rest) with
    | some (value, rest) => (some value, rest)
    | none => (none, rest)
  let rest ← word? [')'] (skip rest)
  let rest ← word? [';'] (skip rest)
  return (.call name value, rest)

/-- Nothing but gaps. -/
def isDone (text : List Char) : Bool :=
  (skip text).isEmpty

/-- The whole text as a simple statement. -/
def simple? (text : List Char) : Option Simple :=
  let start := skip text
  match assign? start <|> call? start with
  | some (statement, rest) => if isDone rest then some statement else none
  | none => none

/-- The comparison with `true` that may follow a condition. -/
def isTrue? (text : List Char) : Option (List Char) := do
  let rest ← word? ['=', '='] text
  word? ['t', 'r', 'u', 'e'] (skip rest)

/-- The whole text as the header of a conditional: the name of its condition. -/
def ifHeader? (text : List Char) : Option (List Char) := do
  let rest ← word? ['i', 'f'] (skip text)
  let rest ← word? ['('] (skip rest)
  let (condition, rest) ← name? (skip rest)
  let rest := (isTrue? (skip rest)).getD rest
  let rest ← word? [')'] (skip rest)
  if isDone rest then return condition else none

/-- The whole text as the header of a loop. -/
def forHeader? (text : List Char) : Option Header := do
  let rest ← word? ['f', 'o', 'r'] (skip text)
  let rest ← word? ['('] (skip rest)
  let rest ← intWord? (skip rest)
  let (declared, rest) ← name? (skip rest)
  let rest ← word? ['='] (skip rest)
  let (first, rest) ← bound? (skip rest)
  let rest ← word? [';'] (skip rest)
  let (tested, rest) ← name? (skip rest)
  let rest ← word? ['<'] (skip rest)
  let (stop, rest) ← bound? (skip rest)
  let rest ← word? [';'] (skip rest)
  let (stepped, rest) ← name? (skip rest)
  let rest ← word? ['+', '+'] (skip rest)
  let rest ← word? [')'] (skip rest)
  if isDone rest then return ⟨declared, first, tested, stop, stepped⟩ else none

end Playscript.Script.Grammar
