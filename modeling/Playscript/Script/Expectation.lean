import Playscript.Script.Grammar
/-! What was expected where a text departs from its form. The forms are written once more as
patterns, and matching a pattern keeps the names of the parts that were tried in vain at the
furthest place reached. The message lists those names. -/
namespace Playscript.Script.Expectation

/-- The named parts of the forms, in the order in which messages list them. -/
inductive Part
  | endOfInput
  | ident
  | number
  | bound
  | intWord
  | trueWord
  | argument
  | assignment
  | call
  | simpleStatement
  | ifHeader
  | forHeader
deriving DecidableEq, Repr

namespace Part

def all : List Part :=
  [.endOfInput, .ident, .number, .bound, .intWord, .trueWord, .argument, .assignment, .call,
    .simpleStatement, .ifHeader, .forHeader]

def name : Part → String
  | .endOfInput => "EOI"
  | .ident => "ident"
  | .number => "number"
  | .bound => "bound"
  | .intWord => "int_kw"
  | .trueWord => "true_kw"
  | .argument => "argument"
  | .assignment => "assignment"
  | .call => "call"
  | .simpleStatement => "simple_statement"
  | .ifHeader => "if_header"
  | .forHeader => "for_header"

end Part

/-- A pattern of tokens. Gaps may stand between the parts of a sequence. -/
inductive Pattern
  /-- What a reader of tokens takes. -/
  | token (read : List Char → Option (List Char))
  | seq (a b : Pattern)
  | either (a b : Pattern)
  | optional (a : Pattern)
  | part (p : Part) (body : Pattern)

/-- The parts that failed at the furthest place where any failed. A place is known by the number of
characters from it to the end of the text. -/
structure Furthest where
  left : Nat
  parts : List Part

namespace Furthest

/-- The number of failed parts kept for a place. -/
def countAt (f : Furthest) (left : Nat) : Nat :=
  if f.left = left then f.parts.length else 0

/-- Notes that a part failed at a place, given what was kept when the part was entered. A part with
exactly one failed part of its own at that place leaves that one to stand; otherwise it takes the
place of all its own. A place before the furthest one counts for nothing. -/
def fail (entered now : Furthest) (p : Part) (left : Nat) : Furthest :=
  let before := entered.countAt left
  if now.countAt left = before + 1 then now
  else if left = now.left then ⟨left, now.parts.take before ++ [p]⟩
  else if left < now.left then ⟨left, [p]⟩
  else now

end Furthest

/-- The text after the pattern, if it matches, and the failures so far. -/
def Pattern.match? (pattern : Pattern) (text : List Char) (f : Furthest) :
    Option (List Char) × Furthest :=
  match pattern with
  | .token read => (read text, f)
  | .seq a b =>
      match a.match? text f with
      | (some rest, f) => b.match? (Grammar.skip rest) f
      | (none, f) => (none, f)
  | .either a b =>
      match a.match? text f with
      | (some rest, f) => (some rest, f)
      | (none, f) => b.match? text f
  | .optional a =>
      match a.match? text f with
      | (some rest, f) => (some rest, f)
      | (none, f) => (some text, f)
  | .part p body =>
      match body.match? text f with
      | (some rest, g) => (some rest, g)
      | (none, g) => (none, f.fail g p text.length)

namespace Pattern

def word (w : String) : Pattern :=
  .token (Grammar.word? w.toList)

def named (p : Part) (read : List Char → Option (List Char)) : Pattern :=
  .part p (.token read)

def sequence (first : Pattern) : List Pattern → Pattern
  | [] => first
  | next :: rest => .seq first (sequence next rest)

def ident : Pattern :=
  named .ident fun text => (Grammar.name? text).map Prod.snd

def number : Pattern :=
  named .number fun text => (Grammar.number? text).map Prod.snd

def bound : Pattern :=
  named .bound fun text => (Grammar.bound? text).map Prod.snd

def endOfInput : Pattern :=
  named .endOfInput fun text => if text.isEmpty then some [] else none

/-- The place where a form begins, before any gap. -/
def start : Pattern :=
  .token some

def assignment : Pattern :=
  .part .assignment (sequence ident [word "=", number, word ";"])

def call : Pattern :=
  .part .call (sequence ident
    [word "(", .optional (.part .argument (.either number ident)), word ")", word ";"])

def simpleStatement : Pattern :=
  .part .simpleStatement (sequence start [.either assignment call, endOfInput])

def ifHeader : Pattern :=
  .part .ifHeader (sequence start
    [word "if", word "(", ident, .optional (.seq (word "==") (.part .trueWord (word "true"))),
      word ")", endOfInput])

def forHeader : Pattern :=
  .part .forHeader (sequence start
    [word "for", word "(", named .intWord Grammar.intWord?, ident, word "=", bound, word ";",
      ident, word "<", bound, word ";", ident, word "++", word ")", endOfInput])

end Pattern

/-- The parts expected at the furthest place, each once, in listing order. -/
def expected (pattern : Pattern) (text : List Char) : List Part :=
  let kept := (pattern.match? text ⟨text.length, []⟩).2.parts
  Part.all.filter kept.contains

/-- The names joined by commas, with `or` before the last. -/
def enumerate : List String → String
  | [] => ""
  | [a] => a
  | [a, b] => a ++ " or " ++ b
  | names => ", ".intercalate names.dropLast ++ ", or " ++ names.getLastD ""

/-- The message for a text that departs from a pattern. -/
def message (pattern : Pattern) (text : List Char) : String :=
  "expected " ++ enumerate ((expected pattern text).map Part.name)

end Playscript.Script.Expectation
