import Playscript.Decimal.Numeral
import Playscript.Script.Comment
import Playscript.Script.Expectation
import Playscript.Script.Segment
import Playscript.Script.Statement
/-! Recognition of scripts. A script is stripped of comments and cut into segments, and each segment
becomes one statement; what has no form of a statement is kept as a problem, so that recognition
never fails. -/
namespace Playscript.Script

inductive Reason
  | form (message : String)
  | unknownAction (name : String)
  | lacksValue (action : Action)
  | takesNoValue (action : Action)
  | tooLarge (digits : String)
  | nested
  | unterminated
deriving DecidableEq, Repr

def Reason.message : Reason → String
  | .form message => "syntax: " ++ message
  | .unknownAction name => "'" ++ name ++ "' is not a command available in this level"
  | .lacksValue action => action.name ++ "() needs a value"
  | .takesNoValue action => action.name ++ "() takes no value"
  | .tooLarge digits => "number '" ++ digits ++ "' is too large"
  | .nested => "blocks cannot be nested inside another block"
  | .unterminated => "missing closing brace"

/-- Why a loop header of the right form cannot be used. -/
inductive LoopFault
  | otherName (declared tested stepped : String)
  | notWhole (bound : String)
  | tooLarge (bound : String)
  | backwards (first stop : Int64)
  | tooLong (iterations : Int64)
deriving DecidableEq, Repr

def LoopFault.message : LoopFault → String
  | .otherName declared tested stepped =>
      "loop declares '" ++ declared ++ "' but tests '" ++ tested ++ "' and increments '" ++
        stepped ++ "'"
  | .notWhole bound => "'" ++ bound ++ "' is not a whole number"
  | .tooLarge bound => "'" ++ bound ++ "' is too large"
  | .backwards first stop =>
      "start " ++ toString first ++ " is greater than end " ++ toString stop
  | .tooLong iterations =>
      toString iterations ++ " iterations is more than the limit of " ++ toString maxIterations

def number? (digits : List Char) : Except Reason Int64 :=
  match Decimal.toInt64? digits with
  | some value => .ok value
  | none => .error (.tooLarge (String.ofList digits))

def argument? : Option Grammar.Value → Except Reason (Option Argument)
  | none => .ok none
  | some (.name name) => .ok (some (.named (String.ofList name)))
  | some (.number digits) => (number? digits).map fun value => some (.literal value)

/-- A call to an allowed action, with a value exactly when the action takes one. -/
def call? (allowed : ActionSet) (name : String) (value : Option Grammar.Value) :
    Except Reason Statement :=
  match (Action.ofName? name).filter (· ∈ allowed) with
  | none => .error (.unknownAction name)
  | some action => do
      let argument ← argument? value
      match action.takesValue, argument with
      | true, none => .error (.lacksValue action)
      | false, some _ => .error (.takesNoValue action)
      | _, _ => .ok (.act action argument)

/-- The statement that a simple piece of text stands for. -/
def simple? (allowed : ActionSet) (text : List Char) : Except Reason Statement :=
  match Grammar.simple? text with
  | none => .error (.form (Expectation.message .simpleStatement text))
  | some (.assign name digits) =>
      (number? digits).map fun value => .assign (String.ofList name) value
  | some (.call name value) => call? allowed (String.ofList name) value

def condition? (header : List Char) : Except Reason String :=
  match Grammar.ifHeader? header with
  | none => .error (.form (Expectation.message .ifHeader header))
  | some condition => .ok (String.ofList condition)

def bound? (bound : List Char) : Except LoopFault Int64 :=
  if bound.all Char.isDigit then
    match Decimal.toInt64? bound with
    | some value => .ok value
    | none => .error (.tooLarge (String.ofList bound))
  else
    .error (.notWhole (String.ofList bound))

structure LoopRange where
  counter : String
  first : Int64
  stop : Int64
deriving DecidableEq, Repr

/-- The loop that a header of the right form describes. -/
def loopRange? (h : Grammar.Header) : Except LoopFault LoopRange := do
  if h.tested ≠ h.declared ∨ h.stepped ≠ h.declared then
    .error (.otherName (String.ofList h.declared) (String.ofList h.tested)
      (String.ofList h.stepped))
  else
    let first ← bound? h.first
    let stop ← bound? h.stop
    if stop < first then .error (.backwards first stop)
    else if maxIterations < stop - first then .error (.tooLong (stop - first))
    else .ok ⟨String.ofList h.declared, first, stop⟩

def unrecognized (index : Text.LineIndex) (segment : Segment) (reason : Reason) : Statement :=
  .unrecognized (String.ofList segment.text) (index.lineOf segment.offset) reason.message

/-- The statement of a segment inside a block. -/
def classifyInner (allowed : ActionSet) (index : Text.LineIndex) (segment : Segment) : Statement :=
  match segment with
  | .simple text _ =>
      match simple? allowed text with
      | .ok statement => statement
      | .error reason => unrecognized index segment reason
  | .unterminated .. => unrecognized index segment .unterminated
  | .block .. => unrecognized index segment .nested

/-- The statement of a segment at the top level. -/
def classify (allowed : ActionSet) (index : Text.LineIndex) (segment : Segment) : Statement :=
  match segment with
  | .block keyword header body bodyOffset _ offset =>
      let inner := fun _ : Unit =>
        (Segment.split body bodyOffset).map (classifyInner allowed index)
      match keyword with
      | .ifWord =>
          match condition? header with
          | .ok condition => .branch condition (inner ())
          | .error reason => unrecognized index segment reason
      | .forWord =>
          match Grammar.forHeader? header with
          | none =>
              unrecognized index segment (.form (Expectation.message .forHeader header))
          | some tokens =>
              match loopRange? tokens with
              | .ok range => .loop range.counter range.first range.stop (inner ())
              | .error fault =>
                  .malformedLoop (String.ofList header) (index.lineOf offset) fault.message
  | _ => classifyInner allowed index segment

/-- The statements of a source text, for a level that allows these actions. -/
def recognize (source : String) (allowed : ActionSet) : List Statement :=
  let text := stripComments source.toList
  (Segment.split text 0).map (classify allowed (.of text))

end Playscript.Script
