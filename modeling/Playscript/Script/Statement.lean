import Playscript.Action
/-! Scripts as lists of statements, and the text that a statement stands for. -/
namespace Playscript.Script

/-- The longest loop that runs. -/
def maxIterations : Int64 := 100

inductive Argument
  | named (name : String)
  | literal (value : Int64)
deriving DecidableEq, Repr

def Argument.text : Argument → String
  | .named name => name
  | .literal value => toString value

/-- A unit of a script. What a recognizer yields has blocks at the top level only; every other
consumer takes blocks at any depth. -/
inductive Statement
  | assign (name : String) (value : Int64)
  | act (action : Action) (argument : Option Argument)
  | branch (condition : String) (body : List Statement)
  /-- The body is run for each value of the counter from `first` up to but without `stop`. -/
  | loop (counter : String) (first stop : Int64) (body : List Statement)
  /-- Text that is no statement. -/
  | unrecognized (text : String) (line : Nat) (reason : String)
  /-- A loop whose header has the right form but cannot be used. -/
  | malformedLoop (header : String) (line : Nat) (reason : String)
deriving Repr, Inhabited

namespace Statement

/-- The statements of a block, none for other statements. -/
def body : Statement → List Statement
  | .branch _ body => body
  | .loop _ _ _ body => body
  | _ => []

def isProblem : Statement → Bool
  | .unrecognized .. => true
  | .malformedLoop .. => true
  | _ => false

/-- The action that the statement itself calls. -/
def called? : Statement → Option Action
  | .act action _ => some action
  | _ => none

def calls (s : Statement) (action : Action) : Bool :=
  s.called? == some action

def kind : Statement → String
  | .assign .. => "assignment"
  | .act .. => "action"
  | .branch .. => "conditional"
  | .loop .. => "loop"
  | .unrecognized .. => "unrecognized"
  | .malformedLoop .. => "malformed loop"

def loopHeader (counter : String) (first stop : Int64) : String :=
  "for (int " ++ counter ++ " = " ++ toString first ++ "; " ++ counter ++ " < " ++
    toString stop ++ "; " ++ counter ++ "++)"

mutual

def text : Statement → String
  | .assign name value => name ++ " = " ++ toString value ++ ";"
  | .act action none => action.name ++ "();"
  | .act action (some argument) => action.name ++ "(" ++ argument.text ++ ");"
  | .branch condition body => "if (" ++ condition ++ ") \x7b" ++ bodyText body
  | .loop counter first stop body => loopHeader counter first stop ++ " \x7b" ++ bodyText body
  | .unrecognized text _ _ => text
  | .malformedLoop header _ _ => header ++ " \x7b ... \x7d"

/-- The statements of a block on one line, with the closing brace. -/
def bodyText : List Statement → String
  | [] => " \x7d"
  | s :: rest => " " ++ s.text ++ bodyText rest

end

end Statement

/-- The statements that are problems, those of bodies included, in order. -/
def problems (script : List Statement) : List Statement :=
  (script.flatMap fun s => s :: s.body).filter Statement.isProblem

end Playscript.Script
