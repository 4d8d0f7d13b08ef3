import Playscript.Failure
import Playscript.Files
import Playscript.Script.Recognizer
import Playscript.Text.Padding
/-! The checker: it tells which statements of a script file are recognized, and what is wrong with
the others. -/
namespace Playscript.Script.Check

def usage : String :=
  "Usage:\n  codequest_script check <file> [--allow <action,action,...>]"

inductive Refusal
  | usage
  | missingList
  | unknownAction (name : String)
deriving DecidableEq, Repr

def Refusal.message : Refusal → String
  | .usage => Check.usage
  | .missingList => "--allow requires a comma-separated list of actions"
  | .unknownAction name => "unknown action '" ++ name ++ "'"

structure Request where
  path : String
  allowed : ActionSet

/-- The actions of a list with commas; blank entries do not count. -/
def allowList (text : String) : Except Refusal ActionSet := do
  let names := ((text.splitOn ",").map Text.trimmed).filter (· ≠ "")
  let actions ← names.mapM fun name =>
    match Action.ofName? name with
    | some action => .ok action
    | none => .error (.unknownAction name)
  return .ofList actions

/-- Reads what follows the name of the command. The first argument that is no option is the path,
and the last list of actions counts. -/
def Request.read (path : Option String) (allowed : ActionSet) :
    List String → Except Refusal Request
  | [] => match path with
      | some path => .ok ⟨path, allowed⟩
      | none => .error .usage
  | ["--allow"] => .error .missingList
  | "--allow" :: list :: rest => do Request.read path (← allowList list) rest
  | argument :: rest => Request.read (path.or (some argument)) allowed rest

def Request.ofArguments : List String → Except Refusal Request
  | "check" :: rest => Request.read none .full rest
  | "--" :: "check" :: rest => Request.read none .full rest
  | _ => .error .usage

def problemLine (path : String) : Statement → String
  | .unrecognized text line reason =>
      path ++ ":" ++ line.repr ++ ": unrecognized `" ++ text ++ "`: " ++ reason
  | .malformedLoop header line reason =>
      path ++ ":" ++ line.repr ++ ": malformed loop `" ++ header ++ "`: " ++ reason
  | _ => ""

def statementLine (s : Statement) : String :=
  Text.alignLeft 12 s.kind ++ " " ++ s.text

def unlines (lines : List String) : String :=
  String.join (lines.map (· ++ "\n"))

/-- The outcome for a source text. Bodies are searched for problems too. -/
def outcome (r : Request) (source : String) : Outcome :=
  let script := recognize source r.allowed
  let recognized := (script.filter fun s => !s.isProblem).map statementLine
  match problems script with
  | [] =>
      let summary := "ok: " ++ script.length.repr ++ " statement(s) recognized"
      ⟨0, unlines (recognized ++ [summary]), ""⟩
  | found =>
      let summary := found.length.repr ++ " problem(s) found"
      ⟨1, unlines recognized, unlines (found.map (problemLine r.path) ++ [summary])⟩

def run {m : Type → Type} [Monad m] (files : Files m) (arguments : List String) : m Outcome :=
  match Request.ofArguments arguments with
  | .error refusal => pure ⟨2, "", unlines [refusal.message]⟩
  | .ok request => do
      match ← files.read request.path with
      | .ok source => return outcome request source
      | .error reason =>
          return ⟨1, "", unlines ["error: unable to read '" ++ request.path ++ "': " ++ reason]⟩

end Playscript.Script.Check
