import Playscript.Level.Basic
/-! What goes wrong while a script runs. An issue never stops the run; its message is a line of the
trace. -/
namespace Playscript

inductive Issue
  | unrecognized (text : String) (line : Nat)
  | undefinedVariable (name : String)
  | outOfRange (value : Int64)
  | malformedLoop (header reason : String)
  | unknownCondition (name : String)
  | missingArgument (action : Action)
deriving DecidableEq, Repr

def Issue.message : Issue → String
  | .unrecognized text _ => "Unrecognized command: " ++ text
  | .undefinedVariable name => "Error: Variable '" ++ name ++ "' not defined"
  | .outOfRange value =>
      "Error: Speed " ++ toString value ++ " is out of range (" ++ toString minSpeed ++ "-" ++
        toString maxSpeed ++ ")"
  | .malformedLoop header reason =>
      "Error: Malformed loop bounds in `" ++ header ++ "`: " ++ reason ++ ". Loop skipped."
  | .unknownCondition name => "Error: Unknown condition '" ++ name ++ "'"
  | .missingArgument action => "Error: " ++ action.name ++ "() needs a value"

end Playscript
