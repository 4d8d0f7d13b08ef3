import Playscript.Text.Padding
/-! Failures with what led to them, and how a command of the terminal ends. -/
namespace Playscript

/-- A description of what failed, and its causes from the nearest to the first. -/
structure Failure where
  message : String
  causes : List String
deriving DecidableEq, Repr

namespace Failure

def within (context : String) (f : Failure) : Failure :=
  ⟨context, f.message :: f.causes⟩

def text (f : Failure) : String :=
  ": ".intercalate (f.message :: f.causes)

def indented (lead : String) (cause : String) : String :=
  lead ++ ("\n" ++ "".pushn ' ' lead.length).intercalate (cause.splitOn "\n")

/-- The causes one below the other, numbered from zero if there are several. -/
def listed (causes : List String) : String :=
  match causes with
  | [cause] => indented "    " cause
  | _ => "\n".intercalate <| causes.zipIdx.map fun (cause, n) =>
      indented (Text.alignRight ' ' 5 n.repr ++ ": ") cause

/-- The failure with its causes on lines of their own. -/
def report (f : Failure) : String :=
  "Error: " ++ f.message ++
    (if f.causes.isEmpty then "" else "\n\nCaused by:\n" ++ listed f.causes) ++ "\n"

end Failure

/-- How a command ends: its exit code and all that it has written. -/
structure Outcome where
  exit : Nat
  output : String
  errors : String
deriving DecidableEq, Repr

end Playscript
