import Playscript.Text.Blank
import Playscript.Text.Case
/-! The commands that a player gives at the prompt. The first word of a line names the command, in
any case; the rest is its argument, without the blanks around it. -/
namespace Playscript

inductive Command
  | help
  | instructions
  | levels
  | level (name : String)
  | look
  | snapshot
  | code
  | edit
  | load (path : String)
  | run
  | reset
  | next
  | quit
  | unknown (text : String)
deriving DecidableEq, Repr

namespace Command

/-- How each command is written and what it does, in the order in which help lists them. -/
def usages : List (String × String) :=
  [("help", "show this list and the current level's help"),
    ("instructions", "repeat the level instructions"),
    ("levels", "list all levels"),
    ("level <n|name>", "jump to a level"),
    ("code", "show the script that `run` will execute"),
    ("edit", "type a new script; finish with a line holding only ."),
    ("load <file>", "read the script from a file"),
    ("run", "run the script"),
    ("show", "describe the playfield"),
    ("snapshot", "print the playfield as JSON"),
    ("reset", "put the level back to its starting state"),
    ("next", "move on to the next level once this one is completed"),
    ("quit", "leave CodeQuest")]

/-- The command of a word in lower case that goes with an argument. Only help ignores an argument
that it does not take. -/
def ofWord? (word argument : String) : Option Command :=
  let alone (c : Command) : Option Command := if argument = "" then some c else none
  let withArgument (c : Command) : Option Command := if argument = "" then none else some c
  match word with
  | "help" | "?" | "h" => some .help
  | "instructions" | "i" => alone .instructions
  | "levels" => alone .levels
  | "level" | "goto" => withArgument (.level argument)
  | "show" | "look" => alone .look
  | "snapshot" => alone .snapshot
  | "code" | "list" => alone .code
  | "edit" => alone .edit
  | "load" => withArgument (.load argument)
  | "run" | "r" => alone .run
  | "reset" => alone .reset
  | "next" => alone .next
  | "quit" | "exit" | "q" => alone .quit
  | _ => none

/-- The command on a line. A line that is none is unknown. -/
def ofLine (line : String) : Command :=
  let text := Text.trim line.toList
  let word := String.ofList (text.takeWhile fun c => !Text.isBlank c)
  let argument := String.ofList (Text.trim (text.dropWhile fun c => !Text.isBlank c))
  (ofWord? (Text.fold word) argument).getD (.unknown (String.ofList text))

end Command

end Playscript
