import Playscript.Document.Json
import Playscript.Prompt.Command
import Playscript.Run.Event
import Playscript.Text.Filling
import Playscript.Text.Lines
import Playscript.Text.Padding
import Playscript.Text.Style
import Playscript.World.Snapshot
/-! What the prompt shows to the player. The items of one answer are shown as a page, in three
groups under headings, and in order within each group. -/
namespace Playscript

structure LevelRow where
  number : UInt32
  name : String
  slug : String
  /-- The level that is being played. -/
  current : Bool
deriving DecidableEq, Repr

inductive Item (α : Type)
  | intro (title instructions : String)
  | instructions (text : String)
  | levelHelp (text : String)
  | commandHelp (usages : List (String × String))
  | levels (rows : List LevelRow)
  | code (script : String)
  | trace (lines : List String)
  | picture (snapshot : Snapshot α)
  | document (snapshot : Snapshot α)
  | event (event : Event α)
  | praise (text : String)
  | notice (text : String)
  | error (text : String)

inductive Group
  | level
  | results
  | system
deriving DecidableEq, Repr

namespace Group

/-- The groups in the order in which a page shows them. -/
def all : List Group :=
  [.level, .results, .system]

def label : Group → String
  | .level => "level"
  | .results => "results"
  | .system => "codequest"

end Group

/-- The terminal: its width and whether it shows colours. -/
structure Display where
  width : Nat
  colors : Bool
deriving DecidableEq, Repr

namespace Display

/-- The widest that running text gets. -/
def maxTextWidth : Nat := 100

def filled (d : Display) (text : String) : String :=
  Text.fill (min d.width maxTextWidth) text

def style (d : Display) (s : Text.Style) (text : String) : String :=
  s.apply d.colors text

end Display

namespace Item

variable {α : Type}

def group : Item α → Group
  | .intro .. | .instructions _ | .levelHelp _ | .code _ | .picture _ => .level
  | .trace _ | .event _ | .praise _ | .error _ => .results
  | .commandHelp _ | .levels _ | .document _ | .notice _ => .system

/-- The lines of a script with their numbers. -/
def numbered (d : Display) (script : String) : List String :=
  ((Text.linesOf script).zipIdx 1).map fun (line, n) =>
    Text.Style.lineNumber.paint d.colors n.repr (Text.alignRight ' ' 3) ++ " " ++
      d.style .code line

/-- The paragraphs that an item shows, each of which ends with a line feed. -/
def paragraphs (d : Display) : Item Float → List String
  | .intro title text =>
      [Text.Style.title.paint d.colors title (Text.alignCentre d.width), "",
        d.style .instructions (d.filled text)]
  | .instructions text => [d.style .instructions (d.filled text)]
  | .levelHelp text => [d.style .subheading "Help", d.style .hint text]
  | .commandHelp usages =>
      usages.map fun (usage, description) =>
        "  " ++ Text.Style.usage.paint d.colors usage (Text.alignLeft 18) ++ " " ++ description
  | .levels rows =>
      rows.map fun row =>
        (if row.current then "\u25b6" else " ") ++ " " ++ row.number.toNat.repr ++ ". " ++
          row.name ++ " (" ++ d.style .hint row.slug ++ ")"
  | .code script => numbered d script
  | .trace logged => logged.map (d.style .trace)
  | .picture snapshot => snapshot.describe
  | .document snapshot => [Document.Json.pretty "" snapshot.toValue]
  | .event e => ["  " ++ d.style .event e.text]
  | .praise text => ["\u2611 " ++ d.style .success text]
  | .notice text => ["\u2699 " ++ d.filled text]
  | .error text => ["\u26a0\ufe0e " ++ d.style .error text]

end Item

namespace Display

def line (text : String) : String :=
  text ++ "\n"

/-- The items of one group under its heading; nothing if there are none. -/
def groupText (d : Display) (items : List (Item Float)) (group : Group) : String :=
  match items.filter fun item => item.group == group with
  | [] => ""
  | shown =>
      let heading := Text.Style.sectionLabel.paint d.colors group.label
        (Text.alignRight '.' d.width)
      line heading ++ line "" ++
        String.join ((shown.flatMap (Item.paragraphs d)).map line) ++ line ""

def page (d : Display) (items : List (Item Float)) : String :=
  String.join (Group.all.map (d.groupText items))

end Display

end Playscript
