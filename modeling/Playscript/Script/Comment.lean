import Playscript.Text.Lines
/-! Comments run from `//` to the end of the line. -/
namespace Playscript.Script

def cutComment : List Char → List Char
  | '/' :: '/' :: _ => []
  | c :: cs => c :: cutComment cs
  | [] => []

/-- The text without comments, its lines joined by line feeds. Lines keep their numbers. -/
def stripComments (text : List Char) : List Char :=
  Text.unlines ((Text.lines text).map cutComment)

end Playscript.Script
