/-! The lines of a text. A line ends at a line feed; one carriage return before the line feed
belongs to the terminator. A text that ends with a line feed has no further, empty line, and a
last line without a terminator keeps its carriage return. -/
namespace Playscript.Text

/-- The line without the carriage return at its end, if it has one. -/
def dropReturn (line : List Char) : List Char :=
  if line.getLast? = some '\r' then line.dropLast else line

def lines (text : List Char) : List (List Char) :=
  match text with
  | [] => []
  | c :: cs =>
      let line := (c :: cs).takeWhile (· != '\n')
      match _h : (c :: cs).dropWhile (· != '\n') with
      | [] => [line]
      | _ :: rest => dropReturn line :: lines rest
termination_by text.length
decreasing_by
  have := (List.dropWhile_sublist (l := c :: cs) (· != '\n')).length_le
  rw [_h] at this
  simp only [List.length_cons] at this ⊢
  omega

def linesOf (text : String) : List String :=
  (lines text.toList).map String.ofList

/-- Lines joined by line feeds, with none after the last. -/
def unlines (ls : List (List Char)) : List Char :=
  List.intercalate ['\n'] ls

end Playscript.Text
