/-! Styles of text on a terminal. A styled text stands between a control sequence that selects the
style and one that ends all styles. -/
namespace Playscript.Text

inductive Style
  | title
  | subheading
  | sectionLabel
  | instructions
  | code
  | trace
  | event
  | error
  | success
  | hint
  | usage
  | lineNumber
  | banner
  | tagline
deriving DecidableEq, Repr

namespace Style

/-- The codes of a style: 1 bold, 2 faint, 3 italic, 4 underlined, 38 and 93 a colour. -/
def codes : Style → String
  | .title => "1;4;38;2;250;200;60"
  | .subheading => "4"
  | .sectionLabel => "38;2;75;80;75"
  | .instructions => "3;38;2;102;208;250"
  | .code => "38;2;200;200;200"
  | .trace => "38;2;150;230;150"
  | .event => "2;38;2;120;120;230"
  | .error => "38;2;230;30;30"
  | .success => "1;38;2;40;220;90"
  | .hint => "2;3"
  | .usage => "1"
  | .lineNumber => "2"
  | .banner => "4;93"
  | .tagline => "3"

def opening (s : Style) : String :=
  "\x1b[" ++ s.codes ++ "m"

def closing : String := "\x1b[0m"

/-- Selects a style again after every end of styles inside a text. -/
def reopen (opening : List Char) : List Char → List Char
  | '\x1b' :: '[' :: '0' :: 'm' :: rest =>
      '\x1b' :: '[' :: '0' :: 'm' :: (opening ++ reopen opening rest)
  | c :: rest => c :: reopen opening rest
  | [] => []

/-- The text as the style shows it without colours: section labels stand in brackets. -/
def plain (s : Style) (text : String) : String :=
  match s with
  | .sectionLabel => "[" ++ text ++ "]"
  | _ => text

/-- The text in its style, put into its field by `align`. The blanks of the field lie inside the
style, and control sequences inside the text count as characters. -/
def paint (s : Style) (colors : Bool) (text : String) (align : String → String) : String :=
  if colors then
    let inner := String.ofList (reopen s.opening.toList (s.plain text).toList)
    s.opening ++ align inner ++ closing
  else
    align (s.plain text)

def apply (s : Style) (colors : Bool) (text : String) : String :=
  s.paint colors text id

end Style

end Playscript.Text
