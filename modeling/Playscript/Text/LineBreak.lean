/-! Where a line of text may end: the rules of Unicode for the line breaking classes of ASCII. Every
other character counts as a letter. The text is one line, so a line feed does not follow a carriage
return in it. -/
namespace Playscript.Text

/-- Characters that the rules do not tell apart. -/
inductive BreakClass
  /-- Ends its line in any case. -/
  | lineEnd
  | space
  /-- A control character, which belongs to the character before it. -/
  | control
  /-- A line may end after it. -/
  | breakAfter
  | hyphen
  | opening
  | closingBrace
  | closingBracket
  | quote
  | exclamation
  /-- A comma, a period, a colon or a semicolon. -/
  | separator
  | slash
  | digit
  | letter
  /-- Stands before a number. -/
  | sign
  /-- Stands after a number. -/
  | percent
deriving DecidableEq, Repr

namespace BreakClass

def ofChar (c : Char) : BreakClass :=
  match c with
  | '\n' | '\x0b' | '\x0c' | '\r' => .lineEnd
  | ' ' => .space
  | '\t' | '|' => .breakAfter
  | '-' => .hyphen
  | '(' | '[' | '\x7b' => .opening
  | '\x7d' => .closingBrace
  | ')' | ']' => .closingBracket
  | '"' | '\'' => .quote
  | '!' | '?' => .exclamation
  | ',' | '.' | ':' | ';' => .separator
  | '/' => .slash
  | '$' | '+' | '\\' => .sign
  | '%' => .percent
  | c =>
      if c.isDigit then .digit
      else if c.toNat < 0x20 ∨ c.toNat = 0x7F then .control
      else .letter

/-- The class does not begin a line, even after spaces. -/
def clings : BreakClass → Bool
  | .closingBrace | .closingBracket | .exclamation | .separator | .slash => true
  | _ => false

def isWordy : BreakClass → Bool
  | .letter | .digit => true
  | _ => false

/-- Signs that stand with a number. -/
def isSign : BreakClass → Bool
  | .sign | .percent => true
  | _ => false

/-- Words and numbers hold together, with the signs that belong to them and with the brackets that
stand right before or after them. -/
def holds (a b : BreakClass) : Bool :=
  match a with
  | .letter | .digit => b.isWordy || b.isSign || b == .opening
  | .sign | .percent => b.isWordy || b == .opening
  | .closingBracket => b.isWordy || b.isSign
  | .closingBrace => b.isSign
  | .separator => b.isWordy
  | .slash | .hyphen => b == .digit
  | _ => false

/-- No line ends between neighbours of these classes. -/
def joins (a b : BreakClass) : Bool :=
  a == .quote || b == .quote || b == .breakAfter || b == .hyphen || holds a b

/-- A line may end between characters of two classes, with or without spaces between them. Only
after an opening bracket and before what clings do spaces make no difference. -/
def parts (a : BreakClass) (spaced : Bool) (b : BreakClass) : Bool :=
  !b.clings && a != .opening && (spaced || !joins a b)

end BreakClass

/-- What stands before a place in a line, as far as it matters for the place. -/
inductive LinePlace
  | start
  /-- After a character that ends its line. -/
  | ended
  /-- After spaces at the start. -/
  | blank
  /-- After a character of a class, with or without spaces after it. -/
  | after (kind : BreakClass) (spaced : Bool)
deriving DecidableEq, Repr

namespace LinePlace

/-- The next place, past a character of the class. -/
def next (p : LinePlace) (b : BreakClass) : LinePlace :=
  match b with
  | .lineEnd => .ended
  | .space =>
      match p with
      | .after a _ => .after a true
      | _ => .blank
  | .control =>
      match p with
      | .after a false => .after a false
      | _ => .after .letter false
  | b => .after b false

/-- A line may end here, before a character of the class. A control character that belongs to none
before it counts as a letter. -/
def mayEnd (p : LinePlace) (b : BreakClass) : Bool :=
  match p, b with
  | .ended, _ => true
  | _, .lineEnd | _, .space => false
  | .start, _ => false
  | .blank, b => !b.clings
  | .after _ false, .control => false
  | .after a true, .control => a.parts true .letter
  | .after a spaced, b => a.parts spaced b

end LinePlace

end Playscript.Text
