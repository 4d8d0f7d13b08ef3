import Playscript.Text.LineBreak
import Playscript.Text.Terminal
/-! Filling: a text is broken into lines of a given width so that the total cost of the lines is
least. A line costs more the more room it leaves, and far more when it is too wide. Widths count
what a terminal shows. -/
namespace Playscript.Text.Filling

/-- A word, or a part of one, with the number of spaces that follow it. A line may end after any
fragment and then loses the spaces. -/
structure Fragment where
  word : List Char
  gap : Nat
deriving DecidableEq, Repr

namespace Fragment

def width (f : Fragment) : Nat := Terminal.width f.word

/-- Puts characters in front of the first part. -/
def onFirst (cs : List Char) (parts : List (List Char)) : List (List Char) :=
  match parts with
  | [] => [cs]
  | part :: rest => (cs ++ part) :: rest

/-- The words of a line from a place on, the rest of a word that began before it first. Control
sequences belong to the character after them. No word ends right after a hyphen: whether a line may
end there, the hyphen's neighbours decide. -/
def wordsFrom (place : LinePlace) (hyphen : Bool) : List Terminal.Glyph → List (List Char)
  | [] => [[]]
  | ⟨hidden, none⟩ :: rest => onFirst hidden (wordsFrom place hyphen rest)
  | ⟨hidden, some c⟩ :: rest =>
      let kind := BreakClass.ofChar c
      let words := onFirst (hidden ++ [c]) (wordsFrom (place.next kind) (c == '-') rest)
      if place.mayEnd kind && !hyphen then [] :: words else words

/-- The words with the last two made one. -/
def joinLast : List (List Char) → List (List Char)
  | [v, w] => [v ++ w]
  | w :: rest => w :: joinLast rest
  | [] => []

/-- The words of a line with the spaces that follow them, cut where a line may end. A hyphen at the
end of the line holds the last two together. -/
def words (line : List Char) : List (List Char) :=
  let glyphs := Terminal.glyphs line
  let words := wordsFrom .start false glyphs
  if (glyphs.filterMap Terminal.Glyph.shown).getLast? = some '-' then joinLast words else words

/-- The parts of a word, cut after every hyphen between two letters or digits. -/
def hyphenParts : List Char → List (List Char)
  | c :: '-' :: d :: rest =>
      if c.isAlphanum && d.isAlphanum then [c, '-'] :: hyphenParts (d :: rest)
      else onFirst [c] (hyphenParts ('-' :: d :: rest))
  | c :: rest => onFirst [c] (hyphenParts rest)
  | [] => []

/-- Glyphs in pieces that are no wider than the width, where so many places of the first piece are
taken. A piece keeps the control sequences after its last character. -/
def pieces (width taken : Nat) : List Terminal.Glyph → List (List Char)
  | [] => [[]]
  | g :: rest =>
      if 0 < taken ∧ width < taken + g.width then
        g.hidden :: onFirst g.shown.toList (pieces width g.width rest)
      else
        onFirst g.chars (pieces width (taken + g.width) rest)

/-- A part cut into pieces of the width. -/
def cut (width : Nat) (part : List Char) : List (List Char) :=
  pieces width 0 (Terminal.glyphs part)

/-- The parts of a word as fragments, of which the last has the spaces. -/
def ofParts (gap : Nat) (parts : List (List Char)) : List Fragment :=
  match parts with
  | [] => [⟨[], gap⟩]
  | [part] => [⟨part, gap⟩]
  | part :: rest => ⟨part, 0⟩ :: ofParts gap rest

/-- A word with its spaces, cut where a line may end inside it. -/
def ofWord (width : Nat) (word : List Char) : List Fragment :=
  let gap := (word.reverse.takeWhile (· == ' ')).length
  ofParts gap ((hyphenParts (word.take (word.length - gap))).flatMap (cut width))

def ofLine (width : Nat) (line : List Char) : List Fragment :=
  (words line).flatMap (ofWord width)

/-- Fragments written out, without the spaces after the last. -/
def joined : List Fragment → List Char
  | [] => []
  | [f] => f.word
  | f :: rest => f.word ++ List.replicate f.gap ' ' ++ joined rest

end Fragment

/-- A way to break a text as far as it has been read: the finished lines, and the line to which
the next fragment is added. Both have the latest first. -/
structure Draft where
  cost : Nat
  lines : List (List Fragment)
  line : List Fragment
  /-- The width of the open line with the spaces at its end. -/
  taken : Nat

namespace Draft

/-- Adds a fragment that takes so many places with its spaces. -/
def add (f : Fragment) (size : Nat) (d : Draft) : Draft :=
  { d with line := f :: d.line, taken := d.taken + size }

def lineWidth (d : Draft) : Nat :=
  d.taken - (d.line.head?.map Fragment.gap).getD 0

/-- What the open line costs if it ends here: a thousand, and for each place by which it is too
wide 2500 more, else the square of the room that it leaves. The last line may leave any room, but
one fragment alone on less than a quarter of it costs 25. -/
def lineCost (width : Nat) (last : Bool) (d : Draft) : Nat :=
  1000 +
    if d.lineWidth > width then (d.lineWidth - width) * 2500
    else if !last then (width - d.lineWidth) * (width - d.lineWidth)
    else if d.line.length = 1 ∧ 4 * d.lineWidth < width then 25
    else 0

def close (width : Nat) (last : Bool) (d : Draft) : Draft :=
  ⟨d.cost + d.lineCost width last, d.line :: d.lines, [], 0⟩

/-- The cheapest draft, of equal ones the first. -/
def cheapest (first : Draft) (others : List Draft) : Draft :=
  others.foldl (fun best d => if d.cost < best.cost then d else best) first

/-- The cheapest draft with its open line ended. -/
def cheapestClosed (width : Nat) (last : Bool) (first : Draft) (others : List Draft) : Draft :=
  cheapest (first.close width last) (others.map (close width last))

/-- Reads fragments. The drafts differ in where their open line starts, earlier starts first; each
is the cheapest with that start. -/
def read (width : Nat) (first : Draft) (others : List Draft) : List Fragment → Draft
  | [] => cheapestClosed width true first others
  | f :: rest =>
      let broken := cheapestClosed width false first others
      let size := f.width + f.gap
      read width (first.add f size) ((others ++ [broken]).map (add f size)) rest

end Draft

def lines (width : Nat) (line : List Char) : List (List Char) :=
  match Fragment.ofLine width line with
  | [] => [[]]
  | f :: rest =>
      let done := Draft.read width (Draft.add f (f.width + f.gap) ⟨0, [], [], 0⟩) [] rest
      done.lines.reverse.map fun fragments => Fragment.joined fragments.reverse

/-- A line that is shorter than the width only loses the spaces at its end. -/
def fillLine (width : Nat) (line : String) : List String :=
  if line.utf8ByteSize < width then
    [String.ofList (line.toList.reverse.dropWhile (· == ' ')).reverse]
  else
    (lines width line.toList).map String.ofList

end Playscript.Text.Filling

namespace Playscript.Text

/-- The text with its lines filled to a width. -/
def fill (width : Nat) (text : String) : String :=
  "\n".intercalate ((text.splitOn "\n").flatMap (Filling.fillLine width))

end Playscript.Text
