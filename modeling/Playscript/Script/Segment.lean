import Playscript.Text.Blank
import Playscript.Text.Position
/-! Segments of a script: the pieces of comment-free text that are recognized one by one. A piece
is a block from its keyword to the closing brace, a block header whose brace is never closed, or a
simple piece up to a semicolon or the end of its line. -/
namespace Playscript.Script

/-- The words that begin a block. -/
inductive Keyword
  | ifWord
  | forWord
deriving DecidableEq, Repr

def Keyword.word : Keyword → List Char
  | .ifWord => ['i', 'f']
  | .forWord => ['f', 'o', 'r']

/-- A piece of text with the place at which it begins, in bytes of UTF-8. -/
inductive Segment
  | simple (text : List Char) (offset : Nat)
  /-- A block with the text between its braces and the place of that text. -/
  | block (keyword : Keyword) (header body : List Char) (bodyOffset : Nat)
      (text : List Char) (offset : Nat)
  /-- A header with its brace, which is never closed. -/
  | unterminated (text : List Char) (offset : Nat)
deriving Repr

namespace Segment

def text : Segment → List Char
  | .simple text _ => text
  | .block _ _ _ _ text _ => text
  | .unterminated text _ => text

def offset : Segment → Nat
  | .simple _ offset => offset
  | .block _ _ _ _ _ offset => offset
  | .unterminated _ offset => offset

/-- A character that can stand in a name. -/
def isWordChar (c : Char) : Bool :=
  c.isAlphanum || c == '_'

/-- Whether the text begins with the keyword and not with a longer name. -/
def startsWith (keyword : Keyword) (text : List Char) : Bool :=
  match keyword.word.isPrefixOf? text with
  | some rest => !(rest.head?.any isWordChar)
  | none => false

def keyword? (text : List Char) : Option Keyword :=
  if startsWith .ifWord text then some .ifWord
  else if startsWith .forWord text then some .forWord
  else none

/-- A header with a closing brace, or with more semicolons than its form has, is no header: the
brace after it belongs to something further down. -/
def isPlausible (keyword : Keyword) (header : List Char) : Bool :=
  !header.contains '}' &&
    match keyword with
    | .ifWord => header.count ';' == 0
    | .forWord => header.count ';' ≤ 2

/-- The text up to the brace that closes a block, and the text after that brace, when `depth`
further blocks are open. -/
def closeBody? (depth : Nat) : List Char → Option (List Char × List Char)
  | [] => none
  | c :: cs =>
      if c = '}' then
        match depth with
        | 0 => some ([], cs)
        | depth + 1 => (closeBody? depth cs).map fun (body, rest) => (c :: body, rest)
      else
        let depth := if c = '{' then depth + 1 else depth
        (closeBody? depth cs).map fun (body, rest) => (c :: body, rest)

/-- The segment up to a semicolon or the end of the line, and the text after it. -/
def simplePiece (text : List Char) (offset : Nat) : Segment × List Char :=
  let line := text.takeWhile fun c => c != ';' && c != '\n'
  match text.drop line.length with
  | ';' :: rest => (.simple (line ++ [';']) offset, rest)
  | rest => (.simple (Text.trimEnd line) offset, rest)

/-- The first segment of a text that begins with no blank, at a place, and the text after it. -/
def first (text : List Char) (offset : Nat) : Segment × List Char :=
  match keyword? text with
  | none => simplePiece text offset
  | some keyword =>
      let header := text.takeWhile (· != '{')
      match text.drop header.length with
      | [] => simplePiece text offset
      | brace :: inside =>
          if isPlausible keyword header then
            match closeBody? 0 inside with
            | some (body, rest) =>
                (.block keyword (Text.trim header) body (offset + Text.size header + 1)
                  (header ++ brace :: body ++ ['}']) offset, rest)
            | none => (.unterminated (header ++ [brace]) offset, inside)
          else
            simplePiece text offset

theorem length_closeBody?_le {depth : Nat} {text body rest : List Char}
    (h : closeBody? depth text = some (body, rest)) : rest.length ≤ text.length := by
  induction text generalizing depth body rest with
  | nil => simp [closeBody?] at h
  | cons c cs ih =>
      simp only [closeBody?] at h
      split at h
      · cases depth with
        | zero =>
            simp only [Option.some.injEq, Prod.mk.injEq] at h
            simp [h.2]
        | succ depth =>
            obtain ⟨⟨b, r⟩, hb, he⟩ := Option.map_eq_some_iff.mp h
            simp only [Prod.mk.injEq] at he
            have := ih hb
            simp only [← he.2, List.length_cons]
            omega
      · obtain ⟨⟨b, r⟩, hb, he⟩ := Option.map_eq_some_iff.mp h
        simp only [Prod.mk.injEq] at he
        have := ih hb
        simp only [← he.2, List.length_cons]
        omega

/-- A simple segment takes at least one character of a text that begins with no blank. -/
theorem length_simplePiece_lt {c : Char} {cs : List Char} (hc : Text.isBlank c = false)
    (offset : Nat) :
    (simplePiece (c :: cs) offset).2.length < (c :: cs).length := by
  unfold simplePiece
  have hline : (c :: cs).takeWhile (fun c => c != ';' && c != '\n') = [] → c = ';' := by
    intro h
    simp only [List.takeWhile_cons] at h
    split at h
    · simp at h
    · rename_i hn
      by_cases hs : c = ';'
      · exact hs
      · have : c = '\n' := by simpa [hs] using hn
        subst this
        exact absurd hc (by decide)
  generalize (c :: cs).takeWhile (fun c => c != ';' && c != '\n') = line at hline
  simp only
  split
  · rename_i rest h
    have := congrArg List.length h
    simp only [List.length_drop, List.length_cons] at this ⊢
    omega
  · rename_i rest h
    cases line with
    | nil =>
        have := hline rfl
        subst this
        exact absurd rfl (h cs)
    | cons d ds =>
        simp only [List.length_drop, List.length_cons]
        omega

/-- The text after the first segment is shorter than the text. -/
theorem length_first_lt {c : Char} {cs : List Char} (hc : Text.isBlank c = false) (offset : Nat) :
    (first (c :: cs) offset).2.length < (c :: cs).length := by
  unfold first
  split
  · exact length_simplePiece_lt hc offset
  · rename_i keyword _
    simp only
    split
    · exact length_simplePiece_lt hc offset
    · rename_i brace inside h
      have hl := congrArg List.length h
      simp only [List.length_drop, List.length_cons] at hl
      split
      · split
        · rename_i body rest hb
          have := length_closeBody?_le hb
          simp only [List.length_cons]
          omega
        · simp only [List.length_cons]
          omega
      · exact length_simplePiece_lt hc offset

/-- The segments of a text in order, when the text itself begins at a place. -/
def split (text : List Char) (offset : Nat) : List Segment :=
  match _h : Text.trimStart text with
  | [] => []
  | c :: cs =>
      let start := offset + (Text.size text - Text.size (c :: cs))
      let found := first (c :: cs) start
      found.1 :: split found.2 (offset + (Text.size text - Text.size found.2))
termination_by text.length
decreasing_by
  have hc := Text.isBlank_head_trimStart _h
  have h1 := @length_first_lt c cs hc (offset + (Text.size text - Text.size (c :: cs)))
  have h2 := Text.length_trimStart_le text
  rw [_h] at h2
  omega

end Segment

end Playscript.Script
