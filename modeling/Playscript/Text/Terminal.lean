/-! Texts as a terminal shows them. A control sequence begins with an escape character and is not
shown; other control characters are shown without a width. -/
namespace Playscript.Text.Terminal

/-- The rest of a sequence that the first character from `@` to `~` ends, and the text after it. -/
def control : List Char → List Char × List Char
  | [] => ([], [])
  | c :: rest =>
      if '@' ≤ c ∧ c ≤ '~' then ([c], rest)
      else (c :: (control rest).1, (control rest).2)

/-- The rest of a sequence that a bell, or an escape character with a backslash, ends, and the text
after it. -/
def command : List Char → List Char × List Char
  | '\x07' :: rest => (['\x07'], rest)
  | '\x1b' :: '\\' :: rest => (['\x1b', '\\'], rest)
  | c :: rest => (c :: (command rest).1, (command rest).2)
  | [] => ([], [])

/-- What belongs to a control sequence after its escape character, and the text after it. -/
def sequence : List Char → List Char × List Char
  | '[' :: rest => ('[' :: (control rest).1, (control rest).2)
  | ']' :: rest => (']' :: (command rest).1, (command rest).2)
  | c :: rest => ([c], rest)
  | [] => ([], [])

theorem control_append (text : List Char) : (control text).1 ++ (control text).2 = text := by
  induction text with
  | nil => rfl
  | cons c rest ih =>
      rw [control]
      split
      · rfl
      · exact congrArg (c :: ·) ih

theorem command_append (text : List Char) : (command text).1 ++ (command text).2 = text := by
  fun_induction command text with
  | case1 => rfl
  | case2 => rfl
  | case3 c rest _ _ ih => exact congrArg (c :: ·) ih
  | case4 => rfl

/-- A sequence and the text after it are the whole text. -/
theorem sequence_append (text : List Char) : (sequence text).1 ++ (sequence text).2 = text := by
  fun_cases sequence text with
  | case1 rest => exact congrArg ('[' :: ·) (control_append rest)
  | case2 rest => exact congrArg (']' :: ·) (command_append rest)
  | case3 => rfl
  | case4 => rfl

theorem length_sequence_le (text : List Char) : (sequence text).2.length ≤ text.length := by
  have h := congrArg List.length (sequence_append text)
  rw [List.length_append] at h
  omega

/-- A shown character with the control sequences before it. After the last one there may be control
sequences alone. -/
structure Glyph where
  hidden : List Char
  shown : Option Char
deriving DecidableEq, Repr

namespace Glyph

def chars (g : Glyph) : List Char :=
  g.hidden ++ g.shown.toList

/-- The places that a glyph takes: none for a control character. -/
def width (g : Glyph) : Nat :=
  match g.shown with
  | none => 0
  | some c => if c.toNat < 0x20 ∨ (0x7F ≤ c.toNat ∧ c.toNat ≤ 0x9F) then 0 else 1

end Glyph

/-- Puts a control sequence before the first glyph. -/
def hide (sequence : List Char) (glyphs : List Glyph) : List Glyph :=
  match glyphs with
  | [] => [⟨sequence, none⟩]
  | g :: rest => ⟨sequence ++ g.hidden, g.shown⟩ :: rest

def glyphs (text : List Char) : List Glyph :=
  match text with
  | [] => []
  | c :: rest =>
      if c = '\x1b' then hide (c :: (sequence rest).1) (glyphs (sequence rest).2)
      else ⟨[], some c⟩ :: glyphs rest
termination_by text.length
decreasing_by
  · have h := length_sequence_le rest
    simp only [List.length_cons]
    omega
  · simp only [List.length_cons]
    omega

def width (text : List Char) : Nat :=
  (glyphs text).foldl (fun n g => n + g.width) 0

end Playscript.Text.Terminal
