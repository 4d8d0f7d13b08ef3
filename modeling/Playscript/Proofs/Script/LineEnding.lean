import Playscript.Proofs.Script.Locality
/-! Comments and line endings. A script reads as the bare lines of its code, joined by line feeds,
whatever comments stand behind them and however the lines end. -/
namespace Playscript.Script

inductive LineEnding
  | feed
  | returnFeed
deriving DecidableEq, Repr

def LineEnding.text : LineEnding → List Char
  | .feed => ['\n']
  | .returnFeed => ['\r', '\n']

/-- A line of code with a comment behind it, or with none. -/
structure CodeLine where
  code : List Char
  comment : Option (List Char)
  one_line : '\n' ∉ code ∧ '\r' ∉ code
  no_comment : ¬ ['/', '/'] <:+: code
  /-- The comment begins behind the code, not with its last character. -/
  no_slash_end : code.getLast? ≠ some '/'
  comment_one_line : ∀ text ∈ comment, '\n' ∉ text ∧ '\r' ∉ text

namespace CodeLine

def text (line : CodeLine) : List Char :=
  line.code ++ line.comment.elim [] fun comment => '/' :: '/' :: comment

/-- The line without its comment. -/
def bare (line : CodeLine) : CodeLine :=
  { line with comment := none, comment_one_line := nofun }

variable (line : CodeLine)

theorem text_bare : line.bare.text = line.code :=
  List.append_nil line.code

theorem cutComment_text : cutComment line.text = line.code := by
  rw [text, cutComment_append line.no_comment line.no_slash_end]
  cases line.comment with
  | none => exact List.append_nil line.code
  | some comment => exact List.append_nil line.code

theorem not_mem_text : '\n' ∉ line.text ∧ '\r' ∉ line.text := by
  obtain ⟨hfeed, hreturn⟩ := line.one_line
  cases hcomment : line.comment with
  | none => simp [text, hcomment, hfeed, hreturn]
  | some comment =>
      obtain ⟨hfeed', hreturn'⟩ := line.comment_one_line comment hcomment
      simp [text, hcomment, hfeed, hreturn, hfeed', hreturn']

/-- A terminator ends in a line feed, and what comes before it is dropped. -/
theorem exists_feed (ending : LineEnding) : ∃ front, '\n' ∉ front ∧
    line.text ++ ending.text = front ++ ['\n'] ∧ Text.dropReturn front = line.text := by
  obtain ⟨hfeed, hreturn⟩ := line.not_mem_text
  cases ending with
  | feed =>
      refine ⟨line.text, hfeed, rfl, ?_⟩
      rw [Text.dropReturn, if_neg fun hlast => hreturn (List.mem_of_getLast? hlast)]
  | returnFeed =>
      refine ⟨line.text ++ ['\r'], by simp [hfeed], by simp [LineEnding.text], ?_⟩
      simp [Text.dropReturn]

end CodeLine

/-! ## Ways to write lines of code -/

/-- The text writes these lines of code. The last line may have a terminator or none. -/
inductive Writes : List (List Char) → List Char → Prop
  | nil : Writes [] []
  | last (line : CodeLine) : Writes [line.code] line.text
  | cons (line : CodeLine) (ending : LineEnding) {codes : List (List Char)} {text : List Char} :
      Writes codes text → Writes (line.code :: codes) (line.text ++ ending.text ++ text)

section
variable {codes : List (List Char)} {text : List Char}

theorem writes_bare (line : CodeLine) : Writes [line.code] (Text.unlines [line.code]) := by
  rw [Text.unlines, List.intercalate_singleton]
  have hlast := Writes.last line.bare
  rwa [line.text_bare] at hlast

/-- Lines of code are written by their bare text. -/
theorem Writes.unlines (h : Writes codes text) : Writes codes (Text.unlines codes) := by
  induction h with
  | nil => exact .nil
  | last line => exact writes_bare line
  | @cons line ending codes text _ ih =>
      by_cases hcodes : codes = []
      · subst hcodes
        exact writes_bare line
      · have hwrites := Writes.cons line.bare .feed ih
        rw [line.text_bare, List.append_assoc] at hwrites
        rwa [unlines_cons line.code hcodes]

/-- What is written in no characters is at most an empty line. -/
theorem Writes.code_eq (h : Writes codes text) (hempty : text = []) :
    codes = [] ∨ codes = [[]] := by
  cases h with
  | nil => exact .inl rfl
  | last line => exact .inr (congrArg (fun code => [code]) (List.append_eq_nil_iff.mp hempty).1)
  | cons line ending _ =>
      obtain ⟨front, -, hends, -⟩ := line.exists_feed ending
      rw [hends, List.append_assoc] at hempty
      cases (List.append_eq_nil_iff.mp hempty).2

/-- All that is left of a text when comments are stripped is its code, up to blanks at the end. -/
theorem Writes.stripComments (h : Writes codes text) : ∃ blanks,
    (∀ c ∈ blanks, Text.isBlank c = true) ∧
      Text.unlines codes = Script.stripComments text ++ blanks := by
  induction h with
  | nil => exact ⟨[], List.forall_mem_nil _, by rw [stripComments_nil]; rfl⟩
  | last line =>
      refine ⟨[], List.forall_mem_nil _, ?_⟩
      rw [List.append_nil, Text.unlines, List.intercalate_singleton]
      by_cases hne : line.text = []
      · rw [hne, stripComments_nil, ← line.cutComment_text, hne, cutComment]
      · rw [stripComments_last hne line.not_mem_text.1, line.cutComment_text]
  | @cons line ending codes text hwrites ih =>
      obtain ⟨front, hfront, hends, hdrop⟩ := line.exists_feed ending
      rw [hends, List.append_assoc, List.singleton_append]
      by_cases hne : text = []
      · subst hne
        rw [stripComments_feed_nil hfront, hdrop, line.cutComment_text]
        rcases hwrites.code_eq rfl with rfl | rfl
        · exact ⟨[], List.forall_mem_nil _, by simp [Text.unlines]⟩
        · exact ⟨['\n'], List.forall_mem_singleton.mpr rfl, by simp [Text.unlines]⟩
      · obtain ⟨blanks, hblanks, htext⟩ := ih
        have hcodes : codes ≠ [] := by
          rintro rfl
          cases hwrites
          exact hne rfl
        refine ⟨blanks, hblanks, ?_⟩
        rw [stripComments_feed hfront hne, hdrop, line.cutComment_text,
          unlines_cons line.code hcodes, htext, List.append_assoc, List.cons_append]

/-- A script reads as the lines of its code. -/
theorem Writes.recognize (h : Writes codes text) (allowed : ActionSet) :
    Script.recognize (String.ofList text) allowed =
      (Segment.split (Text.unlines codes) 0).map (classify allowed (.of (Text.unlines codes))) := by
  obtain ⟨blanks, hblanks, htext⟩ := h.stripComments
  rw [htext, map_classify_blanks allowed _ hblanks, Script.recognize, String.toList_ofList]

end

/-! ## Scripts -/

/-- Lines with their terminators, and a last line with none. -/
def written (lines : List (CodeLine × LineEnding)) (last : Option CodeLine) : List Char :=
  lines.flatMap (fun (line, ending) => line.text ++ ending.text) ++ last.elim [] CodeLine.text

def codeOf (lines : List (CodeLine × LineEnding)) (last : Option CodeLine) : List (List Char) :=
  lines.map (fun (line, _) => line.code) ++ last.toList.map CodeLine.code

theorem writes_written (lines : List (CodeLine × LineEnding)) (last : Option CodeLine) :
    Writes (codeOf lines last) (written lines last) := by
  induction lines with
  | nil =>
      cases last with
      | none => exact .nil
      | some line => exact .last line
  | cons entry rest ih =>
      have hwrites := Writes.cons entry.1 entry.2 ih
      rw [List.append_assoc] at hwrites
      simpa [written, codeOf] using hwrites

/-- Comments and line endings are invisible: the statements of a script, their texts, reasons and
line numbers included, are those of its bare lines joined by line feeds. -/
theorem recognize_written (lines : List (CodeLine × LineEnding)) (last : Option CodeLine)
    (allowed : ActionSet) :
    recognize (String.ofList (written lines last)) allowed =
      recognize (String.ofList (Text.unlines (codeOf lines last))) allowed := by
  have hwrites := writes_written lines last
  rw [hwrites.recognize, hwrites.unlines.recognize]

/-- The header of a loop and the first line of its body, each with a comment that would make
something else of it. -/
def loopLines : List (CodeLine × LineEnding) :=
  [(⟨"for (int i = 0; i < 2; i++) ".toList, some " \x7b jump(); \x7d".toList, by decide, by decide,
      by decide, by simp⟩, .returnFeed),
    (⟨"\x7b shoot(); y = ;".toList, some "/ é".toList, by decide, by decide, by decide, by simp⟩,
      .feed)]

def closingLine : CodeLine :=
  ⟨"\x7d".toList, none, by decide, by decide, by decide, nofun⟩

/-- The loop with its comments has the statements of the loop without them, and a problem inside of
it stands on the second line. -/
theorem recognize_written_loopLines :
    written loopLines (some closingLine) =
      ("for (int i = 0; i < 2; i++) // \x7b jump(); \x7d\r\n" ++
        "\x7b shoot(); y = ;/// é\n\x7d").toList ∧
      recognize (String.ofList (written loopLines (some closingLine))) .full =
        [.loop "i" 0 2
          [.act .shoot none, .unrecognized "y = ;" 2 "syntax: expected number"]] := by
  have hbare : recognize (String.ofList (Text.unlines (codeOf loopLines (some closingLine)))) .full =
      [.loop "i" 0 2 [.act .shoot none, .unrecognized "y = ;" 2 "syntax: expected number"]] := by
    cbv
  exact ⟨by decide, (recognize_written loopLines (some closingLine) .full).trans hbare⟩

end Playscript.Script
