import Playscript.Proofs.Script.Cutting
import Playscript.Proofs.Script.LineNumber
import Playscript.Proofs.Script.Shape
/-! Where statements stand. A text that stands further down has the same segments, further down,
and the same statements, with line numbers that are higher. -/
namespace Playscript.Script

/-! ## Segments -/

namespace Segment

/-- The segment so many bytes further down. -/
def shift (k : Nat) : Segment → Segment
  | .simple text offset => .simple text (offset + k)
  | .block keyword header body bodyOffset text offset =>
      .block keyword header body (bodyOffset + k) text (offset + k)
  | .unterminated text offset => .unterminated text (offset + k)

theorem text_shift (segment : Segment) (k : Nat) : (segment.shift k).text = segment.text := by
  cases segment <;> rfl

theorem offset_shift (segment : Segment) (k : Nat) :
    (segment.shift k).offset = segment.offset + k := by
  cases segment <;> rfl

theorem simplePiece_add (text : List Char) (offset k : Nat) :
    simplePiece text (offset + k) =
      ((simplePiece text offset).1.shift k, (simplePiece text offset).2) := by
  unfold simplePiece
  dsimp only
  split <;> rfl

theorem first_add (text : List Char) (offset k : Nat) :
    first text (offset + k) = ((first text offset).1.shift k, (first text offset).2) := by
  unfold first
  split
  · exact simplePiece_add text offset k
  · rename_i keyword _
    dsimp only
    split
    · exact simplePiece_add text offset k
    · cases isPlausible keyword (text.takeWhile (· != '\x7b')) with
      | false =>
          simp only [Bool.false_eq_true, if_false]
          exact simplePiece_add text offset k
      | true =>
          simp only [if_true]
          split
          · simp only [shift, Nat.add_right_comm]
          · rfl

theorem split_add (text : List Char) (offset k : Nat) :
    split text (offset + k) = (split text offset).map (shift k) := by
  induction text, offset using split_induction with
  | blank text offset hblank =>
      have htrim := Text.trimStart_eq_nil_iff.mpr hblank
      rw [split_of_blank htrim, split_of_blank htrim, List.map_nil]
  | piece gap text rest segment offset hgap htext hne hfirst _ ih =>
      have hshift : first text (offset + k + Text.size gap) = (segment.shift k, rest) := by
        rw [Nat.add_right_comm, first_add, hfirst]
      rw [split_gap hgap htext hne hfirst, split_gap hgap htext hne hshift, List.map_cons, ← ih]
      congr 2
      omega

end Segment

/-! ## Statements -/

mutual

/-- The statement so many lines further down. -/
def Statement.raise (n : Nat) : Statement → Statement
  | .assign name value => .assign name value
  | .act action argument => .act action argument
  | .branch condition body => .branch condition (raiseAll n body)
  | .loop counter first stop body => .loop counter first stop (raiseAll n body)
  | .unrecognized text line reason => .unrecognized text (line + n) reason
  | .malformedLoop header line reason => .malformedLoop header (line + n) reason

def raiseAll (n : Nat) : List Statement → List Statement
  | [] => []
  | s :: rest => s.raise n :: raiseAll n rest

end

theorem raiseAll_eq_map (n : Nat) (script : List Statement) :
    raiseAll n script = script.map (Statement.raise n) := by
  induction script with
  | nil => rfl
  | cons s rest ih => rw [raiseAll, ih, List.map_cons]

theorem Statement.Flat.raise_eq {allowed : ActionSet} {s : Statement} (h : s.Flat allowed)
    (n : Nat) : s.raise n = s := by
  cases h <;> rfl

theorem lineOf_append_feed (before text : List Char) (offset : Nat) :
    (Text.LineIndex.of (before ++ '\n' :: text)).lineOf (offset + (Text.size before + 1)) =
      (Text.LineIndex.of text).lineOf offset + (before.count '\n' + 1) := by
  have hplace : offset + (Text.size before + 1) = Text.size (before ++ ['\n']) + offset := by
    rw [Text.size_append, Nat.add_comm]
    rfl
  rw [Text.LineIndex.lineOf_of, Text.LineIndex.lineOf_of, Text.lineAt, Text.lineAt,
    List.append_cons, hplace, Text.before_append, List.count_append, List.count_append,
    List.count_singleton_self]
  omega

section
variable (allowed : ActionSet) (before text : List Char)

theorem unrecognized_shift (segment : Segment) (reason : Reason) :
    unrecognized (.of (before ++ '\n' :: text)) (segment.shift (Text.size before + 1)) reason =
      (unrecognized (.of text) segment reason).raise (before.count '\n' + 1) := by
  rw [unrecognized, Segment.text_shift, Segment.offset_shift, lineOf_append_feed]
  rfl

theorem classifyInner_shift (segment : Segment) :
    classifyInner allowed (.of (before ++ '\n' :: text)) (segment.shift (Text.size before + 1)) =
      (classifyInner allowed (.of text) segment).raise (before.count '\n' + 1) := by
  cases segment with
  | simple piece offset =>
      have hshift := unrecognized_shift before text (.simple piece offset)
      simp only [Segment.shift, classifyInner] at hshift ⊢
      cases hsimple : simple? allowed piece with
      | ok s => exact ((flat_of_simple? hsimple).raise_eq _).symm
      | error reason => exact hshift reason
  | unterminated => exact unrecognized_shift before text _ _
  | block => exact unrecognized_shift before text _ _

theorem map_classifyInner_shift (segments : List Segment) :
    (segments.map (Segment.shift (Text.size before + 1))).map
        (classifyInner allowed (.of (before ++ '\n' :: text))) =
      raiseAll (before.count '\n' + 1) (segments.map (classifyInner allowed (.of text))) := by
  rw [raiseAll_eq_map, List.map_map, List.map_map]
  exact List.map_congr_left fun segment _ => classifyInner_shift allowed before text segment

theorem classify_shift (segment : Segment) :
    classify allowed (.of (before ++ '\n' :: text)) (segment.shift (Text.size before + 1)) =
      (classify allowed (.of text) segment).raise (before.count '\n' + 1) := by
  cases segment with
  | simple piece offset => exact classifyInner_shift allowed before text (.simple piece offset)
  | unterminated piece offset =>
      exact classifyInner_shift allowed before text (.unterminated piece offset)
  | block keyword header body bodyOffset piece offset =>
      have hreason := unrecognized_shift before text
        (.block keyword header body bodyOffset piece offset)
      have hbody := map_classifyInner_shift allowed before text (Segment.split body bodyOffset)
      simp only [Segment.shift] at hreason ⊢
      simp only [classify, Segment.split_add, hbody]
      cases keyword with
      | ifWord =>
          dsimp only
          split
          · rfl
          · exact hreason _
      | forWord =>
          dsimp only
          split
          · exact hreason _
          · split
            · rfl
            · rw [lineOf_append_feed]
              rfl

/-- What stands after a line feed is recognized as it is on its own, only further down. -/
theorem map_classify_after_feed :
    (Segment.split text (Text.size before + 1)).map
        (classify allowed (.of (before ++ '\n' :: text))) =
      ((Segment.split text 0).map (classify allowed (.of text))).map
        (Statement.raise (before.count '\n' + 1)) := by
  have hsplit := Segment.split_add text 0 (Text.size before + 1)
  rw [Nat.zero_add] at hsplit
  rw [hsplit, List.map_map, List.map_map]
  exact List.map_congr_left fun segment _ => classify_shift allowed before text segment

end

end Playscript.Script
