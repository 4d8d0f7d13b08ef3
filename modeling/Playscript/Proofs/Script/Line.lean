import Playscript.Proofs.Script.Comment
import Playscript.Proofs.Script.Cutting
import Playscript.Proofs.Script.Rendering
/-! Simple statements that stand one after the other on a single line. Since no brace follows, every
name will do, the words of the grammar included. -/
namespace Playscript.Script

variable {allowed : ActionSet}

namespace Spells

variable {piece : List Char} {s : Statement}

theorem simplePiece_append (h : Spells allowed piece s) (rest : List Char) (offset : Nat) :
    Segment.simplePiece (piece ++ rest) offset = (.simple piece offset, rest) := by
  obtain ⟨line, rfl, hline⟩ := h.ends
  have hfeed : '\n' ∉ line := fun hmem =>
    not_mem_of_all h.chars rfl (List.mem_append_left [';'] hmem)
  rw [List.append_assoc, List.singleton_append, Segment.simplePiece_append hline hfeed]

/-- The piece is cut off the text as one segment. Since no brace follows, it is not taken for the
header of a block. -/
theorem split_append (h : Spells allowed piece s) {rest : List Char} (hrest : '\x7b' ∉ rest)
    (offset : Nat) : Segment.split (piece ++ rest) offset =
      .simple piece offset :: Segment.split rest (offset + Text.size piece) := by
  have hbrace : '\x7b' ∉ piece ++ rest := by
    rw [List.mem_append, not_or]
    exact ⟨not_mem_of_all h.chars rfl, hrest⟩
  have hfirst : Segment.first (piece ++ rest) offset = (.simple piece offset, rest) := by
    rw [Segment.first_of_no_brace hbrace, h.simplePiece_append]
  exact Segment.split_whole_piece (List.forall_mem_nil _) h.starts h.ne_nil hfirst

theorem map_split_append (h : Spells allowed piece s) {rest : List Char} (hrest : '\x7b' ∉ rest)
    (index : Text.LineIndex) (offset : Nat) :
    (Segment.split (piece ++ rest) offset).map (classify allowed index) =
      s :: (Segment.split rest (offset + Text.size piece)).map (classify allowed index) := by
  rw [h.split_append hrest, List.map_cons]
  simp only [classify, classifyInner, h.statement]

end Spells

/-- Pieces on one line, with a blank between any two. -/
def line (pieces : List (List Char)) : List Char :=
  [' '].intercalate pieces

theorem all_line {pieces : List (List Char)} {script : List Statement}
    (h : List.Forall₂ (Spells allowed) pieces script) : (line pieces).all isPlainChar = true := by
  induction h with
  | nil => rw [line, List.intercalate_nil, List.all_nil]
  | @cons piece s rest script hpiece hrest ih =>
      cases rest with
      | nil => rw [line, List.intercalate_singleton, hpiece.chars]
      | cons next rest =>
          rw [line, List.intercalate_cons_cons, ← line, List.all_append, List.all_append, ih,
            hpiece.chars]
          rfl

theorem map_split_line {pieces : List (List Char)} {script : List Statement}
    (h : List.Forall₂ (Spells allowed) pieces script) (index : Text.LineIndex) (offset : Nat) :
    (Segment.split (line pieces) offset).map (classify allowed index) = script := by
  induction h generalizing offset with
  | nil => rw [line, List.intercalate_nil, Segment.split_nil, List.map_nil]
  | @cons piece s rest script hpiece hrest ih =>
      cases rest with
      | nil =>
          cases hrest
          have hcut := hpiece.map_split_append List.not_mem_nil index offset
          rw [List.append_nil, Segment.split_nil, List.map_nil] at hcut
          rw [line, List.intercalate_singleton, hcut]
      | cons next rest =>
          have hbrace : '\x7b' ∉ ' ' :: line (next :: rest) := by
            rw [List.mem_cons, not_or]
            exact ⟨by decide, not_mem_of_all (all_line hrest) rfl⟩
          rw [line, List.intercalate_cons_cons, ← line, List.append_assoc, List.singleton_append,
            hpiece.map_split_append hbrace, Segment.split_blank rfl, ih]

/-- What the pieces of a line spell is what is recognized in it. -/
theorem recognize_line {source : String} {pieces : List (List Char)} {script : List Statement}
    (hsource : source.toList = line pieces) (h : List.Forall₂ (Spells allowed) pieces script) :
    recognize source allowed = script := by
  have hstrip : stripComments (line pieces) = line pieces := by
    cases hline : line pieces with
    | nil => exact stripComments_nil
    | cons c cs =>
        have hall : (c :: cs).all isPlainChar = true := hline ▸ all_line h
        rw [stripComments_last (List.cons_ne_nil c cs) (not_mem_of_all hall rfl),
          cutComment_of_no_slash (not_mem_of_all hall rfl)]
  rw [recognize, hsource, hstrip, map_split_line h]

end Playscript.Script
