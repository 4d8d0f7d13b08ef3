import Mathlib.Data.List.TakeWhile
import Playscript.Script.Comment
import Playscript.Text.Blank
/-! What is left when comments are stripped: of a text without comments, and of a text that goes on
after a line feed. -/
namespace Playscript.Script

/-! ## Lines -/

/-- A line that keeps its characters when a text is cut into lines and stripped of comments. -/
structure IsCode (line : List Char) : Prop where
  nonempty : line ≠ []
  feed : '\n' ∉ line
  carriage : '\r' ∉ line
  slash : '/' ∉ line

theorem IsCode.dropReturn {line : List Char} (h : IsCode line) : Text.dropReturn line = line := by
  have hlast : line.getLast? ≠ some '\r' := fun hr => h.carriage (List.mem_of_getLast? hr)
  rw [Text.dropReturn, if_neg hlast]

theorem ne_feed {line : List Char} (h : '\n' ∉ line) : ∀ c ∈ line, (c != '\n') = true :=
  fun c hc => by simpa using ne_of_mem_of_not_mem hc h

/-- A line at the end of a text, which no line feed follows. -/
theorem lines_last {line : List Char} (hne : line ≠ []) (h : '\n' ∉ line) :
    Text.lines line = [line] := by
  have htake : line.takeWhile (· != '\n') = line := List.takeWhile_eq_self_iff.mpr (ne_feed h)
  have hdrop : line.dropWhile (· != '\n') = [] := List.dropWhile_eq_nil_iff.mpr (ne_feed h)
  cases line with
  | nil => exact absurd rfl hne
  | cons c cs =>
      rw [Text.lines.eq_def]
      simp only
      split
      · rw [htake]
      · rename_i hcons
        rw [hdrop] at hcons
        cases hcons

theorem lines_feed {line : List Char} (h : '\n' ∉ line) (rest : List Char) :
    Text.lines (line ++ '\n' :: rest) = Text.dropReturn line :: Text.lines rest := by
  have htake : (line ++ '\n' :: rest).takeWhile (· != '\n') = line := by
    rw [List.takeWhile_append_of_pos (ne_feed h)]
    simp
  have hdrop : (line ++ '\n' :: rest).dropWhile (· != '\n') = '\n' :: rest := by
    rw [List.dropWhile_append_of_pos (ne_feed h)]
    simp
  generalize htext : line ++ '\n' :: rest = text at htake hdrop
  cases text with
  | nil => cases hdrop
  | cons c cs =>
      rw [Text.lines.eq_def]
      simp only
      split
      · rename_i hnil
        rw [hdrop] at hnil
        cases hnil
      · rename_i hcons
        rw [hdrop] at hcons
        cases hcons
        rw [htake]

theorem unlines_cons (line : List Char) {ls : List (List Char)} (h : ls ≠ []) :
    Text.unlines (line :: ls) = line ++ '\n' :: Text.unlines ls := by
  obtain ⟨next, rest, rfl⟩ := List.exists_cons_of_ne_nil h
  rw [Text.unlines, Text.unlines, List.intercalate_cons_cons, List.append_assoc,
    List.singleton_append]

theorem lines_unlines {ls : List (List Char)} (h : ∀ line ∈ ls, IsCode line) :
    Text.lines (Text.unlines ls) = ls := by
  induction ls with
  | nil => rw [Text.unlines, List.intercalate_nil, Text.lines]
  | cons line rest ih =>
      have hline := h line (by simp)
      cases rest with
      | nil =>
          rw [Text.unlines, List.intercalate_singleton, lines_last hline.nonempty hline.feed]
      | cons next rest =>
          have hrest := ih fun l hl => h l (by simp [hl])
          rw [unlines_cons line (List.cons_ne_nil next rest), lines_feed hline.feed,
            hline.dropReturn, hrest]

/-! ## Comments -/

/-- No comment begins in a text without `//` that does not end in `/`, whatever follows it. -/
theorem cutComment_append {code : List Char} (hplain : ¬ ['/', '/'] <:+: code)
    (hend : code.getLast? ≠ some '/') (rest : List Char) :
    cutComment (code ++ rest) = code ++ cutComment rest := by
  induction code with
  | nil => rfl
  | cons c cs ih =>
      have hplain' : ¬ ['/', '/'] <:+: cs := fun hmem => hplain (List.infix_cons hmem)
      have hend' : cs.getLast? ≠ some '/' := by
        intro hlast
        rw [List.getLast?_cons, hlast] at hend
        exact hend rfl
      have hgoesOn : ∀ more, c = '/' → cs ++ rest = '/' :: more → False := by
        rintro more rfl hmore
        cases cs with
        | nil => exact hend rfl
        | cons d ds =>
            obtain ⟨rfl, -⟩ := List.cons_eq_cons.mp hmore
            exact hplain (List.prefix_append ['/', '/'] ds).isInfix
      rw [List.cons_append, cutComment, ih hplain' hend', List.cons_append]
      exact hgoesOn

theorem cutComment_of_no_slash {line : List Char} (h : '/' ∉ line) : cutComment line = line := by
  have hplain : ¬ ['/', '/'] <:+: line := fun hmem => h (hmem.subset List.mem_cons_self)
  have hend : line.getLast? ≠ some '/' := fun hlast => h (List.mem_of_getLast? hlast)
  simpa [cutComment] using cutComment_append hplain hend []

/-- Lines of code stay as they are when comments are stripped. -/
theorem stripComments_unlines {ls : List (List Char)} (h : ∀ line ∈ ls, IsCode line) :
    stripComments (Text.unlines ls) = Text.unlines ls := by
  have hcut : ls.map cutComment = ls :=
    (List.map_congr_left fun line hline => cutComment_of_no_slash (h line hline).slash).trans
      (List.map_id ls)
  rw [stripComments, lines_unlines h, hcut]

/-! ## Texts that go on -/

/-- A text is a line, or a line, a line feed and a text. -/
@[elab_as_elim]
theorem line_induction {P : List Char → Prop} (last : ∀ line, '\n' ∉ line → P line)
    (feed : ∀ line rest, '\n' ∉ line → P rest → P (line ++ '\n' :: rest)) (text : List Char) :
    P text := by
  induction hlength : text.length using Nat.strongRecOn generalizing text with
  | ind n ih =>
      by_cases hmem : '\n' ∈ text
      · obtain ⟨line, rest, rfl, hline⟩ := List.eq_append_cons_of_mem hmem
        have hshort : rest.length < n := by
          rw [← hlength, List.length_append, List.length_cons]
          omega
        exact feed line rest hline (ih rest.length hshort rest rfl)
      · exact last text hmem

theorem stripComments_nil : stripComments [] = [] := by
  rw [stripComments, Text.lines, List.map_nil, Text.unlines, List.intercalate_nil]

theorem stripComments_last {line : List Char} (hne : line ≠ []) (h : '\n' ∉ line) :
    stripComments line = cutComment line := by
  rw [stripComments, lines_last hne h, List.map_singleton, Text.unlines,
    List.intercalate_singleton]

theorem stripComments_feed_nil {line : List Char} (h : '\n' ∉ line) :
    stripComments (line ++ ['\n']) = cutComment (Text.dropReturn line) := by
  rw [stripComments, lines_feed h, Text.lines, List.map_singleton, Text.unlines,
    List.intercalate_singleton]

theorem lines_ne_nil {text : List Char} (h : text ≠ []) : Text.lines text ≠ [] := by
  cases text with
  | nil => exact absurd rfl h
  | cons c cs =>
      rw [Text.lines.eq_def]
      simp only
      split
      · exact List.cons_ne_nil _ _
      · exact List.cons_ne_nil _ _

theorem stripComments_feed {line rest : List Char} (h : '\n' ∉ line) (hrest : rest ≠ []) :
    stripComments (line ++ '\n' :: rest) =
      cutComment (Text.dropReturn line) ++ '\n' :: stripComments rest := by
  have hlines : (Text.lines rest).map cutComment ≠ [] := by
    simpa using lines_ne_nil hrest
  rw [stripComments, stripComments, lines_feed h, List.map_cons, unlines_cons _ hlines]

/-- What comes after a line feed has no influence on what is left before it. -/
theorem stripComments_append_feed (a : List Char) {b : List Char} (hb : b ≠ []) :
    stripComments (a ++ '\n' :: b) =
      stripComments (a ++ ['\n']) ++ '\n' :: stripComments b := by
  induction a using line_induction with
  | last line h => rw [stripComments_feed h hb, stripComments_feed_nil h]
  | feed line rest h ih =>
      rw [List.append_assoc, List.append_assoc, List.cons_append, List.cons_append,
        stripComments_feed h (List.append_ne_nil_of_right_ne_nil _ (List.cons_ne_nil _ _)),
        stripComments_feed h (List.append_ne_nil_of_right_ne_nil _ (List.cons_ne_nil _ _)), ih,
        List.append_assoc, List.cons_append]

theorem mem_of_mem_cutComment {line : List Char} {c : Char} (h : c ∈ cutComment line) :
    c ∈ line := by
  induction line using cutComment.induct with
  | case1 => cases h
  | case2 d cs hslash ih =>
      rw [cutComment] at h
      · rcases List.mem_cons.mp h with rfl | hlater
        · exact List.mem_cons_self
        · exact List.mem_cons_of_mem d (ih hlater)
      · exact hslash
  | case3 => exact h

theorem mem_of_mem_dropReturn {line : List Char} {c : Char} (h : c ∈ Text.dropReturn line) :
    c ∈ line := by
  unfold Text.dropReturn at h
  split at h
  · exact (List.dropLast_sublist line).subset h
  · exact h

theorem not_feed_mem_cut {line : List Char} (h : '\n' ∉ line) :
    '\n' ∉ cutComment (Text.dropReturn line) := fun hmem =>
  h (mem_of_mem_dropReturn (mem_of_mem_cutComment hmem))

/-- The lines keep their numbers. -/
theorem count_feed_stripComments (a : List Char) :
    (stripComments (a ++ ['\n'])).count '\n' = a.count '\n' := by
  induction a using line_induction with
  | last line h =>
      rw [stripComments_feed_nil h, List.count_eq_zero_of_not_mem (not_feed_mem_cut h),
        List.count_eq_zero_of_not_mem h]
  | feed line rest h ih =>
      rw [List.append_assoc, List.cons_append,
        stripComments_feed h (List.append_ne_nil_of_right_ne_nil _ (List.cons_ne_nil _ _)),
        List.count_append, List.count_append, List.count_cons_self, List.count_cons_self, ih,
        List.count_eq_zero_of_not_mem (not_feed_mem_cut h), List.count_eq_zero_of_not_mem h]

/-- A carriage return at the end of a line goes with its comment, or it is left at the end. -/
theorem cutComment_append_return (line : List Char) :
    ∃ w, (∀ c ∈ w, Text.isBlank c = true) ∧
      cutComment (line ++ ['\r']) = cutComment line ++ w := by
  induction line using cutComment.induct with
  | case1 rest => exact ⟨[], nofun, rfl⟩
  | case2 c cs hslash ih =>
      obtain ⟨w, hw, hcut⟩ := ih
      have hgoesOn : ∀ rest, c = '/' → cs ++ ['\r'] = '/' :: rest → False := by
        intro rest hc hrest
        cases cs with
        | nil => cases hrest
        | cons d ds =>
            cases hrest
            exact hslash ds hc rfl
      refine ⟨w, hw, ?_⟩
      rw [List.cons_append, cutComment, hcut, cutComment, List.cons_append]
      · exact hslash
      · exact hgoesOn
  | case3 => exact ⟨['\r'], List.forall_mem_singleton.mpr rfl, rfl⟩

theorem cutComment_dropReturn (line : List Char) :
    ∃ w, (∀ c ∈ w, Text.isBlank c = true) ∧
      cutComment line = cutComment (Text.dropReturn line) ++ w := by
  unfold Text.dropReturn
  split
  · rename_i hlast
    obtain ⟨front, hfront⟩ := List.getLast?_eq_some_iff.mp hlast
    subst hfront
    rw [List.dropLast_concat]
    exact cutComment_append_return front
  · exact ⟨[], nofun, (List.append_nil _).symm⟩

/-- A line feed at the end of a text changes nothing but blanks at the end. -/
theorem exists_stripComments_feed (a : List Char) : ∃ text w w',
    (∀ c ∈ w, Text.isBlank c = true) ∧ (∀ c ∈ w', Text.isBlank c = true) ∧
      stripComments a = text ++ w ∧ stripComments (a ++ ['\n']) = text ++ w' := by
  induction a using line_induction with
  | last line h =>
      obtain ⟨w, hw, hcut⟩ := cutComment_dropReturn line
      refine ⟨cutComment (Text.dropReturn line), w, [], hw, nofun, ?_, ?_⟩
      · by_cases hne : line = []
        · subst hne
          rw [← hcut, stripComments_nil]
          rfl
        · rw [stripComments_last hne h, hcut]
      · rw [stripComments_feed_nil h, List.append_nil]
  | feed line rest h ih =>
      have hgoesOn : rest ++ ['\n'] ≠ [] :=
        List.append_ne_nil_of_right_ne_nil _ (List.cons_ne_nil _ _)
      rw [List.append_assoc, List.cons_append, stripComments_feed h hgoesOn]
      by_cases hne : rest = []
      · subst hne
        refine ⟨cutComment (Text.dropReturn line), [], ['\n'], nofun,
          List.forall_mem_singleton.mpr rfl, ?_, ?_⟩
        · rw [stripComments_feed_nil h, List.append_nil]
        · rw [stripComments_feed_nil List.not_mem_nil]
          rfl
      · obtain ⟨text, w, w', hw, hw', htext, hnext⟩ := ih
        refine ⟨cutComment (Text.dropReturn line) ++ '\n' :: text, w, w', hw, hw', ?_, ?_⟩
        · rw [stripComments_feed h hne, htext, List.append_assoc, List.cons_append]
        · rw [hnext, List.append_assoc, List.cons_append]

end Playscript.Script
