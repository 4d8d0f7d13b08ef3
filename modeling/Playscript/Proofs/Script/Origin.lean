import Playscript.Proofs.Script.Comment
import Playscript.Proofs.Script.LineNumber
import Playscript.Proofs.Script.Nesting
/-! Where statements come from. Stripping comments takes only the ends of lines away, so a place of
the text that is recognized is a place of the source, in the same row and column; a problem names
the row on which its text begins, and further problems stand further down. -/
namespace Playscript.Script

/-! ## Places of the source -/

/-- The text up to its first line feed. -/
def firstLine (text : List Char) : List Char :=
  text.takeWhile (· != '\n')

/-- The word stands in the line at this column, which is counted in bytes, and no comment begins
before the word ends. -/
def StandsAt (line : List Char) (col : Nat) (word : List Char) : Prop :=
  ∃ front rest, line = front ++ (word ++ rest) ∧ Text.size front = col ∧
    ¬ ['/', '/'] <:+: front ++ word

/-- How many bytes stand before a place of the source, given by its row and its column, once the
comments are stripped. -/
def strippedPlace (source : List Char) (row col : Nat) : Nat :=
  (((Text.lines source).take row).map fun line => Text.size (cutComment line) + 1).sum + col

theorem firstLine_mono {front text : List Char} (h : front <+: text) :
    firstLine front <+: firstLine text := by
  obtain ⟨rest, rfl⟩ := h
  unfold firstLine
  by_cases hfeed : '\n' ∈ front
  · obtain ⟨line, after, rfl, hline⟩ := List.eq_append_cons_of_mem hfeed
    rw [List.append_assoc, List.cons_append, Segment.takeWhile_ne_append hline,
      Segment.takeWhile_ne_append hline]
  · rw [Segment.takeWhile_append_of_not_mem hfeed, List.takeWhile_eq_self_iff.mpr (ne_feed hfeed)]
    apply List.prefix_append

theorem exists_comment (line : List Char) : ∃ comment, line = cutComment line ++ comment := by
  induction line using cutComment.induct with
  | case1 rest => exact ⟨_, rfl⟩
  | case2 c cs hslash ih =>
      obtain ⟨comment, hcs⟩ := ih
      refine ⟨comment, ?_⟩
      rw [cutComment, List.cons_append, ← hcs]
      exact hslash
  | case3 => exact ⟨[], rfl⟩

/-- What is left of a line holds no comment. -/
theorem not_comment_cutComment (line : List Char) : ¬ ['/', '/'] <:+: cutComment line := by
  induction line using cutComment.induct with
  | case1 rest =>
      intro hinfix
      exact List.cons_ne_nil _ _ (List.infix_nil.mp hinfix)
  | case2 c cs hslash ih =>
      rw [cutComment]
      · intro hinfix
        rcases List.infix_cons_iff.mp hinfix with hstart | hlater
        · obtain ⟨hc, hcs⟩ := List.cons_prefix_cons.mp hstart
          obtain ⟨comment, hcomment⟩ := exists_comment cs
          obtain ⟨rest, hrest⟩ := hcs
          rw [← hrest] at hcomment
          exact hslash (rest ++ comment) hc.symm hcomment
        · exact ih hlater
      · exact hslash
  | case3 =>
      intro hinfix
      exact List.cons_ne_nil _ _ (List.infix_nil.mp hinfix)

theorem StandsAt.of_code {line front word rest : List Char}
    (h : cutComment line = front ++ (word ++ rest)) : StandsAt line (Text.size front) word := by
  obtain ⟨comment, hline⟩ := exists_comment line
  refine ⟨front, rest ++ comment, ?_, rfl, ?_⟩
  · rw [hline, h, List.append_assoc, List.append_assoc]
  · intro hinfix
    apply not_comment_cutComment line
    rw [h, ← List.append_assoc]
    exact hinfix.trans (List.prefix_append _ _).isInfix

/-- A word that stands in a line still does so when it is trimmed. -/
theorem StandsAt.trim {line word : List Char} {col : Nat} (h : StandsAt line col word) :
    ∃ inner, StandsAt line inner (Text.trim word) := by
  obtain ⟨front, rest, rfl, -, hcode⟩ := h
  obtain ⟨before, -, hbefore⟩ := Text.exists_blank_start (rfl : Text.trimStart word = _)
  obtain ⟨after, -, hafter⟩ := Text.exists_blank_end (Text.trimStart word)
  have hword : word = before ++ (Text.trim word ++ after) := by rw [Text.trim, ← hafter, ← hbefore]
  refine ⟨_, front ++ before, after ++ rest, ?_, rfl, ?_⟩
  · rw [List.append_assoc front, ← List.append_assoc _ after rest, ← List.append_assoc before,
      ← hword]
  · intro hinfix
    apply hcode
    rw [hword, ← List.append_assoc before, ← List.append_assoc front, ← List.append_assoc front]
    exact hinfix.trans (List.prefix_append _ _).isInfix

theorem not_feed_mem_lines {text line : List Char} (h : line ∈ Text.lines text) : '\n' ∉ line := by
  induction text using line_induction with
  | last own hown =>
      by_cases hne : own = []
      · subst hne
        rw [Text.lines] at h
        cases h
      · rw [lines_last hne hown, List.mem_singleton] at h
        exact h ▸ hown
  | feed own rest hown ih =>
      rw [lines_feed hown] at h
      rcases List.mem_cons.mp h with rfl | hlater
      · exact fun hmem => hown (mem_of_mem_dropReturn hmem)
      · exact ih hlater

/-- A place of joined lines lies in one of them: as many lines are over as line feeds stand before
the place. -/
theorem exists_row {ls : List (List Char)} (hls : ∀ line ∈ ls, '\n' ∉ line) {before text : List Char}
    (hne : text ≠ []) (h : Text.unlines ls = before ++ text) :
    ∃ front rest, ls[before.count '\n']? = some (front ++ (firstLine text ++ rest)) ∧
      Text.size before =
        ((ls.take (before.count '\n')).map fun line => Text.size line + 1).sum +
          Text.size front := by
  induction ls generalizing before with
  | nil =>
      have hempty : before ++ text = [] := h.symm
      exact absurd (List.append_eq_nil_iff.mp hempty).2 hne
  | cons line later ih =>
      obtain ⟨hline, hlater⟩ := List.forall_mem_cons.mp hls
      -- a place before the first line feed lies in the first line
      have hfirst (after : List Char) (hall : line = before ++ firstLine text ++ after) :
          ∃ front rest,
            (line :: later)[before.count '\n']? = some (front ++ (firstLine text ++ rest)) ∧
            Text.size before = (((line :: later).take (before.count '\n')).map
              fun line => Text.size line + 1).sum + Text.size front := by
        have hnone : before.count '\n' = 0 := by
          apply List.count_eq_zero_of_not_mem
          intro hmem
          exact hline (hall ▸ List.mem_append_left _ (List.mem_append_left _ hmem))
        refine ⟨before, after, ?_, ?_⟩
        · rw [hnone, ← List.append_assoc, ← hall]
          rfl
        · rw [hnone]
          exact (Nat.zero_add _).symm
      cases later with
      | nil =>
          rw [Text.unlines, List.intercalate_singleton] at h
          have htext : firstLine text = text := by
            apply List.takeWhile_eq_self_iff.mpr
            apply ne_feed
            exact fun hmem => hline (h ▸ List.mem_append_right before hmem)
          apply hfirst []
          rw [htext, List.append_nil, h]
      | cons next more =>
          rw [unlines_cons line (List.cons_ne_nil next more)] at h
          rcases List.append_eq_append_iff.mp h with
            ⟨after, rfl, hafter⟩ | ⟨inside, rfl, hinside⟩
          · cases after with
            | nil =>
                -- the place is that of the line feed itself
                rw [List.append_nil] at hfirst ⊢
                have htext : firstLine text = [] := by
                  rw [List.nil_append] at hafter
                  rw [← hafter]
                  rfl
                apply hfirst []
                rw [htext, List.append_nil, List.append_nil]
            | cons d after =>
                obtain ⟨rfl, hrest⟩ := List.cons_eq_cons.mp hafter
                obtain ⟨front, rest, hrow, hplace⟩ := ih hlater hrest
                have hcount : (line ++ '\n' :: after).count '\n' = after.count '\n' + 1 := by
                  rw [List.count_append, List.count_cons_self,
                    List.count_eq_zero_of_not_mem hline, Nat.zero_add]
                refine ⟨front, rest, ?_, ?_⟩
                · rw [hcount]
                  exact hrow
                · rw [hcount, Text.size_append, Text.size_cons, hplace, List.take_succ_cons,
                    List.map_cons, List.sum_cons, show '\n'.utf8Size = 1 from rfl]
                  omega
          · have htext : firstLine text = inside := by
              rw [hinside]
              apply Segment.takeWhile_ne_append
              exact fun hmem => hline (List.mem_append_right before hmem)
            apply hfirst []
            rw [htext, List.append_nil]

/-- A place of the stripped text is a place of the source, in the row that counts the line feeds
before it. -/
theorem exists_place {source before text : List Char} (hne : text ≠ [])
    (h : stripComments source = before ++ text) :
    ∃ line col, (Text.lines source)[before.count '\n']? = some line ∧
      Text.size before = strippedPlace source (before.count '\n') col ∧
      ∀ word, word <+: firstLine text → StandsAt line col word := by
  have hls : ∀ line ∈ (Text.lines source).map cutComment, '\n' ∉ line := by
    intro line hline
    obtain ⟨whole, hwhole, rfl⟩ := List.mem_map.mp hline
    exact fun hmem => not_feed_mem_lines hwhole (mem_of_mem_cutComment hmem)
  obtain ⟨front, rest, hrow, hplace⟩ := exists_row hls hne h
  rw [List.getElem?_map] at hrow
  obtain ⟨line, hline, hcode⟩ := Option.map_eq_some_iff.mp hrow
  refine ⟨line, Text.size front, hline, ?_, ?_⟩
  · rw [hplace, strippedPlace, ← List.map_take, List.map_map]
    rfl
  · rintro word ⟨more, hmore⟩
    have hline : cutComment line = front ++ (word ++ (more ++ rest)) := by
      rw [hcode, ← hmore, List.append_assoc]
    exact .of_code hline

/-! ## Pieces of the text -/

namespace Segment

/-- The segments of the body of a block. -/
def inside : Segment → List Segment
  | .block _ _ body bodyOffset _ _ => split body bodyOffset
  | _ => []

/-- A segment is trimmed at its start. -/
theorem trimStart_of_mem_split {text : List Char} {offset : Nat} {s : Segment}
    (hs : s ∈ split text offset) : Text.trimStart s.text = s.text := by
  induction text, offset using split_induction with
  | blank text offset hblank =>
      rw [split_of_blank (Text.trimStart_eq_nil_iff.mpr hblank)] at hs
      cases hs
  | piece gap text rest segment offset hgap htext hne hfirst _ ih =>
      rw [split_gap hgap htext hne hfirst] at hs
      rcases List.mem_cons.mp hs with rfl | hlater
      · have hcut := cut_first htext hne (offset + Text.size gap)
        rw [hfirst] at hcut
        obtain ⟨blanks, -, rfl⟩ := hcut.eq_append
        -- the piece begins where the text does
        cases hown : s.text with
        | nil => exact absurd hown hcut.text_ne_nil
        | cons d ds =>
            rw [hown, List.cons_append] at htext
            exact Text.trimStart_of_visible (Text.isBlank_head_trimStart htext) ds
      · exact ih hlater

/-- The segment is a piece of the text and stands where it says. -/
def IsSlice (text : List Char) (base : Nat) (s : Segment) : Prop :=
  s.text ≠ [] ∧ ∃ before after, text = before ++ (s.text ++ after) ∧
    s.offset = base + Text.size before

/-- What a block is made of. -/
theorem block_of_mem_split {text header body piece : List Char} {keyword : Keyword}
    {offset bodyOffset place : Nat}
    (h : .block keyword header body bodyOffset piece place ∈ split text offset) :
    ∃ region, piece = region ++ '\x7b' :: (body ++ ['\x7d']) ∧ header = Text.trim region ∧
      bodyOffset = place + Text.size region + 1 := by
  obtain ⟨start, back, rest, -, hcut⟩ := (covers_split text offset).cut h
  cases hcut with
  | block _ _ _ =>
      refine ⟨_, ?_, rfl, rfl⟩
      rw [List.append_assoc, List.cons_append]

/-- A segment of a body lies within its block. -/
theorem within_of_mem_inside {text : List Char} {offset : Nat} {s inner : Segment}
    (hs : s ∈ split text offset) (hinner : inner ∈ s.inside) :
    IsSlice s.text s.offset inner ∧ s.offset < inner.offset ∧
      inner.offset < s.offset + Text.size s.text := by
  cases s with
  | simple | unterminated => cases hinner
  | block keyword header body bodyOffset piece place =>
      obtain ⟨region, rfl, -, rfl⟩ := block_of_mem_split hs
      obtain ⟨hne, before, after, hbody, hplace⟩ := (covers_split body _).slice hinner
      have hsize := Text.size_pos hne
      have hbrace : '\x7b'.utf8Size = 1 := rfl
      refine ⟨⟨hne, region ++ '\x7b' :: before, after ++ ['\x7d'], ?_, ?_⟩, ?_, ?_⟩
      · change region ++ '\x7b' :: (body ++ ['\x7d']) = _
        rw [hbody]
        simp only [List.append_assoc, List.cons_append]
      · change inner.offset = place + _
        rw [hplace, Text.size_append, Text.size_cons]
        omega
      · change place < _
        omega
      · change inner.offset < place + Text.size (region ++ '\x7b' :: (body ++ ['\x7d']))
        rw [hplace, hbody]
        simp only [Text.size_append, Text.size_cons]
        omega

theorem IsSlice.trans {text : List Char} {base : Nat} {s inner : Segment} (hs : IsSlice text base s)
    (hinner : IsSlice s.text s.offset inner) : IsSlice text base inner := by
  obtain ⟨-, before, after, rfl, hplace⟩ := hs
  obtain ⟨hne, front, back, htext, hinside⟩ := hinner
  refine ⟨hne, before ++ front, back ++ after, ?_, ?_⟩
  · rw [htext]
    simp only [List.append_assoc]
  · rw [hinside, hplace, Text.size_append, Nat.add_assoc]

theorem isSlice_of_mem {text : List Char} {offset : Nat} {s piece : Segment}
    (hs : s ∈ split text offset) (hpiece : piece ∈ s :: s.inside) : IsSlice text offset piece := by
  have hslice : IsSlice text offset s := (covers_split text offset).slice hs
  rcases List.mem_cons.mp hpiece with rfl | hinner
  · exact hslice
  · exact hslice.trans (within_of_mem_inside hs hinner).1

theorem bounds_of_mem {text : List Char} {offset : Nat} {s piece : Segment}
    (hs : s ∈ split text offset) (hpiece : piece ∈ s :: s.inside) :
    s.offset ≤ piece.offset ∧ piece.offset < s.offset + Text.size s.text := by
  rcases List.mem_cons.mp hpiece with rfl | hinner
  · have hne : piece.text ≠ [] := ((covers_split text offset).slice hs).1
    have hsize := Text.size_pos hne
    omega
  · obtain ⟨-, hfrom, hto⟩ := within_of_mem_inside hs hinner
    exact ⟨Nat.le_of_lt hfrom, hto⟩

/-- The segments of a text, each followed by the segments of its body, stand one after the other. -/
theorem pairwise_flatMap_inside (text : List Char) (offset : Nat) :
    ((split text offset).flatMap fun s => s :: s.inside).Pairwise fun s t => s.offset < t.offset := by
  apply List.pairwise_flatMap.mpr
  constructor
  · intro s hs
    apply List.Pairwise.cons
    · intro inner hinner
      exact (within_of_mem_inside hs hinner).2.1
    · cases s with
      | simple | unterminated => exact .nil
      | block keyword header body bodyOffset piece place =>
          exact (covers_split body bodyOffset).pairwise.imp fun h => h.1
  · apply List.Pairwise.imp_of_mem _ (covers_split text offset).pairwise
    intro s t hs ht hbefore p hp q hq
    have hend := (bounds_of_mem hs hp).2
    have hstart := (bounds_of_mem ht hq).1
    omega

end Segment

/-! ## Statements and their pieces -/

/-- The text that a problem shows, with the number of the line that it names. -/
def Statement.shown? : Statement → Option (String × Nat)
  | .unrecognized text line _ => some (text, line)
  | .malformedLoop header line _ => some (header, line)
  | _ => none

/-- The statement of a segment and the statements inside of it, each with its own segment. -/
def Segment.traced (allowed : ActionSet) (index : Text.LineIndex) (s : Segment) :
    List (Segment × Statement) :=
  (s, classify allowed index s) ::
    if (classify allowed index s).isProblem then []
    else s.inside.map fun piece => (piece, classifyInner allowed index piece)

/-- The statements of a source text, each with the segment that it stands for and followed by the
statements inside of it. -/
def traced (source : String) (allowed : ActionSet) : List (Segment × Statement) :=
  let text := stripComments source.toList
  (Segment.split text 0).flatMap (Segment.traced allowed (.of text))

/-- What a segment is recognized as: a problem shows the beginning of the segment and names the line
on which it begins; what is no problem has a statement for each segment inside. -/
inductive Segment.Yields (allowed : ActionSet) (index : Text.LineIndex) (piece : Segment) :
    Statement → Prop
  | problem {s : Statement} {shown : String} :
      s.shown? = some (shown, index.lineOf piece.offset) → shown.toList <+: piece.text →
      Yields allowed index piece s
  | sound {s : Statement} : s.isProblem = false →
      s.body = piece.inside.map (classifyInner allowed index) → Yields allowed index piece s

section
variable {allowed : ActionSet} {index : Text.LineIndex} {piece : Segment} {s : Statement}

theorem isProblem_of_shown? {shown : String × Nat} (h : s.shown? = some shown) :
    s.isProblem = true ∧ s.body = [] := by
  cases s with
  | unrecognized | malformedLoop => exact ⟨rfl, rfl⟩
  | _ => cases h

theorem yields_unrecognized (piece : Segment) (reason : Reason) :
    piece.Yields allowed index (unrecognized index piece reason) := by
  apply Segment.Yields.problem rfl
  rw [String.toList_ofList]

theorem yields_classifyInner (piece : Segment) :
    piece.Yields allowed index (classifyInner allowed index piece) := by
  cases piece with
  | simple own place =>
      simp only [classifyInner]
      split
      · rename_i s hs
        have hflat := flat_of_simple? hs
        cases hflat <;> exact .sound rfl rfl
      · apply yields_unrecognized
  | block | unterminated => apply yields_unrecognized

theorem trim_initial {region : List Char} (h : Text.trimStart region = region) :
    Text.trim region <+: region := by
  obtain ⟨blanks, -, hregion⟩ := Text.exists_blank_end region
  rw [Text.trim, h]
  exact ⟨blanks, hregion.symm⟩

theorem yields_classify {text : List Char} {offset : Nat}
    (hpiece : piece ∈ Segment.split text offset) :
    piece.Yields allowed index (classify allowed index piece) := by
  cases piece with
  | simple | unterminated => exact yields_classifyInner _
  | block keyword header body bodyOffset own place =>
      cases keyword with
      | ifWord =>
          simp only [classify]
          split
          · exact .sound rfl rfl
          · apply yields_unrecognized
      | forWord =>
          simp only [classify]
          split
          · apply yields_unrecognized
          · split
            · exact .sound rfl rfl
            · -- the header is shown without the blanks around it, and there are none in front
              obtain ⟨region, rfl, rfl, -⟩ := Segment.block_of_mem_split hpiece
              have hstart := Segment.trimStart_of_mem_split hpiece
              have hregion : Text.trimStart region = region := by
                cases region with
                | nil => rfl
                | cons c cs => exact Text.trimStart_of_visible (Text.isBlank_head_trimStart hstart) cs
              apply Segment.Yields.problem rfl
              rw [String.toList_ofList]
              exact (trim_initial hregion).trans (List.prefix_append _ _)

/-- The statements inside of a statement stand for the segments inside of its own. -/
theorem Segment.Yields.body_eq (h : piece.Yields allowed index s) :
    s.body = if s.isProblem then [] else piece.inside.map (classifyInner allowed index) := by
  cases h with
  | problem hshown _ =>
      obtain ⟨hproblem, hbody⟩ := isProblem_of_shown? hshown
      rw [hbody, if_pos hproblem]
  | sound hsound hbody => rw [hbody, hsound, if_neg Bool.false_ne_true]

theorem Segment.Yields.names (h : piece.Yields allowed index s) {shown : String} {number : Nat}
    (hshown : s.shown? = some (shown, number)) :
    number = index.lineOf piece.offset ∧ shown.toList <+: piece.text := by
  cases h with
  | problem hown htext =>
      cases hown.symm.trans hshown
      exact ⟨rfl, htext⟩
  | sound hsound _ =>
      rw [(isProblem_of_shown? hshown).1] at hsound
      cases hsound

end

section
variable (source : String) (allowed : ActionSet)

theorem map_snd_traced : (traced source allowed).map Prod.snd =
    (recognize source allowed).flatMap fun s => s :: s.body := by
  rw [traced, recognize, List.map_flatMap, List.flatMap_map]
  apply List.flatMap_congr
  intro s hs
  rw [(yields_classify hs).body_eq, Segment.traced, List.map_cons]
  split
  · rfl
  · rw [List.map_map]
    rfl

theorem map_fst_traced_sublist (index : Text.LineIndex) (s : Segment) :
    ((s.traced allowed index).map Prod.fst).Sublist (s :: s.inside) := by
  rw [Segment.traced, List.map_cons]
  apply List.Sublist.cons_cons
  split
  · apply List.nil_sublist
  · rw [List.map_map]
    exact (List.map_id s.inside).symm ▸ List.Sublist.refl _

theorem pairwise_traced :
    (traced source allowed).Pairwise fun p q => p.1.offset < q.1.offset := by
  have hpieces : ((traced source allowed).map Prod.fst).Pairwise
      fun s t => s.offset < t.offset := by
    apply List.Pairwise.sublist _ (Segment.pairwise_flatMap_inside (stripComments source.toList) 0)
    rw [traced, List.map_flatMap]
    generalize Segment.split (stripComments source.toList) 0 = pieces
    induction pieces with
    | nil => exact .slnil
    | cons s rest ih =>
        rw [List.flatMap_cons, List.flatMap_cons]
        exact (map_fst_traced_sublist allowed _ s).append ih
  rwa [List.pairwise_map] at hpieces

variable {source allowed} {piece : Segment} {s : Statement}

theorem of_mem_traced (h : (piece, s) ∈ traced source allowed) :
    piece.IsSlice (stripComments source.toList) 0 ∧
      piece.Yields allowed (.of (stripComments source.toList)) s := by
  obtain ⟨whole, hwhole, hmem⟩ := List.mem_flatMap.mp h
  have hpiece : piece ∈ whole :: whole.inside :=
    (map_fst_traced_sublist allowed _ whole).subset (List.mem_map_of_mem hmem)
  refine ⟨Segment.isSlice_of_mem hwhole hpiece, ?_⟩
  rcases List.mem_cons.mp hmem with hself | hinner
  · cases hself
    exact yields_classify hwhole
  · split at hinner
    · cases hinner
    · obtain ⟨inner, -, heq⟩ := List.mem_map.mp hinner
      cases heq
      apply yields_classifyInner

/-- Where a problem comes from: the text that it shows begins where its segment does, on the row of
the source that it names, counted from one, and no comment begins before the first line of it ends. -/
structure Located (source : List Char) (piece : Segment) (shown : String) (number : Nat)
    (line : List Char) (row col : Nat) : Prop where
  number_eq : number = row + 1
  line_eq : (Text.lines source)[row]? = some line
  offset_eq : piece.offset = strippedPlace source row col
  piece_at : StandsAt line col (firstLine piece.text)
  shown_at : StandsAt line col (firstLine shown.toList)
  trimmed_at : ∃ inner, StandsAt line inner (Text.trim (firstLine shown.toList))

theorem located_of_mem_traced (h : (piece, s) ∈ traced source allowed) {shown : String}
    {number : Nat} (hshown : s.shown? = some (shown, number)) :
    ∃ line row col, Located source.toList piece shown number line row col := by
  obtain ⟨⟨hne, before, after, htext, hplace⟩, hyields⟩ := of_mem_traced h
  obtain ⟨rfl, hprefix⟩ := hyields.names hshown
  rw [Nat.zero_add] at hplace
  obtain ⟨line, col, hline, hcol, hstands⟩ :=
    exists_place (List.append_ne_nil_of_left_ne_nil hne after) htext
  have hpiece := firstLine_mono (List.prefix_append piece.text after)
  have hown := hstands _ ((firstLine_mono hprefix).trans hpiece)
  refine ⟨line, before.count '\n', col, ?_, hline, hplace.trans hcol, hstands _ hpiece, hown,
    hown.trim⟩
  rw [Text.LineIndex.lineOf_of, Text.lineAt, htext, hplace, ← Nat.add_zero (Text.size before),
    Text.before_append, Text.before_zero, List.append_nil]

theorem lineOf_le (text : List Char) {a b : Nat} (h : a ≤ b) :
    (Text.LineIndex.of text).lineOf a ≤ (Text.LineIndex.of text).lineOf b := by
  rw [Text.LineIndex.lineOf_of, Text.LineIndex.lineOf_of]
  exact Nat.succ_le_succ ((Text.before_prefix text h).sublist.count_le '\n')

theorem pairwise_lines (source : String) (allowed : ActionSet) :
    ((problems (recognize source allowed)).filterMap Statement.shown?).Pairwise
      fun p q => p.2 ≤ q.2 := by
  rw [problems, ← map_snd_traced]
  apply List.pairwise_filterMap.mpr
  apply List.Pairwise.filter
  apply List.pairwise_map.mpr
  apply List.Pairwise.imp_of_mem _ (pairwise_traced source allowed)
  intro p q hp hq hbefore first hfirst second hsecond
  rw [((of_mem_traced hp).2.names hfirst).1, ((of_mem_traced hq).2.names hsecond).1]
  exact lineOf_le _ (Nat.le_of_lt hbefore)

end

/-- Each problem of a script, at the top level or inside of a block, names the row of the source,
counted from one, on which its text begins; the first line of the text stands there in front of any
comment. The rows named by the problems of a script never go back. -/
theorem problems_located (source : String) (allowed : ActionSet) :
    (traced source allowed).map Prod.snd =
      (recognize source allowed).flatMap (fun s => s :: s.body) ∧
    (∀ piece s, (piece, s) ∈ traced source allowed → s.isProblem = true →
      ∃ shown number line row col, s.shown? = some (shown, number) ∧
        Located source.toList piece shown number line row col) ∧
    ((problems (recognize source allowed)).filterMap Statement.shown?).Pairwise
      fun p q => p.2 ≤ q.2 := by
  refine ⟨map_snd_traced source allowed, ?_, pairwise_lines source allowed⟩
  intro piece s hmem hproblem
  have hshows : ∃ shown number, s.shown? = some (shown, number) := by
    cases s with
    | unrecognized | malformedLoop => exact ⟨_, _, rfl⟩
    | _ => cases hproblem
  obtain ⟨shown, number, hshown⟩ := hshows
  obtain ⟨line, row, col, hlocated⟩ := located_of_mem_traced hmem hshown
  exact ⟨shown, number, line, row, col, hshown, hlocated⟩

/-- A conditional whose second line is a comment, with carriage returns and a problem inside. -/
def commented : String :=
  "x = 1; // first\r\n\nif (enemyNear) \x7b // second\r\n  // only a comment\n\t y = ; // third\n\x7d"

def misassigned : Statement :=
  .unrecognized "y = ;" 5 "syntax: expected number"

set_option maxRecDepth 6000 in
theorem problems_located_commented :
    (.simple "y = ;".toList 32, misassigned) ∈ traced commented .full ∧
      misassigned.isProblem = true ∧
      ∃ line row col, Located commented.toList (.simple "y = ;".toList 32) "y = ;" 5 line row col := by
  have hmem : (.simple "y = ;".toList 32, misassigned) ∈ traced commented .full := by
    have htraced : (traced commented .full)[2]? =
        some (.simple "y = ;".toList 32, misassigned) := by cbv
    exact List.mem_of_getElem? htraced
  obtain ⟨shown, number, line, row, col, hshown, hlocated⟩ :=
    (problems_located commented .full).2.1 _ _ hmem rfl
  cases hshown
  exact ⟨hmem, rfl, line, row, col, hlocated⟩

end Playscript.Script
