import Playscript.Proofs.Script.Origin
import Playscript.Proofs.Script.Position
/-! Mistakes stay local. Where every segment of a text ends within the text, whatever is written on
the lines after it leaves its statements alone, the correct ones and the problems, and is itself
recognized as on its own. -/
namespace Playscript.Script

/-! ## Segments that end where they end -/

namespace Segment

/-- Whether the segment ends where it ends, whatever stands on further lines: a block that is
closed, or a simple piece that does not begin like a block. -/
def isSettled : Segment → Bool
  | .simple text _ => (keyword? text).isNone
  | .block .. => true
  | .unterminated .. => false

theorem first_of_no_keyword {text : List Char} (h : keyword? text = none) (offset : Nat) :
    first text offset = simplePiece text offset := by
  apply first_of_no_header
  intro keyword hfound
  rw [h] at hfound
  cases hfound

/-- A simple piece that a semicolon or a line feed ends is the same in a longer text. -/
theorem simplePiece_goesOn (text suffix : List Char) (offset : Nat) :
    (';' ∉ text ∧ '\n' ∉ text) ∨
      simplePiece (text ++ suffix) offset =
        ((simplePiece text offset).1, (simplePiece text offset).2 ++ suffix) := by
  induction text using piece_cases with
  | semicolon line rest hsemicolon hfeed =>
      right
      rw [List.append_assoc, List.cons_append, simplePiece_append hsemicolon hfeed,
        simplePiece_append hsemicolon hfeed]
  | feed line rest hsemicolon hfeed =>
      right
      rw [List.append_assoc, List.cons_append, simplePiece_feed hsemicolon hfeed,
        simplePiece_feed hsemicolon hfeed, List.cons_append]
  | last line hsemicolon hfeed => exact .inl ⟨hsemicolon, hfeed⟩

theorem simplePiece_append_feed (text suffix : List Char) (offset : Nat) :
    simplePiece (text ++ '\n' :: suffix) offset =
      ((simplePiece text offset).1, (simplePiece text offset).2 ++ '\n' :: suffix) := by
  rcases simplePiece_goesOn text ('\n' :: suffix) offset with ⟨hsemicolon, hfeed⟩ | hsame
  · rw [simplePiece_feed hsemicolon hfeed, simplePiece_last hsemicolon hfeed, List.nil_append]
  · exact hsame

/-- A settled segment looks no further than its text goes. -/
theorem first_append_feed {text rest : List Char} {segment : Segment} {offset : Nat}
    (hfirst : first text offset = (segment, rest)) (hsettled : segment.isSettled = true)
    (suffix : List Char) :
    first (text ++ '\n' :: suffix) offset = (segment, rest ++ '\n' :: suffix) := by
  cases segment with
  | simple piece place =>
      have hsimple := simplePiece_of_first hfirst
      have hkeyword : keyword? text = none := by
        have hsame := keyword?_simplePiece text offset
        rw [hsimple] at hsame
        exact hsame.symm.trans (Option.isNone_iff_eq_none.mp hsettled)
      have hlater : keyword? (text ++ '\n' :: suffix) = none :=
        (keyword?_append text rfl).trans hkeyword
      rw [first_of_no_keyword hlater, simplePiece_append_feed, hsimple]
  | block keyword header body bodyOffset piece place =>
      obtain ⟨rfl, -, -, hwhatever⟩ := first_eq_block hfirst
      rw [List.append_assoc, hwhatever]
  | unterminated piece place => cases hsettled

/-- After settled segments, the segments of further lines are those of the lines on their own. -/
theorem split_append_feed {text : List Char} {offset : Nat}
    (hsettled : ∀ s ∈ split text offset, s.isSettled = true) (suffix : List Char) :
    split (text ++ '\n' :: suffix) offset =
      split text offset ++ split suffix (offset + Text.size text + 1) := by
  induction text, offset using split_induction with
  | blank text offset hblank =>
      rw [split_blanks hblank, split_feed,
        split_of_blank (Text.trimStart_eq_nil_iff.mpr hblank), List.nil_append]
  | piece gap text rest segment offset hgap htext hne hfirst hlt ih =>
      rw [split_gap hgap htext hne hfirst] at hsettled ⊢
      obtain ⟨hown, hlater⟩ := List.forall_mem_cons.mp hsettled
      have hgoesOn := first_append_feed hfirst hown suffix
      have hplace : offset + Text.size gap +
          (Text.size (text ++ '\n' :: suffix) - Text.size (rest ++ '\n' :: suffix)) =
            offset + Text.size gap + (Text.size text - Text.size rest) := by
        rw [Text.size_append, Text.size_append, Nat.add_sub_add_right]
      have hsuffix := first_suffix text (offset + Text.size gap)
      rw [hfirst] at hsuffix
      have hrest : Text.size rest ≤ Text.size text := Text.size_le_of_suffix hsuffix
      have hend : offset + Text.size gap + (Text.size text - Text.size rest) + Text.size rest =
          offset + Text.size (gap ++ text) := by
        rw [Text.size_append]
        omega
      rw [List.append_assoc, split_gap hgap (trimStart_append htext hne _)
        (List.append_ne_nil_of_left_ne_nil hne _) hgoesOn, hplace, ih hlater, hend,
        List.cons_append]

/-! ## Blanks at the end -/

section
variable {blanks : List Char} (hblanks : ∀ c ∈ blanks, Text.isBlank c = true)
include hblanks

theorem simplePiece_append_blanks (text : List Char) (offset : Nat) :
    ∃ left, (∀ c ∈ left, Text.isBlank c = true) ∧
      ((simplePiece text offset).2 = [] ∨ left = blanks) ∧
      simplePiece (text ++ blanks) offset =
        ((simplePiece text offset).1, (simplePiece text offset).2 ++ left) := by
  rcases simplePiece_goesOn text blanks offset with ⟨hsemicolon, hfeed⟩ | hsame
  · rw [simplePiece_last hsemicolon hfeed]
    -- the blanks go with the line, up to a line feed
    induction blanks using piece_cases with
    | semicolon front rest _ _ =>
        cases hblanks ';' (List.mem_append_right front List.mem_cons_self)
    | feed front rest hnoSemicolon hnoFeed =>
        obtain ⟨hfront, hrest⟩ := List.forall_mem_append.mp hblanks
        have hsemicolon' : ';' ∉ text ++ front := by simp [hsemicolon, hnoSemicolon]
        have hfeed' : '\n' ∉ text ++ front := by simp [hfeed, hnoFeed]
        refine ⟨'\n' :: rest, hrest, .inl rfl, ?_⟩
        rw [← List.append_assoc, simplePiece_feed hsemicolon' hfeed',
          Text.trimEnd_append_blank text hfront, List.nil_append]
    | last blanks hnoSemicolon hnoFeed =>
        have hsemicolon' : ';' ∉ text ++ blanks := by simp [hsemicolon, hnoSemicolon]
        have hfeed' : '\n' ∉ text ++ blanks := by simp [hfeed, hnoFeed]
        refine ⟨[], List.forall_mem_nil _, .inl rfl, ?_⟩
        rw [simplePiece_last hsemicolon' hfeed', Text.trimEnd_append_blank text hblanks,
          List.append_nil]
  · exact ⟨blanks, hblanks, .inr rfl, hsame⟩

/-- Blanks close no brace. -/
theorem closeBody?_append_blanks {depth : Nat} {text : List Char}
    (h : closeBody? depth text = none) : closeBody? depth (text ++ blanks) = none := by
  cases hclose : closeBody? depth (text ++ blanks) with
  | none => rfl
  | some closed =>
      obtain ⟨body, rest⟩ := closed
      obtain ⟨hends, hwhatever⟩ := eq_append_of_closeBody? hclose
      rcases List.append_eq_append_iff.mp hends with ⟨more, rfl, hmore⟩ | ⟨more, rfl, hmore⟩
      · cases hblanks '\x7d' (hmore ▸ List.mem_append_right more List.mem_cons_self)
      · cases more with
        | nil =>
            rw [List.nil_append] at hmore
            cases hblanks '\x7d' (hmore ▸ List.mem_cons_self)
        | cons c cs =>
            obtain ⟨rfl, -⟩ := List.cons_eq_cons.mp hmore
            rw [hwhatever cs] at h
            cases h

theorem first_append_blanks (text : List Char) (offset : Nat) :
    ∃ left, (∀ c ∈ left, Text.isBlank c = true) ∧
      ((first text offset).2 = [] ∨ left = blanks) ∧
      first (text ++ blanks) offset = ((first text offset).1, (first text offset).2 ++ left) := by
  have hnoBrace : '\x7b' ∉ blanks := Grammar.not_mem_of_class hblanks rfl
  by_cases hbrace : '\x7b' ∈ text
  · obtain ⟨header, inside, rfl, hheader⟩ := List.eq_append_cons_of_mem hbrace
    have hkeyword : keyword? (header ++ '\x7b' :: (inside ++ blanks)) =
        keyword? (header ++ '\x7b' :: inside) := by
      rw [keyword?_append header rfl, keyword?_append header rfl]
    by_cases hpossible : ∃ keyword, keyword? (header ++ '\x7b' :: inside) = some keyword ∧
        isPlausible keyword header = true
    · obtain ⟨keyword, hfound, haccepted⟩ := hpossible
      refine ⟨blanks, hblanks, .inr rfl, ?_⟩
      rw [List.append_assoc, List.cons_append,
        first_of_header hheader (hkeyword.trans hfound) haccepted,
        first_of_header hheader hfound haccepted]
      cases hclose : closeBody? 0 inside with
      | none =>
          rw [closeBody?_append_blanks hblanks hclose]
          rfl
      | some closed =>
          obtain ⟨body, rest⟩ := closed
          obtain ⟨rfl, hwhatever⟩ := eq_append_of_closeBody? hclose
          rw [List.append_assoc, List.cons_append, hwhatever]
          rfl
    · have hnone {inside' : List Char} (hsame : keyword? (header ++ '\x7b' :: inside') =
          keyword? (header ++ '\x7b' :: inside)) (keyword : Keyword)
          (hfound : keyword? (header ++ '\x7b' :: inside') = some keyword) :
          isPlausible keyword ((header ++ '\x7b' :: inside').takeWhile (· != '\x7b')) = false := by
        rw [takeWhile_ne_append hheader, Bool.eq_false_iff]
        exact fun haccepted => hpossible ⟨keyword, hsame ▸ hfound, haccepted⟩
      obtain ⟨left, hleft, hshort, hsimple⟩ :=
        simplePiece_append_blanks hblanks (header ++ '\x7b' :: inside) offset
      rw [List.append_assoc, List.cons_append] at hsimple ⊢
      rw [first_of_no_header (hnone rfl), first_of_no_header (hnone hkeyword)]
      exact ⟨left, hleft, hshort, hsimple⟩
  · have hneither : '\x7b' ∉ text ++ blanks := by simp [hbrace, hnoBrace]
    rw [first_of_no_brace hbrace, first_of_no_brace hneither]
    exact simplePiece_append_blanks hblanks text offset

/-- Blanks at the end of a text belong to no segment. -/
theorem split_append_blanks (text : List Char) (offset : Nat) :
    split (text ++ blanks) offset = split text offset := by
  induction text, offset using split_induction with
  | blank text offset hblank =>
      have hall := Text.trimStart_eq_nil_iff.mpr (List.forall_mem_append.mpr ⟨hblank, hblanks⟩)
      rw [split_of_blank hall, split_of_blank (Text.trimStart_eq_nil_iff.mpr hblank)]
  | piece gap text rest segment offset hgap htext hne hfirst _ ih =>
      obtain ⟨left, hleft, hshort, hcut⟩ :=
        first_append_blanks hblanks text (offset + Text.size gap)
      rw [hfirst] at hshort hcut
      rw [List.append_assoc, split_gap hgap (trimStart_append htext hne blanks)
        (List.append_ne_nil_of_left_ne_nil hne blanks) hcut, split_gap hgap htext hne hfirst]
      rcases hshort with rfl | rfl
      · rw [List.nil_append, split_of_blank (Text.trimStart_eq_nil_iff.mpr hleft), split_nil]
      · rw [Text.size_append, Text.size_append, Nat.add_sub_add_right, ih]

end

end Segment

/-! ## Statements -/

theorem lineOf_append (text more : List Char) {offset : Nat} (h : offset ≤ Text.size text) :
    (Text.LineIndex.of (text ++ more)).lineOf offset = (Text.LineIndex.of text).lineOf offset := by
  rw [Text.LineIndex.lineOf_of, Text.LineIndex.lineOf_of, Text.lineAt, Text.lineAt,
    Text.before_append_left more h]

section
variable (allowed : ActionSet) {index index' : Text.LineIndex}

theorem unrecognized_congr {s : Segment} (h : index.lineOf s.offset = index'.lineOf s.offset)
    (reason : Reason) : unrecognized index s reason = unrecognized index' s reason := by
  rw [unrecognized, unrecognized, h]

theorem classifyInner_congr {s : Segment} (h : index.lineOf s.offset = index'.lineOf s.offset) :
    classifyInner allowed index s = classifyInner allowed index' s := by
  cases s with
  | simple text offset => simp only [classifyInner, unrecognized_congr h]
  | block | unterminated => exact unrecognized_congr h _

/-- A segment needs the index for nothing but the numbers of its lines. -/
theorem classify_congr {s : Segment}
    (h : ∀ piece ∈ s :: s.inside, index.lineOf piece.offset = index'.lineOf piece.offset) :
    classify allowed index s = classify allowed index' s := by
  obtain ⟨hown, hinside⟩ := List.forall_mem_cons.mp h
  cases s with
  | simple | unterminated => exact classifyInner_congr allowed hown
  | block keyword header body bodyOffset text offset =>
      have hbody : (Segment.split body bodyOffset).map (classifyInner allowed index) =
          (Segment.split body bodyOffset).map (classifyInner allowed index') :=
        List.map_congr_left fun piece hpiece => classifyInner_congr allowed (hinside piece hpiece)
      have hline : index.lineOf offset = index'.lineOf offset := hown
      simp only [classify, hbody, unrecognized_congr hown, hline]

/-- The statements of a text stay what they are in a text that goes on. -/
theorem map_classify_append (text more : List Char) :
    (Segment.split text 0).map (classify allowed (.of (text ++ more))) =
      (Segment.split text 0).map (classify allowed (.of text)) := by
  apply List.map_congr_left
  intro s hs
  apply classify_congr
  intro piece hpiece
  apply lineOf_append
  obtain ⟨-, before, after, htext, hplace⟩ := Segment.isSlice_of_mem hs hpiece
  rw [hplace, htext, Text.size_append, Nat.zero_add]
  exact Nat.le_add_right _ _

/-- Blanks at the end of a text change none of its statements. -/
theorem map_classify_blanks (text : List Char) {blanks : List Char}
    (hblanks : ∀ c ∈ blanks, Text.isBlank c = true) :
    (Segment.split (text ++ blanks) 0).map (classify allowed (.of (text ++ blanks))) =
      (Segment.split text 0).map (classify allowed (.of text)) := by
  rw [Segment.split_append_blanks hblanks, map_classify_append]

end

/-! ## Scripts that go on -/

theorem toList_append_feed (a b : String) :
    (a ++ "\n" ++ b).toList = a.toList ++ '\n' :: b.toList := by
  simp

theorem split_stripComments_feed (a : List Char) :
    Segment.split (stripComments (a ++ ['\n'])) 0 = Segment.split (stripComments a) 0 := by
  obtain ⟨text, w, w', hw, hw', hstrip, hfeed⟩ := exists_stripComments_feed a
  rw [hstrip, hfeed, Segment.split_append_blanks hw, Segment.split_append_blanks hw']

/-- A line feed at the end of a script changes none of its statements. -/
theorem map_classify_feed (a : String) (allowed : ActionSet) :
    (Segment.split (stripComments (a.toList ++ ['\n'])) 0).map
        (classify allowed (.of (stripComments (a.toList ++ ['\n'])))) = recognize a allowed := by
  obtain ⟨text, w, w', hw, hw', hstrip, hfeed⟩ := exists_stripComments_feed a.toList
  rw [recognize, hstrip, hfeed, map_classify_blanks allowed text hw,
    map_classify_blanks allowed text hw']

/-- Where the segments of a script are cut off as they are, whatever follows, its statements are
followed by those of the lines after it, further down. -/
theorem recognize_append_of_split {a : String} {text : List Char}
    (htext : stripComments (a.toList ++ ['\n']) = text)
    (hsplit : ∀ suffix, Segment.split (text ++ '\n' :: suffix) 0 =
      Segment.split text 0 ++ Segment.split suffix (Text.size text + 1))
    (b : String) (allowed : ActionSet) :
    recognize (a ++ "\n" ++ b) allowed =
      recognize a allowed ++
        (recognize b allowed).map (Statement.raise (a.toList.count '\n' + 1)) := by
  subst htext
  by_cases hb : b.toList = []
  · have hnone : recognize b allowed = [] := by
      rw [recognize, hb, stripComments_nil, Segment.split_nil, List.map_nil]
    rw [hnone, List.map_nil, List.append_nil, recognize, toList_append_feed, hb]
    exact map_classify_feed a allowed
  · have hafter := map_classify_after_feed allowed (stripComments (a.toList ++ ['\n']))
      (stripComments b.toList)
    rw [count_feed_stripComments] at hafter
    rw [recognize, toList_append_feed, stripComments_append_feed _ hb, hsplit, List.map_append,
      map_classify_append, map_classify_feed, hafter]
    rfl

/-- After a script whose segments are settled, whatever they are, come the statements of the lines
that are written after it, with line numbers that are higher by the lines of the script. -/
theorem recognize_append_of_settled {a : String}
    (hsettled : ∀ s ∈ Segment.split (stripComments a.toList) 0, s.isSettled = true)
    (b : String) (allowed : ActionSet) :
    recognize (a ++ "\n" ++ b) allowed =
      recognize a allowed ++
        (recognize b allowed).map (Statement.raise (a.toList.count '\n' + 1)) := by
  apply recognize_append_of_split rfl
  intro suffix
  rw [← split_stripComments_feed] at hsettled
  rw [Segment.split_append_feed hsettled, Nat.zero_add]

/-- A script with a brace too many, a call to no action, a block within a block and a loop that
runs backwards. -/
def mistakes : String :=
  "\x7d fly();\nif (a) \x7b x = 1; if (b) \x7b \x7d ?\n\x7d\n" ++
    "for (int i = 9; i < 2; i++) \x7b wait(); \x7d // \x7b\nif1 ="

set_option maxRecDepth 6000 in
/-- None of the mistakes reaches the lines after them. -/
theorem recognize_append_of_settled_mistakes :
    (∀ s ∈ Segment.split (stripComments mistakes.toList) 0, s.isSettled = true) ∧
      ∀ (b : String) (allowed : ActionSet),
        recognize (mistakes ++ "\n" ++ b) allowed =
          recognize mistakes allowed ++
            (recognize b allowed).map (Statement.raise (mistakes.toList.count '\n' + 1)) := by
  have hsettled : ∀ s ∈ Segment.split (stripComments mistakes.toList) 0, s.isSettled = true :=
    List.all_eq_true.mp (by cbv)
  exact ⟨hsettled, recognize_append_of_settled hsettled⟩

end Playscript.Script
