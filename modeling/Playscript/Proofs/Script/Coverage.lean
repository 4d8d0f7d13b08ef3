import Playscript.Proofs.Script.Balance
/-! How its segments cover a text. The segments are pieces of the text in their order, and between
them stand blanks only; so nothing that can be seen is lost, and nothing is read twice. -/
namespace Playscript.Script.Segment

/-! ## The first segment -/

/-- How a segment is cut off the front of a text that stands at this offset. Blanks may be dropped
after a simple piece. -/
inductive Cut (offset : Nat) : List Char → Segment → List Char → Prop
  | simple {piece blanks rest : List Char} : piece ≠ [] →
      (∀ c ∈ blanks, Text.isBlank c = true) →
      Cut offset (piece ++ (blanks ++ rest)) (.simple piece offset) rest
  | block {keyword : Keyword} {header body rest : List Char} : '\x7b' ∉ header →
      '\x7d' ∉ header → Balanced 0 body →
      Cut offset (header ++ '\x7b' :: (body ++ '\x7d' :: rest))
        (.block keyword (Text.trim header) body (offset + Text.size header + 1)
          (header ++ '\x7b' :: body ++ ['\x7d']) offset) rest
  | unterminated {header rest : List Char} : '\x7b' ∉ header → closeBody? 0 rest = none →
      Cut offset (header ++ '\x7b' :: rest) (.unterminated (header ++ ['\x7b']) offset) rest

section
variable {offset : Nat} {text rest : List Char} {segment : Segment}

theorem Cut.offset_eq (h : Cut offset text segment rest) : segment.offset = offset := by
  cases h <;> rfl

theorem Cut.text_ne_nil (h : Cut offset text segment rest) : segment.text ≠ [] := by
  cases h with
  | simple hne _ => exact hne
  | block | unterminated => apply List.append_ne_nil_of_right_ne_nil; apply List.cons_ne_nil

theorem Cut.eq_append (h : Cut offset text segment rest) :
    ∃ blanks, (∀ c ∈ blanks, Text.isBlank c = true) ∧ text = segment.text ++ (blanks ++ rest) := by
  cases h with
  | simple _ hblanks => exact ⟨_, hblanks, rfl⟩
  | block | unterminated =>
      refine ⟨[], List.forall_mem_nil _, ?_⟩
      simp only [Segment.text, List.append_assoc, List.cons_append, List.nil_append]

end

/-- A line at the beginning of a text that begins with no blank is not blank. -/
theorem trimEnd_ne_nil {line rest : List Char}
    (htext : Text.trimStart (line ++ rest) = line ++ rest) (hne : line ≠ []) :
    Text.trimEnd line ≠ [] := by
  intro hnil
  obtain ⟨blanks, hblanks, hline⟩ := Text.exists_blank_end line
  rw [hnil, List.nil_append] at hline
  cases line with
  | nil => exact hne rfl
  | cons c cs =>
      have hblank := hblanks c (hline ▸ List.mem_cons_self)
      exact Bool.false_ne_true ((Text.isBlank_head_trimStart htext).symm.trans hblank)

theorem cut_simplePiece {text : List Char} (htext : Text.trimStart text = text) (hne : text ≠ [])
    (offset : Nat) : Cut offset text (simplePiece text offset).1 (simplePiece text offset).2 := by
  -- a line that ends with its blanks
  have hcut {line rest : List Char} (htext : Text.trimStart (line ++ rest) = line ++ rest)
      (hne : line ≠ []) : Cut offset (line ++ rest) (.simple (Text.trimEnd line) offset) rest := by
    obtain ⟨blanks, hblanks, hline⟩ := Text.exists_blank_end line
    have hcut : Cut offset (Text.trimEnd line ++ (blanks ++ rest))
        (.simple (Text.trimEnd line) offset) rest := .simple (trimEnd_ne_nil htext hne) hblanks
    rwa [← List.append_assoc, ← hline] at hcut
  induction text using piece_cases with
  | semicolon line rest hsemicolon hfeed =>
      have hpiece : line ++ [';'] ≠ [] := by
        apply List.append_ne_nil_of_right_ne_nil
        apply List.cons_ne_nil
      have hcut : Cut offset (line ++ [';'] ++ ([] ++ rest)) (.simple (line ++ [';']) offset) rest :=
        .simple hpiece (List.forall_mem_nil _)
      rw [simplePiece_append hsemicolon hfeed]
      rwa [← List.append_cons] at hcut
  | feed line rest hsemicolon hfeed =>
      have hline : line ≠ [] := by
        rintro rfl
        cases Text.isBlank_head_trimStart htext
      rw [simplePiece_feed hsemicolon hfeed]
      exact hcut htext hline
  | last line hsemicolon hfeed =>
      rw [← List.append_nil line] at htext
      have hcut := hcut htext hne
      rw [List.append_nil] at hcut
      rwa [simplePiece_last hsemicolon hfeed]

theorem cut_first {text : List Char} (htext : Text.trimStart text = text) (hne : text ≠ [])
    (offset : Nat) : Cut offset text (first text offset).1 (first text offset).2 := by
  rcases first_cases text offset with
    hsimple | ⟨keyword, header, inside, rfl, hheader, hkeyword, haccepted⟩
  · rw [hsimple]
    exact cut_simplePiece htext hne offset
  · rw [first_of_header hheader hkeyword haccepted]
    cases hclose : closeBody? 0 inside with
    | none => exact .unterminated hheader hclose
    | some closed =>
        obtain ⟨body, rest⟩ := closed
        obtain ⟨rfl, -⟩ := eq_append_of_closeBody? hclose
        have hclosing : '\x7d' ∉ header := by
          simp only [isPlausible, Bool.and_eq_true] at haccepted
          simpa using haccepted.1
        exact .block hheader hclosing (balanced_of_closeBody? hclose)

/-! ## All segments -/

/-- How a text at this offset is made up of segments and blanks. -/
inductive Covers : Nat → List Char → List Segment → Prop
  | blank {offset : Nat} {text : List Char} : (∀ c ∈ text, Text.isBlank c = true) →
      Covers offset text []
  | segment {offset : Nat} {gap text rest : List Char} {first : Segment}
      {later : List Segment} : (∀ c ∈ gap, Text.isBlank c = true) →
      Cut (offset + Text.size gap) text first rest →
      Covers (offset + Text.size gap + (Text.size text - Text.size rest)) rest later →
      Covers offset (gap ++ text) (first :: later)

/-- A character of two texts in a row is one of the first or of the second. -/
theorem append_eq_append_cons {a b front back : List Char} {c : Char}
    (h : a ++ b = front ++ c :: back) :
    (∃ inside, a = front ++ c :: inside) ∨ ∃ after, front = a ++ after ∧ b = after ++ c :: back := by
  rcases List.append_eq_append_iff.mp h with ⟨after, hfront, hb⟩ | ⟨inside, ha, hback⟩
  · exact .inr ⟨after, hfront, hb⟩
  · cases inside with
    | nil => exact .inr ⟨[], by rw [ha, List.append_nil, List.append_nil], hback.symm⟩
    | cons d ds =>
        obtain ⟨rfl, -⟩ := List.cons_eq_cons.mp hback
        exact .inl ⟨ds, ha⟩

theorem covers_split (text : List Char) (offset : Nat) : Covers offset text (split text offset) := by
  induction text, offset using split_induction with
  | blank text offset hblank =>
      rw [split_of_blank (Text.trimStart_eq_nil_iff.mpr hblank)]
      exact .blank hblank
  | piece gap text rest segment offset hgap htext hne hfirst _ ih =>
      have hcut := cut_first htext hne (offset + Text.size gap)
      rw [hfirst] at hcut
      rw [split_gap hgap htext hne hfirst]
      exact .segment hgap hcut ih

section
variable {offset : Nat} {text : List Char} {segments : List Segment}

/-- Each segment is a piece of the text and stands where it says. -/
theorem Covers.slice (h : Covers offset text segments) {s : Segment} (hs : s ∈ segments) :
    s.text ≠ [] ∧ ∃ before after, text = before ++ (s.text ++ after) ∧
      s.offset = offset + Text.size before := by
  induction h with
  | blank _ => cases hs
  | @segment offset gap text rest first later _ hcut _ ih =>
      obtain ⟨blanks, -, htext⟩ := hcut.eq_append
      rcases List.mem_cons.mp hs with rfl | hlater
      · refine ⟨hcut.text_ne_nil, gap, blanks ++ rest, ?_, hcut.offset_eq⟩
        rw [htext]
      · obtain ⟨hne, before, after, hrest, hplace⟩ := ih hlater
        refine ⟨hne, gap ++ (first.text ++ (blanks ++ before)), after, ?_, ?_⟩
        · rw [htext, hrest]
          simp only [List.append_assoc]
        · rw [hplace, htext]
          simp only [Text.size_append]
          omega

/-- A segment ends before the next one begins. -/
theorem Covers.pairwise (h : Covers offset text segments) :
    segments.Pairwise fun s t =>
      s.offset < t.offset ∧ s.offset + Text.size s.text ≤ t.offset := by
  induction h with
  | blank _ => apply List.Pairwise.nil
  | @segment offset gap text rest first later _ hcut hlater ih =>
      apply List.Pairwise.cons
      · intro t ht
        obtain ⟨blanks, -, htext⟩ := hcut.eq_append
        obtain ⟨-, before, after, -, hplace⟩ := hlater.slice ht
        have hsize := Text.size_pos hcut.text_ne_nil
        rw [hplace, hcut.offset_eq, htext]
        simp only [Text.size_append]
        omega
      · exact ih

/-- What lies in no segment is blank. -/
theorem Covers.visible (h : Covers offset text segments) {front back : List Char} {c : Char}
    (hc : text = front ++ c :: back) : Text.isBlank c = true ∨
      ∃ s ∈ segments, s.offset ≤ offset + Text.size front ∧
        offset + Text.size front + c.utf8Size ≤ s.offset + Text.size s.text := by
  induction h generalizing front with
  | blank hblank => exact .inl (hblank c (hc ▸ List.mem_append_right front List.mem_cons_self))
  | @segment offset gap text rest first later hgap hcut _ ih =>
      obtain ⟨blanks, hblanks, rfl⟩ := hcut.eq_append
      have hplace := hcut.offset_eq
      rcases append_eq_append_cons hc with ⟨_, hmem⟩ | ⟨afterGap, rfl, hvisible⟩
      · exact .inl (hgap c (hmem ▸ List.mem_append_right front List.mem_cons_self))
      rcases append_eq_append_cons hvisible with ⟨inside, hinside⟩ | ⟨afterFirst, rfl, hend⟩
      · refine .inr ⟨first, List.mem_cons_self, ?_, ?_⟩
        · rw [hplace, Text.size_append]
          omega
        · rw [hplace, hinside]
          simp only [Text.size_append, Text.size_cons]
          omega
      rcases append_eq_append_cons hend with ⟨_, hmem⟩ | ⟨afterBlanks, rfl, hrest⟩
      · exact .inl (hblanks c (hmem ▸ List.mem_append_right afterFirst List.mem_cons_self))
      · rcases ih hrest with hblank | ⟨s, hs, hfrom, hto⟩
        · exact .inl hblank
        · simp only [Text.size_append] at hfrom hto ⊢
          exact .inr ⟨s, List.mem_cons_of_mem first hs, by omega, by omega⟩

/-- Each segment of a text is cut off from some place on. -/
theorem Covers.cut (h : Covers offset text segments) {s : Segment} (hs : s ∈ segments) :
    ∃ place back rest, back <:+ text ∧ Cut place back s rest := by
  induction h with
  | blank _ => cases hs
  | @segment offset gap text rest first later _ hcut _ ih =>
      rcases List.mem_cons.mp hs with rfl | hlater
      · exact ⟨_, text, rest, List.suffix_append gap text, hcut⟩
      · obtain ⟨place, back, after, hback, hlast⟩ := ih hlater
        obtain ⟨blanks, -, htext⟩ := hcut.eq_append
        refine ⟨place, back, after, ?_, hlast⟩
        apply hback.trans
        rw [htext, ← List.append_assoc, ← List.append_assoc]
        apply List.suffix_append

end

/-- The segments of a text are nonempty slices of it, each at the place that it records, in bytes of
UTF-8, and one after the other; what lies between them is blank; and a block is a header without a
brace and a body between braces, which is balanced and stands at the place recorded for it. -/
theorem split_slices_cover (text : List Char) (offset : Nat) :
    let segments := split text offset
    (∀ s ∈ segments, s.text ≠ [] ∧ ∃ before after, text = before ++ (s.text ++ after) ∧
      s.offset = offset + Text.size before) ∧
    (segments.Pairwise fun s t =>
      s.offset < t.offset ∧ s.offset + Text.size s.text ≤ t.offset) ∧
    (∀ front c back, text = front ++ c :: back → Text.isBlank c = true ∨
      ∃ s ∈ segments, s.offset ≤ offset + Text.size front ∧
        offset + Text.size front + c.utf8Size ≤ s.offset + Text.size s.text) ∧
    ∀ keyword header body bodyOffset piece place,
      .block keyword header body bodyOffset piece place ∈ segments →
        ∃ region, piece = region ++ '\x7b' :: (body ++ ['\x7d']) ∧ '\x7b' ∉ region ∧
          '\x7d' ∉ region ∧ header = Text.trim region ∧
          bodyOffset = place + Text.size (region ++ ['\x7b']) ∧
          (∀ front, front <+: body → front.count '\x7d' ≤ front.count '\x7b') ∧
          body.count '\x7b' = body.count '\x7d' := by
  intro segments
  have hcovers : Covers offset text segments := covers_split text offset
  refine ⟨fun s hs => hcovers.slice hs, hcovers.pairwise, fun _ _ _ => hcovers.visible, ?_⟩
  intro keyword header body bodyOffset piece place hblock
  obtain ⟨start, back, rest, -, hcut⟩ := hcovers.cut hblock
  cases hcut with
  | @block _ region _ _ hopen hclose hbody =>
      refine ⟨region, ?_, hopen, hclose, rfl, ?_, hbody.never_over, hbody.all_closed.symm⟩
      · rw [List.append_assoc, List.cons_append]
      · rw [Text.size_append, ← Nat.add_assoc]
        rfl

/-- A letter of two bytes moves what stands after it by two. -/
example : (split "é;x;".toList 0).map offset = [0, 3] := by cbv

end Playscript.Script.Segment
