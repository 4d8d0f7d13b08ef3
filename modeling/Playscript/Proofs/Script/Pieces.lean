import Playscript.Proofs.Script.Cutting
import Playscript.Proofs.Script.Shape
/-! The pieces of a correct script. Each piece is cut off and read in the same way whatever comes
after the script, with one exception: an assignment to the name `for` looks like the beginning of a
loop whose brace is still to come. -/
namespace Playscript.Script

/-! ## Recognized segments -/

def Statement.isBlock : Statement → Bool
  | .branch .. | .loop .. => true
  | _ => false

/-- An assignment to the name that begins a loop. -/
def Statement.assignsFor : Statement → Bool
  | .assign name _ => name == "for"
  | _ => false

theorem Statement.isBlock_of_assignsFor {s : Statement} (h : s.assignsFor = true) :
    s.isBlock = false := by
  cases s with
  | branch | loop => cases h
  | _ => rfl

/-- A segment that stands for a statement without a problem, wherever it stands. -/
inductive Segment.Reads (allowed : ActionSet) : Segment → Statement → Prop
  | simple {text : List Char} {offset : Nat} {s : Statement} : simple? allowed text = .ok s →
      Reads allowed (.simple text offset) s
  | block {keyword : Keyword} {header body text : List Char} {bodyOffset offset : Nat}
      {s : Statement} : s.isBlock = true →
      (∀ index,
        classify allowed index (.block keyword header body bodyOffset text offset) = s) →
      Reads allowed (.block keyword header body bodyOffset text offset) s

theorem problems_eq_nil_iff {script : List Statement} :
    problems script = [] ↔
      ∀ s ∈ script, s.isProblem = false ∧ ∀ t ∈ s.body, t.isProblem = false := by
  simp only [problems, List.filter_eq_nil_iff, List.mem_flatMap, List.mem_cons, Bool.not_eq_true]
  constructor
  · intro h s hs
    exact ⟨h s ⟨s, hs, .inl rfl⟩, fun t ht => h t ⟨s, hs, .inr ht⟩⟩
  · rintro h t ⟨s, hs, rfl | ht⟩
    · exact (h t hs).1
    · exact (h s hs).2 t ht

theorem classifyInner_eq {allowed : ActionSet} {index : Text.LineIndex} {segment : Segment}
    (h : (classifyInner allowed index segment).isProblem = false) (index' : Text.LineIndex) :
    classifyInner allowed index' segment = classifyInner allowed index segment := by
  cases segment with
  | simple text offset =>
      simp only [classifyInner] at h ⊢
      split
      · rfl
      · rename_i hsimple
        rw [hsimple] at h
        cases h
  | unterminated | block => cases h

theorem map_classifyInner_eq {allowed : ActionSet} {index : Text.LineIndex} {segments : List Segment}
    (h : ∀ t ∈ segments.map (classifyInner allowed index), t.isProblem = false)
    (index' : Text.LineIndex) :
    segments.map (classifyInner allowed index') = segments.map (classifyInner allowed index) :=
  List.map_congr_left fun _ hmem => classifyInner_eq (h _ (List.mem_map_of_mem hmem)) index'

theorem reads_of_no_problem {allowed : ActionSet} {index : Text.LineIndex} {segment : Segment}
    (h : (classify allowed index segment).isProblem = false)
    (hbody : ∀ t ∈ (classify allowed index segment).body, t.isProblem = false) :
    segment.Reads allowed (classify allowed index segment) := by
  cases segment with
  | unterminated => cases h
  | simple text offset =>
      simp only [classify, classifyInner] at h ⊢
      split
      · rename_i hsimple
        exact .simple hsimple
      · rename_i hsimple
        rw [hsimple] at h
        cases h
  | block keyword header body bodyOffset text offset =>
      cases keyword with
      | ifWord =>
          simp only [classify] at h hbody ⊢
          cases hcondition : condition? header with
          | error reason =>
              rw [hcondition] at h
              cases h
          | ok condition =>
              rw [hcondition] at hbody
              refine .block rfl ?_
              intro index'
              simp only [classify, hcondition, map_classifyInner_eq hbody index']
      | forWord =>
          simp only [classify] at h hbody ⊢
          cases hheader : Grammar.forHeader? header with
          | none =>
              rw [hheader] at h
              cases h
          | some tokens =>
              simp only [hheader] at h hbody ⊢
              cases hrange : loopRange? tokens with
              | error fault =>
                  rw [hrange] at h
                  cases h
              | ok range =>
                  rw [hrange] at hbody
                  refine .block rfl ?_
                  intro index'
                  simp only [classify, hheader, hrange, map_classifyInner_eq hbody index']

/-! ## The text of a simple statement -/

section
variable {allowed : ActionSet} {text : List Char} {s : Statement}

/-- An accepted text has the form of a simple statement; its name is `for` only where that name is
assigned. -/
theorem simple?_ok (h : simple? allowed text = .ok s) :
    ∃ simple, Grammar.simple? text = some simple ∧
      (simple.name = ['f', 'o', 'r'] ↔ s.assignsFor = true) := by
  unfold simple? at h
  split at h
  · cases h
  · rename_i name digits hsimple
    refine ⟨_, hsimple, ?_⟩
    cases hnumber : number? digits with
    | error reason =>
        rw [hnumber] at h
        cases h
    | ok value =>
        rw [hnumber] at h
        cases h
        rw [Statement.assignsFor, beq_iff_eq, ← String.toList_inj, String.toList_ofList]
        rfl
  · rename_i name value hsimple
    refine ⟨_, hsimple, ?_⟩
    obtain ⟨action, argument, rfl, -, hname, -⟩ := call?_eq_ok_iff.mp h
    have hother : name ≠ ['f', 'o', 'r'] := by
      rintro rfl
      cases action <;> exact absurd hname (by decide)
    exact iff_of_false hother Bool.false_ne_true

theorem semicolon_mem_of_simple? (h : simple? allowed text = .ok s) : ';' ∈ text := by
  obtain ⟨simple, hsimple, -⟩ := simple?_ok h
  obtain ⟨-, hspaced⟩ := Grammar.simple?_eq_some_iff.mp hsimple
  refine hspaced.mem ?_ (List.mem_singleton_self ';')
  cases simple with
  | assign name digits => simp [Grammar.Simple.tokens]
  | call name value => cases value <;> simp [Grammar.Simple.tokens]

theorem no_brace_of_simple? (h : simple? allowed text = .ok s) :
    '\x7b' ∉ text ∧ '\x7d' ∉ text := by
  obtain ⟨simple, hsimple, -⟩ := simple?_ok h
  obtain ⟨hlexical, hspaced⟩ := Grammar.simple?_eq_some_iff.mp hsimple
  exact ⟨hspaced.not_mem rfl (hlexical.not_mem rfl (by decide)),
    hspaced.not_mem rfl (hlexical.not_mem rfl (by decide))⟩

theorem isBlank_of_isGap {c : Char} (h : Grammar.isGap c = true) : Text.isBlank c = true := by
  simp only [Grammar.isGap, Bool.or_eq_true, beq_iff_eq] at h
  rcases h with ((rfl | rfl) | rfl) | rfl <;> rfl

theorem skip_eq_of_trimStart (hstart : Text.trimStart text = text) : Grammar.skip text = text := by
  cases text with
  | nil => rfl
  | cons c cs =>
      apply Grammar.skip_token
      rw [Bool.eq_false_iff]
      intro hgap
      have hhead := Text.isBlank_head_trimStart hstart
      rw [isBlank_of_isGap hgap] at hhead
      cases hhead

/-- A simple statement begins with a name, which is `for` only where that name is assigned. -/
theorem begins_of_simple? (h : simple? allowed text = .ok s)
    (hstart : Text.trimStart text = text) : ∃ name c more, text = name ++ c :: more ∧
      Grammar.IsWord name ∧ Grammar.isNameChar c = false ∧
      (name = ['f', 'o', 'r'] ↔ s.assignsFor = true) := by
  obtain ⟨simple, hsimple, hfor⟩ := simple?_ok h
  obtain ⟨hlexical, hspaced⟩ := Grammar.simple?_eq_some_iff.mp hsimple
  obtain ⟨c, more, hskip, hc⟩ := hlexical.begins hspaced
  rw [skip_eq_of_trimStart hstart] at hskip
  exact ⟨simple.name, c, more, hskip, hlexical.isName.isWord, hc, hfor⟩

/-! ## What is cut off -/

/-- The text that follows makes a loop header of an assignment to `for`: a brace comes, and not too
many semicolons before it. -/
def Captures (text suffix : List Char) : Prop :=
  '\x7b' ∈ suffix ∧
    Segment.isPlausible .forWord (text ++ suffix.takeWhile (· != '\x7b')) = true

theorem not_isPlausible_if {front : List Char} (h : ';' ∈ front) (rest : List Char) :
    Segment.isPlausible .ifWord (front ++ rest) = false := by
  have hcount : 0 < (front ++ rest).count ';' :=
    List.count_pos_iff.mpr (List.mem_append_left rest h)
  simp only [Segment.isPlausible, Bool.and_eq_false_iff, beq_eq_false_iff_ne]
  exact .inr (Nat.pos_iff_ne_zero.mp hcount)

theorem keyword?_for {c : Char} (hc : Grammar.isNameChar c = false) (rest : List Char) :
    Segment.keyword? ('f' :: 'o' :: 'r' :: c :: rest) = some .forWord := by
  have hword : Segment.isWordChar c = false := hc
  simp [Segment.keyword?, Segment.startsWith, Keyword.word, List.isPrefixOf?, hword]

theorem keyword?_of_assignsFor (h : simple? allowed text = .ok s)
    (hstart : Text.trimStart text = text) (hfor : s.assignsFor = true) (rest : List Char) :
    Segment.keyword? (text ++ rest) = some .forWord := by
  obtain ⟨name, c, more, rfl, -, hc, hname⟩ := begins_of_simple? h hstart
  obtain rfl := hname.mpr hfor
  exact keyword?_for hc (more ++ rest)

/-- A simple statement is cut off as it is, unless it assigns the name `for` and what follows makes
it the header of a loop. -/
theorem first_simple_iff (h : simple? allowed text = .ok s) (hstart : Text.trimStart text = text)
    {rest : List Char} (hpiece : ∀ suffix offset,
      Segment.simplePiece (text ++ suffix) offset = (.simple text offset, suffix)) (offset : Nat) :
    Segment.first (text ++ rest) offset = (.simple text offset, rest) ↔
      ¬ (s.assignsFor = true ∧ Captures text rest) := by
  have hbrace := (no_brace_of_simple? h).1
  constructor
  · rintro hfirst ⟨hfor, hmem, hplausible⟩
    obtain ⟨front, inside, rfl, hfront⟩ := List.eq_append_cons_of_mem hmem
    rw [Segment.takeWhile_ne_append hfront] at hplausible
    have hwhole : '\x7b' ∉ text ++ front := by
      rw [List.mem_append, not_or]
      exact ⟨hbrace, hfront⟩
    have hkeyword := keyword?_of_assignsFor h hstart hfor (front ++ '\x7b' :: inside)
    rw [← List.append_assoc] at hkeyword hfirst
    rw [Segment.first_of_header hwhole hkeyword hplausible] at hfirst
    cases hclose : Segment.closeBody? 0 inside <;> rw [hclose] at hfirst <;> cases hfirst
  · intro hfree
    rw [← hpiece rest offset]
    by_cases hmem : '\x7b' ∈ rest
    · refine Segment.first_of_no_header ?_ offset
      intro keyword hkeyword
      rw [Segment.takeWhile_append_of_not_mem hbrace]
      cases keyword with
      | ifWord => exact not_isPlausible_if (semicolon_mem_of_simple? h) _
      | forWord =>
          obtain ⟨name, c, more, rfl, hname, hc, hfor⟩ := begins_of_simple? h hstart
          rw [List.append_assoc, List.cons_append] at hkeyword
          have hassigns := hfor.mp (Segment.eq_for_of_keyword? hname hc hkeyword)
          rw [Bool.eq_false_iff]
          exact fun hplausible => hfree ⟨hassigns, hmem, hplausible⟩
    · refine Segment.first_of_no_brace ?_ offset
      rw [List.mem_append, not_or]
      exact ⟨hbrace, hmem⟩

/-- A simple statement goes on to its only semicolon. -/
theorem piece_of_first (h : simple? allowed text = .ok s) {whole rest : List Char}
    {offset place : Nat} (hfirst : Segment.first whole offset = (.simple text place, rest)) :
    whole = text ++ rest ∧ place = offset ∧ text.count ';' = 1 ∧ (∃ line, text = line ++ [';']) ∧
      ∀ suffix offset, Segment.simplePiece (text ++ suffix) offset =
        (.simple text offset, suffix) := by
  obtain ⟨line, rfl, hsemicolon, hfeed, hwhole, hplace⟩ := Segment.eq_append_of_simplePiece
    (Segment.simplePiece_of_first hfirst) (semicolon_mem_of_simple? h)
  refine ⟨hwhole, hplace, ?_, ⟨line, rfl⟩, ?_⟩
  · rw [List.count_append, List.count_eq_zero_of_not_mem hsemicolon]
    rfl
  · intro suffix offset
    rw [List.append_assoc, List.singleton_append, Segment.simplePiece_append hsemicolon hfeed]

end

/-! ## Texts without problems -/

/-- The pieces of a text before its blank end, with the blanks between them, and the statements that
they stand for. -/
inductive Pieces (allowed : ActionSet) (tail : List Char) :
    List Char → Nat → List Segment → List Statement → Prop
  | nil (offset : Nat) : Pieces allowed tail [] offset [] []
  | cons {gap core : List Char} {offset : Nat} {segment : Segment} {segments : List Segment}
      {s : Statement} {script : List Statement} : (∀ c ∈ gap, Text.isBlank c = true) →
      segment.Reads allowed s → Text.trimStart segment.text = segment.text →
      Segment.first (segment.text ++ (core ++ tail)) (offset + Text.size gap) =
        (segment, core ++ tail) →
      Pieces allowed tail core (offset + Text.size gap + Text.size segment.text) segments script →
      Pieces allowed tail (gap ++ (segment.text ++ core)) offset (segment :: segments)
        (s :: script)

/-- A piece is taken off the front of a text, and it ends with a visible character. -/
theorem Segment.Reads.eq_append {allowed : ActionSet} {segment : Segment} {s : Statement}
    (h : segment.Reads allowed s) {whole rest : List Char} {offset : Nat}
    (hfirst : first whole offset = (segment, rest)) :
    whole = segment.text ++ rest ∧
      ∃ front c, segment.text = front ++ [c] ∧ Text.isBlank c = false := by
  cases h with
  | simple hsimple =>
      obtain ⟨hwhole, -, -, ⟨line, hline⟩, -⟩ := piece_of_first hsimple hfirst
      exact ⟨hwhole, line, ';', hline, rfl⟩
  | block _ _ =>
      obtain ⟨hwhole, -, ⟨front, hfront⟩, -⟩ := first_eq_block hfirst
      exact ⟨hwhole, front, '\x7d', hfront, rfl⟩

theorem Segment.Reads.text_ne_nil {allowed : ActionSet} {segment : Segment} {s : Statement}
    (h : segment.Reads allowed s) {whole rest : List Char} {offset : Nat}
    (hfirst : first whole offset = (segment, rest)) : segment.text ≠ [] := by
  obtain ⟨-, front, c, hend, -⟩ := h.eq_append hfirst
  rw [hend]
  exact List.append_ne_nil_of_right_ne_nil front (List.cons_ne_nil c [])

theorem exists_pieces {allowed : ActionSet} {index : Text.LineIndex} {text : List Char}
    {offset : Nat}
    (h : problems ((Segment.split text offset).map (classify allowed index)) = []) :
    ∃ core tail, text = core ++ tail ∧ (∀ c ∈ tail, Text.isBlank c = true) ∧
      Pieces allowed tail core offset (Segment.split text offset)
        ((Segment.split text offset).map (classify allowed index)) := by
  induction text, offset using Segment.split_induction with
  | blank text offset hblank =>
      rw [Segment.split_of_blank (Text.trimStart_eq_nil_iff.mpr hblank)]
      exact ⟨[], text, rfl, hblank, .nil offset⟩
  | piece gap text rest segment offset hgap htext hne hfirst _ ih =>
      rw [Segment.split_gap hgap htext hne hfirst] at h ⊢
      rw [List.map_cons, problems_eq_nil_iff, List.forall_mem_cons] at h
      have hreads := reads_of_no_problem h.1.1 h.1.2
      obtain ⟨hwhole, -⟩ := hreads.eq_append hfirst
      have hplace : Text.size text - Text.size rest = Text.size segment.text := by
        rw [hwhole, Text.size_append, Nat.add_sub_cancel]
      obtain ⟨core, tail, rfl, htail, hpieces⟩ := ih (problems_eq_nil_iff.mpr h.2)
      rw [hplace] at hpieces ⊢
      refine ⟨gap ++ (segment.text ++ core), tail, ?_, htail, ?_⟩
      · rw [hwhole, List.append_assoc, List.append_assoc]
      · refine .cons hgap hreads ?_ (hwhole ▸ hfirst) hpieces
        -- the piece begins where the text does
        cases hpiece : segment.text with
        | nil => exact absurd hpiece (hreads.text_ne_nil hfirst)
        | cons c cs =>
            rw [hwhole, hpiece, List.cons_append] at htext
            exact Text.trimStart_of_visible (Text.isBlank_head_trimStart htext) cs

end Playscript.Script
