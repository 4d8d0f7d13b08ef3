import Playscript.Proofs.Script.Locality
import Playscript.Proofs.Script.Pieces
/-! A script that goes on. Whatever stands on the lines after a correct script, its statements stay
what they are, and what comes after is recognized as on its own; the one exception is a script whose
end assigns the name `for`. -/
namespace Playscript.Script

/-- Whether one of the last two statements assigns the name `for` and no block comes after it. A
brace that follows then makes it the header of a loop, which has up to two semicolons. -/
def isExposed : List Statement → Bool
  | [] => false
  | s :: rest =>
      (s.assignsFor && decide (rest.length ≤ 1) && rest.all fun t => !t.isBlock) || isExposed rest

theorem isExposed_cons {s : Statement} {rest : List Statement} :
    isExposed (s :: rest) = true ↔
      (s.assignsFor = true ∧ rest.length ≤ 1 ∧ ∀ t ∈ rest, t.isBlock = false) ∨
        isExposed rest = true := by
  simp only [isExposed, Bool.or_eq_true, Bool.and_eq_true, decide_eq_true_eq, List.all_eq_true,
    Bool.not_eq_true', and_assoc]

section
variable {allowed : ActionSet} {core tail : List Char} {offset : Nat} {segments : List Segment}
  {script : List Statement}

/-! ## The characters of the pieces -/

/-- Without blocks there is no brace, and one semicolon for each statement. -/
theorem Pieces.plain (h : Pieces allowed tail core offset segments script)
    (hplain : ∀ t ∈ script, t.isBlock = false) :
    '\x7b' ∉ core ∧ '\x7d' ∉ core ∧ core.count ';' = script.length := by
  induction h with
  | nil => exact ⟨List.not_mem_nil, List.not_mem_nil, rfl⟩
  | @cons gap core offset segment segments s script hgap hreads _ hfirst _ ih =>
      obtain ⟨hs, hscript⟩ := List.forall_mem_cons.mp hplain
      obtain ⟨hopen, hclose, hcount⟩ := ih hscript
      cases hreads with
      | block hblock _ =>
          rw [hblock] at hs
          cases hs
      | simple hsimple =>
          obtain ⟨-, -, hone, -⟩ := piece_of_first hsimple hfirst
          obtain ⟨hnoOpen, hnoClose⟩ := no_brace_of_simple? hsimple
          have hnone := List.count_eq_zero_of_not_mem (Grammar.not_mem_of_class hgap (c := ';') rfl)
          simp only [Segment.text] at *
          simp only [List.mem_append, not_or, List.count_append, hone, hcount, hnone,
            List.length_cons]
          exact ⟨⟨Grammar.not_mem_of_class hgap rfl, hnoOpen, hopen⟩,
            ⟨Grammar.not_mem_of_class hgap rfl, hnoClose, hclose⟩, by omega⟩

theorem Pieces.brace_mem (h : Pieces allowed tail core offset segments script) {t : Statement}
    (ht : t ∈ script) (hblock : t.isBlock = true) : '\x7b' ∈ core := by
  induction h with
  | nil => cases ht
  | @cons gap core offset segment segments s script _ hreads _ hfirst _ ih =>
      rw [List.mem_append, List.mem_append]
      rcases List.mem_cons.mp ht with rfl | hlater
      · cases hreads with
        | block _ _ => exact .inr (.inl (Segment.first_eq_block hfirst).2.1)
        | simple hsimple =>
            cases flat_of_simple? hsimple <;> cases hblock
      · exact .inr (.inr (ih hlater))

/-! ## What follows -/

/-- A brace within a script stays the next brace. -/
theorem captures_of_brace_mem {text : List Char} (h : '\x7b' ∈ core) {suffix : List Char}
    (hcaptures : Captures text (core ++ suffix)) (suffix' : List Char) :
    Captures text (core ++ suffix') := by
  obtain ⟨front, inside, rfl, hfront⟩ := List.eq_append_cons_of_mem h
  refine ⟨List.mem_append_left suffix' h, ?_⟩
  have hplausible := hcaptures.2
  rw [List.append_assoc, List.cons_append, Segment.takeWhile_ne_append hfront] at hplausible ⊢
  exact hplausible

/-- An assignment to `for` that a continuation captures is followed by one statement at most and by
no block. -/
theorem Pieces.plain_of_captures (h : Pieces allowed tail core offset segments script)
    {text : List Char} {s : Statement} (hsimple : simple? allowed text = .ok s)
    (hstart : Text.trimStart text = text) (hfor : s.assignsFor = true) {place : Nat}
    (hfirst : Segment.first (text ++ (core ++ tail)) place = (.simple text place, core ++ tail))
    {suffix : List Char} (hthen : Captures text (core ++ suffix)) :
    '\x7b' ∉ core ∧ script.length ≤ 1 ∧ ∀ t ∈ script, t.isBlock = false := by
  obtain ⟨-, -, hone, -, hpiece⟩ := piece_of_first hsimple hfirst
  have hnow : ¬ Captures text (core ++ tail) := fun hnow =>
    (first_simple_iff hsimple hstart hpiece place).mp hfirst ⟨hfor, hnow⟩
  have hbrace : '\x7b' ∉ core := fun hmem => hnow (captures_of_brace_mem hmem hthen tail)
  have hplain : ∀ t ∈ script, t.isBlock = false := by
    intro t ht
    rw [Bool.eq_false_iff]
    exact fun hblock => hbrace (h.brace_mem ht hblock)
  obtain ⟨-, -, hcount⟩ := h.plain hplain
  have hplausible := hthen.2
  rw [Segment.takeWhile_append_of_not_mem hbrace] at hplausible
  simp only [Segment.isPlausible, Bool.and_eq_true, decide_eq_true_eq, List.count_append, hone,
    hcount] at hplausible
  exact ⟨hbrace, by omega, hplain⟩

/-- A brace after at most one statement that is no block is captured. -/
theorem Pieces.captures_brace (h : Pieces allowed tail core offset segments script)
    (hlength : script.length ≤ 1) (hplain : ∀ t ∈ script, t.isBlock = false) {text : List Char}
    (hone : text.count ';' = 1) (hclose : '\x7d' ∉ text) {blanks : List Char}
    (hblanks : ∀ c ∈ blanks, Text.isBlank c = true) :
    Captures text (core ++ (blanks ++ ['\x7b'])) := by
  obtain ⟨hnoOpen, hnoClose, hcount⟩ := h.plain hplain
  have hbetween : '\x7b' ∉ core ++ blanks := by
    rw [List.mem_append, not_or]
    exact ⟨hnoOpen, Grammar.not_mem_of_class hblanks rfl⟩
  have hheader : '\x7d' ∉ text ++ (core ++ blanks) := by
    simp only [List.mem_append, not_or]
    exact ⟨hclose, hnoClose, Grammar.not_mem_of_class hblanks rfl⟩
  have hnone := List.count_eq_zero_of_not_mem (Grammar.not_mem_of_class hblanks (c := ';') rfl)
  rw [← List.append_assoc]
  refine ⟨List.mem_append_right _ (List.mem_singleton_self _), ?_⟩
  rw [Segment.takeWhile_ne_append hbetween]
  simp only [Segment.isPlausible, List.contains_eq_mem, hheader, decide_false, Bool.not_false,
    Bool.true_and, decide_eq_true_eq, List.count_append, hone, hcount, hnone]
  omega

/-- The pieces of a script that is not exposed are cut off as they are, whatever follows. -/
theorem Pieces.split_append (h : Pieces allowed tail core offset segments script)
    (hsafe : ¬ isExposed script = true) (suffix : List Char) :
    Segment.split (core ++ suffix) offset =
      segments ++ Segment.split suffix (offset + Text.size core) := by
  induction h with
  | nil => rfl
  | @cons gap core offset segment segments s script hgap hreads hstart hfirst hpieces ih =>
      rw [isExposed_cons, not_or] at hsafe
      have hcut : Segment.first (segment.text ++ (core ++ suffix)) (offset + Text.size gap) =
          (segment, core ++ suffix) := by
        cases hreads with
        | block _ _ => exact (Segment.first_eq_block hfirst).2.2.2 _
        | simple hsimple =>
            obtain ⟨-, rfl, -, -, hpiece⟩ := piece_of_first hsimple hfirst
            refine (first_simple_iff hsimple hstart hpiece _).mpr ?_
            rintro ⟨hfor, hthen⟩
            exact hsafe.1
              ⟨hfor, (hpieces.plain_of_captures hsimple hstart hfor hfirst hthen).2⟩
      rw [List.append_assoc, List.append_assoc,
        Segment.split_whole_piece hgap hstart (hreads.text_ne_nil hfirst) hcut, ih hsafe.2,
        List.cons_append]
      simp only [Text.size_append, Nat.add_assoc]

/-- The end of a script together with a brace is one segment, from the assignment to `for` on. -/
theorem length_split_captured {text : List Char} {s : Statement}
    (hsimple : simple? allowed text = .ok s) (hstart : Text.trimStart text = text)
    (hfor : s.assignsFor = true) {gap between : List Char}
    (hgap : ∀ c ∈ gap, Text.isBlank c = true) (hbetween : '\x7b' ∉ between)
    (hcaptures : Captures text (between ++ ['\x7b'])) (offset : Nat) :
    (Segment.split (gap ++ (text ++ (between ++ ['\x7b']))) offset).length = 1 := by
  have hplausible := hcaptures.2
  rw [Segment.takeWhile_ne_append hbetween] at hplausible
  have hheader : '\x7b' ∉ text ++ between := by
    rw [List.mem_append, not_or]
    exact ⟨(no_brace_of_simple? hsimple).1, hbetween⟩
  have hkeyword := keyword?_of_assignsFor hsimple hstart hfor (between ++ ['\x7b'])
  rw [← List.append_assoc] at hkeyword
  have hfirst := Segment.first_of_header hheader hkeyword hplausible (offset + Text.size gap)
  rw [List.append_assoc] at hfirst
  have hne : text ≠ [] := List.ne_nil_of_mem (semicolon_mem_of_simple? hsimple)
  rw [Segment.split_piece hgap hstart hne hfirst, Segment.split_nil]
  rfl

/-- A brace after the end of an exposed script leaves no more segments than there were without
it. -/
theorem Pieces.length_split_brace (h : Pieces allowed tail core offset segments script)
    (hexposed : isExposed script = true) {blanks : List Char}
    (hblanks : ∀ c ∈ blanks, Text.isBlank c = true) :
    (Segment.split (core ++ (blanks ++ ['\x7b'])) offset).length ≤ segments.length := by
  induction h with
  | nil => cases hexposed
  | @cons gap core offset segment segments s script hgap hreads hstart hfirst hpieces ih =>
      have hne := hreads.text_ne_nil hfirst
      rw [List.append_assoc, List.append_assoc]
      by_cases hcut : Segment.first (segment.text ++ (core ++ (blanks ++ ['\x7b'])))
          (offset + Text.size gap) = (segment, core ++ (blanks ++ ['\x7b']))
      · -- the piece stands as it is, and a later one is captured
        have hlater : isExposed script = true := by
          rcases isExposed_cons.mp hexposed with ⟨hfor, hlength, hplain⟩ | hlater
          · cases hreads with
            | block hblock _ =>
                rw [Statement.isBlock_of_assignsFor hfor] at hblock
                cases hblock
            | simple hsimple =>
                obtain ⟨-, rfl, hone, -, hpiece⟩ := piece_of_first hsimple hfirst
                have hcaptures := hpieces.captures_brace hlength hplain hone
                  (no_brace_of_simple? hsimple).2 hblanks
                exact absurd ⟨hfor, hcaptures⟩ ((first_simple_iff hsimple hstart hpiece _).mp hcut)
          · exact hlater
        rw [Segment.split_whole_piece hgap hstart hne hcut, List.length_cons, List.length_cons]
        exact Nat.succ_le_succ (ih hlater)
      · cases hreads with
        | block _ _ => exact absurd ((Segment.first_eq_block hfirst).2.2.2 _) hcut
        | simple hsimple =>
            obtain ⟨-, rfl, -, -, hpiece⟩ := piece_of_first hsimple hfirst
            obtain ⟨hfor, hcaptures⟩ :=
              not_not.mp ((not_congr (first_simple_iff hsimple hstart hpiece _)).mp hcut)
            have hbrace := (hpieces.plain_of_captures hsimple hstart hfor hfirst hcaptures).1
            have hbetween : '\x7b' ∉ core ++ blanks := by
              rw [List.mem_append, not_or]
              exact ⟨hbrace, Grammar.not_mem_of_class hblanks rfl⟩
            rw [← List.append_assoc] at hcaptures
            have hcaptured :=
              length_split_captured hsimple hstart hfor hgap hbetween hcaptures offset
            rw [List.append_assoc] at hcaptured
            exact hcaptured ▸ Nat.succ_le_succ (Nat.zero_le _)

end

/-! ## Scripts -/

/-- A correct script in pieces, with a line feed after it. -/
theorem exists_pieces_feed {source : String} {allowed : ActionSet}
    (h : problems (recognize source allowed) = []) : ∃ core blanks,
    stripComments (source.toList ++ ['\n']) = core ++ blanks ∧
      (∀ c ∈ blanks, Text.isBlank c = true) ∧
      Pieces allowed blanks core 0 (Segment.split (core ++ blanks) 0) (recognize source allowed) := by
  rw [← map_classify_feed] at h ⊢
  obtain ⟨core, blanks, htext, hblanks, hpieces⟩ := exists_pieces h
  refine ⟨core, blanks, htext, hblanks, ?_⟩
  rwa [← htext]

/-- The statements of a correct script that is not exposed, and those of what follows. -/
theorem recognize_append {a : String} {allowed : ActionSet}
    (hsound : problems (recognize a allowed) = [])
    (hsafe : ¬ isExposed (recognize a allowed) = true) (b : String) :
    recognize (a ++ "\n" ++ b) allowed =
      recognize a allowed ++
        (recognize b allowed).map (Statement.raise (a.toList.count '\n' + 1)) := by
  obtain ⟨core, blanks, hfeed, hblanks, hpieces⟩ := exists_pieces_feed hsound
  apply recognize_append_of_split hfeed
  intro suffix
  rw [List.append_assoc, hpieces.split_append hsafe, Segment.split_blanks hblanks,
    Segment.split_feed, Text.size_append, Nat.zero_add]

/-- A correct script keeps its meaning whatever is written on the lines after it, if and only if
none of its last two statements assigns the name `for` after the last block. -/
theorem recognize_append_iff {a : String} {allowed : ActionSet}
    (hsound : problems (recognize a allowed) = []) :
    (∀ b : String, recognize (a ++ "\n" ++ b) allowed =
      recognize a allowed ++
        (recognize b allowed).map (Statement.raise (a.toList.count '\n' + 1))) ↔
      isExposed (recognize a allowed) = false := by
  rw [← Bool.not_eq_true]
  constructor
  · intro hall hexposed
    obtain ⟨core, blanks, hfeed, hblanks, hpieces⟩ := exists_pieces_feed hsound
    have hends : ∀ c ∈ blanks ++ ['\n'], Text.isBlank c = true := by
      intro c hc
      rcases List.mem_append.mp hc with hc | hc
      · exact hblanks c hc
      · exact List.mem_singleton.mp hc ▸ rfl
    have hne : "\x7b".toList ≠ [] := by decide
    have hbrace : stripComments "\x7b".toList = ['\x7b'] := stripComments_last hne (by decide)
    have htext : stripComments (a ++ "\n" ++ "\x7b").toList =
        core ++ ((blanks ++ ['\n']) ++ ['\x7b']) := by
      rw [toList_append_feed, stripComments_append_feed _ hne, hfeed, hbrace]
      simp only [List.append_assoc, List.singleton_append]
    have hfew := hpieces.length_split_brace hexposed hends
    have hone : recognize "\x7b" allowed ≠ [] := by
      rw [recognize, hbrace, Segment.split_of_trimStart rfl, List.map_cons]
      exact List.cons_ne_nil _ _
    have hlength := congrArg List.length (hall "\x7b")
    rw [recognize, htext, List.length_map, List.length_append, List.length_map] at hlength
    have hsame : (recognize a allowed).length = (Segment.split (core ++ blanks) 0).length := by
      rw [← map_classify_feed, List.length_map, hfeed]
    have hpositive := List.length_pos_iff.mpr hone
    omega
  · intro hsafe b
    exact recognize_append hsound hsafe b

set_option maxRecDepth 6000 in
/-- With two more statements after it, an assignment to `for` is out of reach of a brace. -/
theorem recognize_append_iff_threeAssignments :
    problems (recognize "for = 1; // note\nif = 2;\r\nx = 3;\n" .full) = [] ∧
      isExposed (recognize "for = 1; // note\nif = 2;\r\nx = 3;\n" .full) = false ∧
      ∀ b : String, recognize ("for = 1; // note\nif = 2;\r\nx = 3;\n" ++ "\n" ++ b) .full =
        recognize "for = 1; // note\nif = 2;\r\nx = 3;\n" .full ++
          (recognize b .full).map (Statement.raise 4) := by
  have hsound : problems (recognize "for = 1; // note\nif = 2;\r\nx = 3;\n" .full) = [] := by
    cbv
  have hsafe : isExposed (recognize "for = 1; // note\nif = 2;\r\nx = 3;\n" .full) = false := by
    cbv
  exact ⟨hsound, hsafe, (recognize_append_iff hsound).mpr hsafe⟩

set_option maxRecDepth 6000 in
/-- An assignment to `for` is taken for the header of the conditional on the next line: one
statement is left of the two. -/
theorem recognize_append_captured :
    problems (recognize "for = 5;" .full) = [] ∧
      recognize ("for = 5;" ++ "\n" ++ "if (enemyNear) \x7b\n  moveBack();\n\x7d") .full ≠
        recognize "for = 5;" .full ++
          (recognize "if (enemyNear) \x7b\n  moveBack();\n\x7d" .full).map
            (Statement.raise ("for = 5;".toList.count '\n' + 1)) := by
  refine ⟨by cbv, fun heq => ?_⟩
  have hlength := congrArg List.length heq
  simp only [recognize, List.length_append, List.length_map] at hlength
  have hjoined : (Segment.split (stripComments ("for = 5;" ++ "\n" ++
      "if (enemyNear) \x7b\n  moveBack();\n\x7d").toList) 0).length = 1 := by cbv
  have hfirst : (Segment.split (stripComments "for = 5;".toList) 0).length = 1 := by cbv
  have hsecond : (Segment.split (stripComments
      "if (enemyNear) \x7b\n  moveBack();\n\x7d".toList) 0).length = 1 := by cbv
  omega

end Playscript.Script
