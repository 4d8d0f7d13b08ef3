import Playscript.Proofs.Script.Line
/-! A script that is written out, one statement a line, is recognized as the same script. -/
namespace Playscript.Script

/-! ## Simple statements -/

section
variable {allowed : ActionSet} {s : Statement}

/-- Only an assignment to the name `for` begins like the header of a loop. -/
theorem Statement.Flat.keyword?_text_ne (h : s.Flat allowed)
    (hfor : ∀ value, s ≠ .assign "for" value) (suffix : List Char) :
    Segment.keyword? (s.text.toList ++ suffix) ≠ some .forWord := by
  intro hfound
  cases h with
  | @assign name value hname hvalue =>
      rw [toList_text_assign, List.append_assoc] at hfound
      have hword := Segment.eq_for_of_keyword? (Grammar.IsName.isWord hname) rfl hfound
      have hsame : name = "for" := String.toList_inj.mp hword
      exact hfor value (by rw [hsame])
  | @act action argument _ _ _ =>
      rw [toList_text_act, List.append_assoc] at hfound
      have hname := Grammar.IsName.isWord (isName_name action)
      have hword := Segment.eq_for_of_keyword? hname rfl hfound
      exact absurd hword (by cases action <;> decide)

/-- Outside of a block, only an assignment to the name `for` is taken for something else. -/
theorem Statement.Flat.first_text (h : s.Flat allowed) (hfor : ∀ value, s ≠ .assign "for" value)
    (suffix : List Char) (offset : Nat) :
    Segment.first (s.text.toList ++ suffix) offset = (.simple s.text.toList offset, suffix) := by
  obtain ⟨line, hline, -⟩ := h.spells.ends
  have hbrace : '\x7b' ∉ line := fun hmem =>
    not_mem_of_all h.spells.chars rfl (hline ▸ List.mem_append_left [';'] hmem)
  have hkeyword := h.keyword?_text_ne hfor suffix
  have hsimple := h.spells.simplePiece_append suffix offset
  rw [hline, List.append_assoc, List.singleton_append] at hkeyword hsimple ⊢
  rw [Segment.first_of_not_for hbrace hkeyword, hsimple]

end

/-! ## Blocks -/

/-- Inside of a block, the text of each statement is cut off and recognized. -/
theorem map_split_inside {allowed : ActionSet} {body : List Statement}
    (h : ∀ s ∈ body, s.Flat allowed) (index : Text.LineIndex) (offset : Nat) :
    (Segment.split (Statement.inside body) offset).map (classifyInner allowed index) = body := by
  induction body generalizing offset with
  | nil =>
      rw [Statement.inside, Segment.split_blank rfl, Segment.split_nil, List.map_nil]
  | cons s rest ih =>
      have hs := h s (by simp)
      have hrest : ∀ t ∈ rest, t.Flat allowed := fun t ht => h t (by simp [ht])
      have hbrace : '\x7b' ∉ Statement.inside rest :=
        not_mem_of_all (Statement.all_inside hrest) rfl
      rw [Statement.inside, Segment.split_blank rfl, hs.spells.split_append hbrace, List.map_cons,
        ih hrest]
      simp only [classifyInner, hs.spells.statement]

/-- A header as it stands before the brace of its block. -/
structure IsHeader (keyword : Keyword) (header : List Char) : Prop where
  chars : header.all isPlainChar = true
  begins : ∀ rest, Segment.keyword? (header ++ ' ' :: rest) = some keyword
  accepted : Segment.isPlausible keyword (header ++ [' ']) = true
  trim : Text.trim (header ++ [' ']) = header

theorem isHeader_ifHeader {condition : List Char} (h : Grammar.IsName condition) :
    IsHeader .ifWord (Grammar.ifHeader condition) := by
  have hchars := all_ifHeader h
  have hsemicolon : condition.count ';' = 0 :=
    List.count_eq_zero_of_not_mem (h.isWord.not_mem rfl)
  refine ⟨hchars, fun _ => rfl, ?_, ?_⟩
  · have hclose : '\x7d' ∉ Grammar.ifHeader condition := not_mem_of_all hchars rfl
    have hcount : (Grammar.ifHeader condition).count ';' = 0 := by
      simp [Grammar.ifHeader, hsemicolon]
    simp [Segment.isPlausible, hclose, hcount]
  · exact Text.trim_padded ('f' :: ' ' :: '(' :: condition) rfl rfl

theorem isHeader_forHeader {counter first stop : List Char} (hcounter : Grammar.IsName counter)
    (hfirst : Grammar.IsNumeral first) (hstop : Grammar.IsNumeral stop) :
    IsHeader .forWord (Grammar.forHeader counter first stop) := by
  have hchars := all_forHeader hcounter hfirst hstop
  have h0 {word : List Char} (hword : Grammar.IsWord word) : word.count ';' = 0 :=
    List.count_eq_zero_of_not_mem (hword.not_mem rfl)
  refine ⟨hchars, fun _ => rfl, ?_, ?_⟩
  · have hclose : '\x7d' ∉ Grammar.forHeader counter first stop := not_mem_of_all hchars rfl
    have hcount : (Grammar.forHeader counter first stop).count ';' = 2 := by
      simp [Grammar.forHeader, h0 hcounter.isWord, h0 hfirst.isWord, h0 hstop.isWord]
    simp [Segment.isPlausible, hclose, hcount]
  · rw [Grammar.forHeader_eq]
    exact Text.trim_padded _ rfl rfl

theorem IsHeader.first_append {keyword : Keyword} {header : List Char} (h : IsHeader keyword header)
    {allowed : ActionSet} {body : List Statement} (hbody : ∀ s ∈ body, s.Flat allowed)
    (suffix : List Char) (offset : Nat) : ∃ place text,
    Segment.first ((header ++ [' ']) ++
        '\x7b' :: (Statement.inside body ++ ['\x7d']) ++ suffix) offset =
      (.block keyword header (Statement.inside body) place text offset, suffix) := by
  have hall := Statement.all_inside hbody
  have hbrace : '\x7b' ∉ header ++ [' '] := by
    rw [List.mem_append, not_or]
    exact ⟨not_mem_of_all h.chars rfl, by decide⟩
  have hkeyword : Segment.keyword? ((header ++ [' ']) ++
      '\x7b' :: (Statement.inside body ++ '\x7d' :: suffix)) = some keyword := by
    rw [List.append_assoc]
    exact h.begins _
  have hfirst := Segment.first_block hbrace (not_mem_of_all hall rfl) (not_mem_of_all hall rfl)
    h.accepted hkeyword offset
  rw [h.trim] at hfirst
  have htext : (header ++ [' ']) ++ '\x7b' :: (Statement.inside body ++ ['\x7d']) ++ suffix =
      (header ++ [' ']) ++ '\x7b' :: (Statement.inside body ++ '\x7d' :: suffix) := by
    simp only [List.append_assoc, List.cons_append, List.nil_append]
  rw [htext]
  exact ⟨_, _, hfirst⟩

/-! ## Scripts -/

/-- Wherever the text of a statement stands, it is cut off as one segment, and the segment is
recognized as the statement. -/
theorem Statement.Regular.first_text {allowed : ActionSet} {s : Statement} (h : s.Regular allowed)
    (suffix : List Char) (offset : Nat) :
    ∃ segment, Segment.first (s.text.toList ++ suffix) offset = (segment, suffix) ∧
      ∀ index, classify allowed index segment = s := by
  cases h with
  | flat hflat hfor =>
      refine ⟨.simple s.text.toList offset, hflat.first_text hfor suffix offset, ?_⟩
      intro index
      simp only [classify, classifyInner, hflat.spells.statement]
  | @branch condition body hcondition hbody =>
      obtain ⟨place, text, hblock⟩ :=
        (isHeader_ifHeader hcondition).first_append hbody suffix offset
      rw [toList_text_branch]
      refine ⟨_, hblock, ?_⟩
      intro index
      simp only [classify, condition?_ifHeader hcondition, map_split_inside hbody]
  | @loop counter first stop body hcounter hfirst hle hlength hbody =>
      have hfrom := isNumeral_toString hfirst
      have huntil := isNumeral_toString (Int64.le_trans hfirst hle)
      obtain ⟨place, text, hblock⟩ :=
        (isHeader_forHeader hcounter hfrom huntil).first_append hbody suffix offset
      have htokens := Grammar.forHeader?_forHeader hcounter hfrom huntil
      have hrange := loopRange?_tokens hcounter hfirst hle hlength
      rw [toList_text_loop]
      refine ⟨_, hblock, ?_⟩
      intro index
      simp only [classify, htokens, hrange, map_split_inside hbody]

theorem isCode_of_plain {text : List Char} (hne : text ≠ [])
    (h : ∀ c ∈ text, isPlainChar c = true ∨ c = '\x7b' ∨ c = '\x7d') : IsCode text := by
  constructor
  · exact hne
  · intro hmem
    rcases h _ hmem with h | h | h <;> cases h
  · intro hmem
    rcases h _ hmem with h | h | h <;> cases h
  · intro hmem
    rcases h _ hmem with h | h | h <;> cases h

theorem IsHeader.isCode {keyword : Keyword} {header : List Char} (h : IsHeader keyword header)
    {allowed : ActionSet} {body : List Statement} (hbody : ∀ s ∈ body, s.Flat allowed) :
    IsCode ((header ++ [' ']) ++ '\x7b' :: (Statement.inside body ++ ['\x7d'])) := by
  have hheader := List.all_eq_true.mp h.chars
  have hinside := List.all_eq_true.mp (Statement.all_inside hbody)
  apply isCode_of_plain
  · exact List.append_ne_nil_of_right_ne_nil _ (List.cons_ne_nil _ _)
  · intro c hc
    simp only [List.mem_append, List.mem_cons, List.not_mem_nil, or_false] at hc
    rcases hc with (hc | rfl) | rfl | hc | rfl
    · exact .inl (hheader c hc)
    · exact .inl rfl
    · exact .inr (.inl rfl)
    · exact .inl (hinside c hc)
    · exact .inr (.inr rfl)

theorem Statement.Regular.isCode {allowed : ActionSet} {s : Statement} (h : s.Regular allowed) :
    IsCode s.text.toList := by
  cases h with
  | flat hflat _ =>
      exact isCode_of_plain hflat.spells.ne_nil fun c hc =>
        .inl (List.all_eq_true.mp hflat.spells.chars c hc)
  | branch hcondition hbody =>
      rw [toList_text_branch]
      exact (isHeader_ifHeader hcondition).isCode hbody
  | loop hcounter hfirst hle _ hbody =>
      rw [toList_text_loop]
      exact (isHeader_forHeader hcounter (isNumeral_toString hfirst)
        (isNumeral_toString (Int64.le_trans hfirst hle))).isCode hbody

theorem Statement.Regular.trimStart_text {allowed : ActionSet} {s : Statement}
    (h : s.Regular allowed) (suffix : List Char) :
    Text.trimStart (s.text.toList ++ suffix) = s.text.toList ++ suffix := by
  cases h with
  | flat hflat _ => exact Segment.trimStart_append hflat.spells.starts hflat.spells.ne_nil suffix
  | branch _ _ =>
      rw [toList_text_branch]
      rfl
  | loop _ _ _ _ _ =>
      rw [toList_text_loop]
      rfl

theorem Statement.Regular.map_split_append {allowed : ActionSet} {s : Statement}
    (h : s.Regular allowed) (index : Text.LineIndex)
    (suffix : List Char) (offset : Nat) : ∃ next,
    (Segment.split (s.text.toList ++ suffix) offset).map (classify allowed index) =
      s :: (Segment.split suffix next).map (classify allowed index) := by
  obtain ⟨segment, hfirst, hclassify⟩ := h.first_text suffix offset
  have hne : s.text.toList ++ suffix ≠ [] :=
    List.append_ne_nil_of_left_ne_nil h.isCode.nonempty suffix
  rw [Segment.split_first (h.trimStart_text suffix) hne hfirst, List.map_cons, hclassify index]
  exact ⟨_, rfl⟩

theorem map_split_unlines {allowed : ActionSet} {script : List Statement}
    (h : ∀ s ∈ script, s.Regular allowed) (index : Text.LineIndex) (offset : Nat) :
    (Segment.split (Text.unlines (script.map (·.text.toList))) offset).map
      (classify allowed index) = script := by
  induction script generalizing offset with
  | nil =>
      rw [List.map_nil, Text.unlines, List.intercalate_nil, Segment.split_nil,
        List.map_nil]
  | cons s rest ih =>
      have hs := h s (by simp)
      have hrest := ih fun t ht => h t (by simp [ht])
      -- a line feed stands after every statement but the last
      cases rest with
      | nil =>
          obtain ⟨next, hnext⟩ := hs.map_split_append index [] offset
          rw [List.append_nil, Segment.split_nil, List.map_nil] at hnext
          rw [List.map_singleton, Text.unlines, List.intercalate_singleton, hnext]
      | cons t rest =>
          have hjoin : Text.unlines ((s :: t :: rest).map (·.text.toList)) =
              s.text.toList ++ '\n' :: Text.unlines ((t :: rest).map (·.text.toList)) :=
            unlines_cons _ (List.cons_ne_nil _ _)
          obtain ⟨next, hnext⟩ := hs.map_split_append index
            ('\n' :: Text.unlines ((t :: rest).map (·.text.toList))) offset
          rw [hjoin, hnext, Segment.split_feed, hrest]

/-- A script that is written with one statement a line is recognized as it was, for every set of
actions that holds the actions it calls. -/
theorem recognize_text {allowed : ActionSet} {script : List Statement}
    (h : ∀ s ∈ script, s.Regular allowed) :
    recognize ("\n".intercalate (script.map Statement.text)) allowed = script := by
  have hlines : ∀ line ∈ script.map (·.text.toList), IsCode line := by
    intro line hline
    obtain ⟨s, hs, rfl⟩ := List.mem_map.mp hline
    exact (h s hs).isCode
  have htext : ("\n".intercalate (script.map Statement.text)).toList =
      Text.unlines (script.map (·.text.toList)) := by
    rw [String.toList_intercalate, List.map_map]
    rfl
  rw [recognize, htext, stripComments_unlines hlines, map_split_unlines h]

/-- A script with the words of the grammar as names, and with the largest number. -/
def wordsAsNames : List Statement :=
  [.assign "if" 5, .branch "true" [], .loop "int" 3 3 [],
    .loop "for" 0 100 [.assign "for" 9223372036854775807, .act .setSpeed (some (.named "if"))]]

theorem recognize_text_wordsAsNames :
    (∀ s ∈ wordsAsNames, s.Regular (.ofList [.setSpeed])) ∧
      recognize ("\n".intercalate (wordsAsNames.map Statement.text)) (.ofList [.setSpeed]) =
        wordsAsNames := by
  have hregular : ∀ s ∈ wordsAsNames, s.Regular (.ofList [.setSpeed]) := by
    simp only [wordsAsNames, List.forall_mem_cons]
    refine ⟨.flat (.assign (by decide) (by decide)) (by simp),
      .branch (by decide) (List.forall_mem_nil _),
      .loop (by decide) (by decide) (by decide) (by decide) (List.forall_mem_nil _),
      .loop (by decide) (by decide) (by decide) (by decide) ?_, List.forall_mem_nil _⟩
    simp only [List.forall_mem_cons]
    exact ⟨.assign (by decide) (by decide), .act (by decide) rfl (by decide),
      List.forall_mem_nil _⟩
  exact ⟨hregular, recognize_text hregular⟩

end Playscript.Script
