import Playscript.Proofs.Script.Rendering
/-! The statements that recognition yields. Whatever the source text, blocks stand at the top level
only, a call has a value exactly when its action takes one, and a loop is within the limit. -/
namespace Playscript.Script

/-- The statements that stand inside a block of a recognized script. -/
inductive Statement.Inner (allowed : ActionSet) : Statement → Prop
  | flat {s : Statement} : s.Flat allowed → Inner allowed s
  | unrecognized (text : String) (line : Nat) (reason : String) :
      Inner allowed (.unrecognized text line reason)

/-- The statements of a recognized script. -/
inductive Statement.Outer (allowed : ActionSet) : Statement → Prop
  | inner {s : Statement} : s.Inner allowed → Outer allowed s
  | branch {condition : String} {body : List Statement} : IsName condition →
      (∀ s ∈ body, s.Inner allowed) → Outer allowed (.branch condition body)
  | loop {counter : String} {first stop : Int64} {body : List Statement} : IsName counter →
      0 ≤ first → first ≤ stop → stop.toInt - first.toInt ≤ maxIterations.toInt →
      (∀ s ∈ body, s.Inner allowed) → Outer allowed (.loop counter first stop body)
  | malformedLoop (header : String) (line : Nat) (reason : String) :
      Outer allowed (.malformedLoop header line reason)

/-! ## Simple statements -/

theorem Argument.Writes.isPlain {argument : Option Argument} {tokens : List (List Char)}
    (h : Argument.Writes argument tokens) : ∀ a ∈ argument, a.IsPlain := by
  rintro a ⟨⟩
  cases h with
  | named hname => exact hname
  | literal hdigits => exact hdigits.nonneg

theorem flat_of_simple? {allowed : ActionSet} {text : List Char} {s : Statement}
    (h : simple? allowed text = .ok s) : s.Flat allowed := by
  rcases simple?_cases h with ⟨name, value, rfl⟩ | ⟨action, argument, rfl⟩
  · obtain ⟨digits, hname, hdigits, -⟩ := simple?_assign_iff.mp h
    exact .assign hname hdigits.nonneg
  · obtain ⟨hallowed, harity, inside, hwrites, -⟩ := simple?_act_iff.mp h
    exact .act hallowed harity hwrites.isPlain

theorem inner_classifyInner (allowed : ActionSet) (index : Text.LineIndex) (segment : Segment) :
    (classifyInner allowed index segment).Inner allowed := by
  unfold classifyInner
  split
  · split
    · rename_i hsimple
      exact .flat (flat_of_simple? hsimple)
    · exact .unrecognized _ _ _
  · exact .unrecognized _ _ _
  · exact .unrecognized _ _ _

/-! ## Blocks -/

theorem outer_classify (allowed : ActionSet) (index : Text.LineIndex) (segment : Segment) :
    (classify allowed index segment).Outer allowed := by
  have hbody : ∀ (body : List Char) (offset : Nat),
      ∀ s ∈ (Segment.split body offset).map (classifyInner allowed index), s.Inner allowed := by
    intro body offset s hs
    obtain ⟨inside, -, rfl⟩ := List.mem_map.mp hs
    exact inner_classifyInner allowed index inside
  unfold classify
  split
  · rename_i keyword header body bodyOffset text offset
    cases keyword with
    | ifWord =>
        dsimp only
        split
        · rename_i condition hcondition
          unfold condition? at hcondition
          split at hcondition
          · cases hcondition
          · rename_i hheader
            cases hcondition
            refine .branch ?_ (hbody body bodyOffset)
            rw [IsName, String.toList_ofList]
            exact (Grammar.ifHeader?_eq_some_iff.mp hheader).1
        · exact .inner (.unrecognized _ _ _)
    | forWord =>
        dsimp only
        split
        · exact .inner (.unrecognized _ _ _)
        · rename_i tokens hheader
          split
          · rename_i range hrange
            have hlexical := (Grammar.forHeader?_eq_some_iff.mp hheader).1
            have hcounts := (loopRange?_eq_ok_iff hlexical).mp hrange
            refine .loop ?_ hcounts.first.nonneg hcounts.forward hcounts.short
              (hbody body bodyOffset)
            rw [IsName, ← hcounts.declared]
            exact hlexical.declared
          · exact .malformedLoop _ _ _
  · exact .inner (inner_classifyInner allowed index _)

/-- Whatever the source text, the recognizer yields statements of these shapes. -/
theorem outer_of_mem_recognize {source : String} {allowed : ActionSet} {s : Statement}
    (h : s ∈ recognize source allowed) : s.Outer allowed := by
  obtain ⟨segment, -, rfl⟩ := List.mem_map.mp h
  exact outer_classify allowed (.of (stripComments source.toList)) segment

end Playscript.Script
