import Playscript.Proofs.Script.Coverage
import Playscript.Proofs.Script.Shape
/-! What stands inside of blocks. The body of a block is balanced, so a header in it always has the
brace that closes it: a block that is never closed can stand at the top level only. -/
namespace Playscript.Script

/-! ## Segments of a body -/

namespace Segment

/-- A header that is cut off without a body leaves a brace open. -/
theorem Cut.not_closes {offset place : Nat} {text piece rest : List Char}
    (h : Cut offset text (.unterminated piece place) rest) : ¬ Closes text := by
  cases h with
  | @unterminated header rest hheader hnever =>
      intro hcloses
      have hback := hcloses ('\x7b' :: rest) (List.suffix_append header _)
      have hless := count_le_of_closeBody?_eq_none hnever
      rw [List.count_cons_self, List.count_cons_of_ne (by decide)] at hback
      omega

/-- Where no brace is left open, every block is closed. -/
theorem not_unterminated_of_closes {text : List Char} (h : Closes text) {offset place : Nat}
    {piece : List Char} : .unterminated piece place ∉ split text offset := by
  intro hmem
  obtain ⟨start, back, rest, hback, hcut⟩ := (covers_split text offset).cut hmem
  exact hcut.not_closes (h.suffix hback)

/-- A block has a body that leaves no brace open. -/
theorem closes_of_block {text header body piece : List Char} {keyword : Keyword}
    {offset bodyOffset place : Nat}
    (h : .block keyword header body bodyOffset piece place ∈ split text offset) : Closes body := by
  obtain ⟨start, back, rest, -, hcut⟩ := (covers_split text offset).cut h
  cases hcut with
  | block _ _ hbody => exact hbody.closes

end Segment

/-! ## Reasons -/

/-- Of all reasons, only that of a block without an end is told in these words. -/
theorem Reason.eq_unterminated_of_message {reason : Reason}
    (h : reason.message = Reason.unterminated.message) : reason = .unterminated := by
  -- the other messages have a mark in them, or differ as they are
  have hplain : ∀ mark ∈ [':', '(', '\''], mark ∉ reason.message.toList := by
    rw [h]
    simp [Reason.message]
  cases reason with
  | unterminated => rfl
  | nested => exact absurd h (by decide)
  | form message =>
      refine absurd ?_ (hplain ':' (by decide))
      simp [Reason.message]
  | unknownAction name | tooLarge digits =>
      refine absurd ?_ (hplain '\'' (by decide))
      simp [Reason.message]
  | lacksValue action | takesNoValue action =>
      refine absurd ?_ (hplain '(' (by decide))
      simp [Reason.message]

theorem map_ne_error {β γ : Type} {x : Except Reason β} {reason : Reason} (h : x ≠ .error reason)
    (f : β → γ) : x.map f ≠ .error reason := by
  cases x with
  | ok value => nofun
  | error other =>
      intro heq
      apply h
      cases heq
      rfl

theorem number?_ne_unterminated (digits : List Char) :
    number? digits ≠ .error .unterminated := by
  unfold number?
  split <;> nofun

theorem argument?_ne_unterminated (value : Option Grammar.Value) :
    argument? value ≠ .error .unterminated := by
  match value with
  | none => nofun
  | some (.name name) => nofun
  | some (.number digits) =>
      apply map_ne_error
      apply number?_ne_unterminated

theorem call?_ne_unterminated (allowed : ActionSet) (name : String)
    (value : Option Grammar.Value) : call? allowed name value ≠ .error .unterminated := by
  unfold call?
  split
  · nofun
  · rename_i action _
    intro h
    cases hargument : argument? value with
    | error reason =>
        rw [hargument] at h
        cases h
        exact argument?_ne_unterminated value hargument
    | ok argument =>
        rw [hargument] at h
        cases htakes : action.takesValue <;> cases argument <;>
          simp only [htakes, bind, Except.bind] at h <;> cases h

/-- A simple piece is never said to lack its end. -/
theorem simple?_ne_unterminated (allowed : ActionSet) (text : List Char) :
    simple? allowed text ≠ .error .unterminated := by
  unfold simple?
  split
  · nofun
  · apply map_ne_error
    apply number?_ne_unterminated
  · apply call?_ne_unterminated

/-! ## Statements -/

/-- A statement inside a block is told to lack its end only if its segment does. -/
theorem classifyInner_unterminated {allowed : ActionSet} {index : Text.LineIndex} {segment : Segment}
    {text : String} {line : Nat} (h : classifyInner allowed index segment =
      .unrecognized text line Reason.unterminated.message) :
    ∃ piece place, segment = .unterminated piece place := by
  cases segment with
  | unterminated piece place => exact ⟨piece, place, rfl⟩
  | block =>
      have hreason := Reason.eq_unterminated_of_message (Statement.unrecognized.inj h).2.2
      cases hreason
  | simple piece place =>
      simp only [classifyInner] at h
      cases hsimple : simple? allowed piece with
      | ok s =>
          rw [hsimple] at h
          dsimp only at h
          subst h
          have hflat := flat_of_simple? hsimple
          cases hflat
      | error reason =>
          rw [hsimple] at h
          have hreason := Reason.eq_unterminated_of_message (Statement.unrecognized.inj h).2.2
          subst hreason
          exact absurd hsimple (simple?_ne_unterminated allowed piece)

theorem Statement.Inner.body_eq_nil {allowed : ActionSet} {s : Statement} (h : s.Inner allowed) :
    s.body = [] := by
  cases h with
  | flat hflat => cases hflat <;> rfl
  | unrecognized text line reason => rfl

/-- The statements inside a block come from the segments of its body. -/
theorem mem_body_classify {allowed : ActionSet} {index : Text.LineIndex} {segment : Segment}
    {s : Statement} (h : s ∈ (classify allowed index segment).body) :
    ∃ keyword header body bodyOffset piece place inside,
      segment = .block keyword header body bodyOffset piece place ∧
        inside ∈ Segment.split body bodyOffset ∧ classifyInner allowed index inside = s := by
  unfold classify at h
  split at h
  · rename_i keyword header body bodyOffset piece place
    have hinner : s ∈ (Segment.split body bodyOffset).map (classifyInner allowed index) := by
      cases keyword with
      | ifWord =>
          dsimp only at h
          split at h
          · exact h
          · cases h
      | forWord =>
          dsimp only at h
          split at h
          · cases h
          · split at h
            · exact h
            · cases h
    obtain ⟨inside, hinside, hs⟩ := List.mem_map.mp hinner
    exact ⟨keyword, header, body, bodyOffset, piece, place, inside, rfl, hinside, hs⟩
  · rw [(inner_classifyInner allowed index segment).body_eq_nil] at h
    cases h

/-- Whatever the source text, a recognized script holds allowed calls with a value exactly where the
action takes one, names and numbers of their forms, and loops within the limit; its blocks hold
assignments, calls and unrecognized pieces only, and none of these pieces lacks its end. -/
theorem recognize_wellFormed {source : String} {allowed : ActionSet} {s : Statement}
    (h : s ∈ recognize source allowed) :
    s.Outer allowed ∧ ∀ t ∈ s.body, t.Inner allowed ∧
      ∀ text line, t ≠ .unrecognized text line Reason.unterminated.message := by
  refine ⟨outer_of_mem_recognize h, ?_⟩
  obtain ⟨segment, hsegment, rfl⟩ := List.mem_map.mp h
  intro t ht
  obtain ⟨keyword, header, body, bodyOffset, piece, place, inside, rfl, hinside, rfl⟩ :=
    mem_body_classify ht
  refine ⟨inner_classifyInner allowed _ inside, ?_⟩
  intro text line hlacks
  obtain ⟨front, start, rfl⟩ := classifyInner_unterminated hlacks
  exact Segment.not_unterminated_of_closes (Segment.closes_of_block hsegment) hinside

/-- A conditional with a loop in it, and with the beginning of another loop. -/
def loopsInside : String :=
  "if (enemyNear) \x7b\n  x = 3;\n  for (int i = 0; i < 2; i++) \x7b jump(); \x7d\n" ++
    "  for (int j = 0; \x7d"

/-- What is inside of the conditional. -/
def loopsInsideBody : List Statement :=
  [.assign "x" 3,
    .unrecognized "for (int i = 0; i < 2; i++) \x7b jump(); \x7d" 3
      "blocks cannot be nested inside another block",
    .unrecognized "for (int j = 0;" 4 "syntax: expected number"]

set_option maxRecDepth 6000 in
theorem recognize_wellFormed_loopsInside :
    .branch "enemyNear" loopsInsideBody ∈ recognize loopsInside .full ∧
      (Statement.branch "enemyNear" loopsInsideBody).Outer .full ∧
      ∀ t ∈ loopsInsideBody, t.Inner .full ∧
        ∀ text line, t ≠ .unrecognized text line Reason.unterminated.message := by
  have hscript : recognize loopsInside .full = [.branch "enemyNear" loopsInsideBody] := by cbv
  have hmem : .branch "enemyNear" loopsInsideBody ∈ recognize loopsInside .full := by
    rw [hscript]
    apply List.mem_singleton_self
  exact ⟨hmem, recognize_wellFormed hmem⟩

end Playscript.Script
