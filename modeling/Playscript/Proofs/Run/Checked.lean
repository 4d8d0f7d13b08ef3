import Playscript.Proofs.Run.Unrolling
import Playscript.Proofs.Script.Reading
/-! Loops with checked arithmetic. Scripts are run here once more by a machine that only has words of
64 bits: it is stopped by a sum or a difference that is no word, and of a loop in progress it does
not know that a round is left. It is never stopped, and it does what a script does. -/
namespace Playscript.Script

variable {α : Type}

/-! ## Checked words -/

/-- The word with this value, if there is one. -/
def word? (n : Int) : Option Int64 :=
  if Int64.minValue.toInt ≤ n ∧ n ≤ Int64.maxValue.toInt then some (Int64.ofInt n) else none

def add? (a b : Int64) : Option Int64 :=
  word? (a.toInt + b.toInt)

def sub? (a b : Int64) : Option Int64 :=
  word? (a.toInt - b.toInt)

theorem word?_eq_some_iff {n : Int} {w : Int64} : word? n = some w ↔ w.toInt = n := by
  unfold word?
  constructor
  · intro h
    split at h
    · rename_i hrange
      cases h
      exact Int64.toInt_ofInt_of_le hrange.1 (Int.lt_add_one_of_le hrange.2)
    · cases h
  · rintro rfl
    rw [if_pos ⟨w.minValue_le_toInt, w.toInt_le⟩, Int64.ofInt_toInt]

/-- Below a word there is room for one more. -/
theorem add?_one {i stop : Int64} (h : i < stop) : add? i 1 = some (i + 1) :=
  word?_eq_some_iff.mpr (Loop.toInt_add_one h)

theorem sub?_eq {a b : Int64} (hmin : Int64.minValue.toInt ≤ a.toInt - b.toInt)
    (hmax : a.toInt - b.toInt ≤ Int64.maxValue.toInt) : sub? a b = some (a - b) := by
  rw [sub?, word?, if_pos ⟨hmin, hmax⟩, Int64.ofInt_sub, Int64.ofInt_toInt, Int64.ofInt_toInt]

/-- With each round a loop has fewer left. -/
theorem Loop.rounds_left_lt {i stop : Int64} (h : i < stop) :
    (stop.toInt - (i + 1).toInt).toNat < (stop.toInt - i.toInt).toNat := by
  have := toInt_add_one h
  have := Int64.lt_iff_toInt_lt.mp h
  omega

/-- Above a word there is one before. -/
theorem sub?_one {first stop : Int64} (h : first < stop) : sub? stop 1 = some (stop - 1) := by
  have hlt := Int64.lt_iff_toInt_lt.mp h
  have hmin := first.minValue_le_toInt
  have hmax := stop.toInt_le
  have hone : (1 : Int64).toInt = 1 := rfl
  apply sub?_eq <;> omega

/-! ## Headers -/

/-- The loop that a header describes, with a checked difference of its bounds. -/
def range? (h : Grammar.Header) : Option (Except LoopFault LoopRange) :=
  if h.tested ≠ h.declared ∨ h.stepped ≠ h.declared then
    some (.error (.otherName (String.ofList h.declared) (String.ofList h.tested)
      (String.ofList h.stepped)))
  else
    match bound? h.first, bound? h.stop with
    | .error fault, _ => some (.error fault)
    | .ok _, .error fault => some (.error fault)
    | .ok first, .ok stop =>
        if stop < first then some (.error (.backwards first stop))
        else (sub? stop first).map fun length =>
          if maxIterations < length then .error (.tooLong length)
          else .ok ⟨String.ofList h.declared, first, stop⟩

/-- A bound is written with digits only, so it is not below zero. -/
theorem nonneg_of_bound? {bound : List Char} {value : Int64} (h : bound? bound = .ok value) :
    0 ≤ value.toInt := by
  unfold bound? at h
  split at h
  · split at h
    · rename_i hword
      cases h
      rw [← toInt64?_eq_some_iff.mp hword]
      exact Int.natCast_nonneg _
    · cases h
  · cases h

theorem sub?_bounds {a b : List Char} {first stop : Int64} (hfirst : bound? a = .ok first)
    (hstop : bound? b = .ok stop) : sub? stop first = some (stop - first) := by
  have hstop := nonneg_of_bound? hstop
  have hfirst := nonneg_of_bound? hfirst
  have hlow := first.toInt_le
  have hhigh := stop.toInt_le
  have hsym : Int64.minValue.toInt = - Int64.maxValue.toInt - 1 := rfl
  apply sub?_eq <;> omega

theorem range?_eq (h : Grammar.Header) : range? h = some (loopRange? h) := by
  unfold range? loopRange?
  split
  · rfl
  · cases hfirst : bound? h.first with
    | error fault => rfl
    | ok first =>
        cases hstop : bound? h.stop with
        | error fault => rfl
        | ok stop =>
            dsimp only
            rw [sub?_bounds hfirst hstop, Option.map_some]
            by_cases hback : stop < first
            · simp [bind, Except.bind, hback]
            · simp [bind, Except.bind, hback]

/-! ## Effects that can be stopped -/

/-- An effect, unless it is stopped. -/
def Attempt (α : Type) := Scene α → Option (Scene α × Output α)

namespace Attempt

def ofEffect (a : Effect α) : Attempt α := fun scene => some (a scene)

def andThen (a b : Attempt α) : Attempt α := fun scene =>
  (a scene).bind fun first => (b first.1).map fun second => (second.1, first.2 ++ second.2)

theorem ofEffect_andThen (a b : Effect α) :
    (ofEffect a).andThen (ofEffect b) = ofEffect (a.andThen b) := rfl

end Attempt

/-- The rounds of a loop from `i` on. When a round begins, the value of the next one is computed. -/
def rounds? (round : Int64 → Attempt α) (i stop : Int64) : Attempt α := fun scene =>
  if _hlt : i < stop then
    match _hnext : add? i 1 with
    | none => none
    | some next => (round i).andThen (rounds? round next stop) scene
  else
    some (scene, .empty)
termination_by (stop.toInt - i.toInt).toNat
decreasing_by
  rw [add?_one _hlt] at _hnext
  cases _hnext
  exact Loop.rounds_left_lt _hlt

/-- Notes the range of a loop, whose last value is computed. -/
def openLoop? (counter : String) (first stop : Int64) (body : List Statement) : Attempt α :=
  fun scene => (sub? stop 1).map fun last =>
    (scene.noteLoop (body.filterMap Statement.called?),
      .line ("Executing for loop with " ++ counter ++ " from " ++ toString first ++ " to " ++
        toString last))

def iterate? (counter : String) (i : Int64) (block : Attempt α) : Attempt α :=
  (Attempt.ofEffect (iterate counter i .skip)).andThen block

def branch? (retreat : Option Action) (condition : String) (body : List Statement)
    (block : Attempt α) : Attempt α := fun scene =>
  match scene.world.condition? condition with
  | some true => (Attempt.ofEffect (branch retreat condition body .skip)).andThen block scene
  | _ => some (branch retreat condition body .skip scene)

/-- After each value of a loop there is another word, and the rounds of a loop are those of its
values. -/
theorem rounds?_eq (round : Int64 → Effect α) (i stop : Int64) :
    rounds? (fun i => .ofEffect (round i)) i stop =
      .ofEffect (.all ((Loop.span i stop).map round)) := by
  funext scene
  by_cases hlt : i < stop
  · have hlater := rounds?_eq round (i + 1) stop
    rw [rounds?, dif_pos hlt]
    split
    · rename_i hnone
      rw [add?_one hlt] at hnone
      cases hnone
    · rename_i next hnext
      rw [add?_one hlt] at hnext
      cases hnext
      rw [hlater, Loop.span_eq_cons hlt]
      rfl
  · rw [rounds?, dif_neg hlt, Loop.span_eq_nil (Int64.not_lt.mp hlt)]
    rfl
termination_by (stop.toInt - i.toInt).toNat
decreasing_by exact Loop.rounds_left_lt hlt

theorem openLoop?_eq {first stop : Int64} (h : first < stop) (counter : String)
    (body : List Statement) :
    (openLoop? counter first stop body : Attempt α) =
      .ofEffect (openLoop counter first stop body) := by
  funext scene
  rw [openLoop?, sub?_one h]
  rfl

theorem iterate?_eq (counter : String) (i : Int64) (block : Effect α) :
    iterate? counter i (.ofEffect block) = .ofEffect (iterate counter i block) := by
  rw [iterate?, Attempt.ofEffect_andThen, iterate, Effect.andThen_skip]
  rfl

/-- A block follows what its condition does, and only where that is true. -/
theorem branch_eq_andThen (retreat : Option Action) {condition : String} (body : List Statement)
    (block : Effect α) {scene : Scene α} (h : scene.world.condition? condition = some true) :
    branch retreat condition body block scene =
      ((branch retreat condition body .skip).andThen block) scene := by
  simp [branch, Effect.andThen, Effect.skip, h]

theorem branch_eq_skip (retreat : Option Action) {condition : String} (body : List Statement)
    (block : Effect α) {scene : Scene α} (h : scene.world.condition? condition ≠ some true) :
    branch retreat condition body block scene = branch retreat condition body .skip scene := by
  unfold branch
  split
  · rfl
  · rfl
  · contradiction

theorem branch?_eq (retreat : Option Action) (condition : String) (body : List Statement)
    (block : Effect α) :
    branch? retreat condition body (.ofEffect block) =
      .ofEffect (branch retreat condition body block) := by
  funext scene
  unfold branch?
  split
  · rename_i htrue
    rw [Attempt.ofEffect_andThen, Attempt.ofEffect, Attempt.ofEffect,
      branch_eq_andThen retreat body block htrue]
  · rename_i hother
    rw [Attempt.ofEffect, branch_eq_skip retreat body block hother]

/-! ## Statements -/

variable [Coordinate α]

mutual

/-- The effect of a statement where every sum and difference of a loop is checked. -/
def Statement.run? (retreat : Option Action) : Statement → Attempt α
  | .assign name value => .ofEffect (assign name value)
  | .act action argument => .ofEffect (perform action argument)
  | .branch condition body => branch? retreat condition body (runAll? retreat body)
  | .loop counter first stop body =>
      match Loop.entry first stop with
      | .tooLong => .ofEffect (refuseLoop counter first stop)
      | .empty => .ofEffect (skipLoop counter first stop)
      | .entered =>
          (openLoop? counter first stop body).andThen
            (rounds? (fun i => iterate? counter i (runAll? retreat body)) first stop)
  | .unrecognized text line _ => .ofEffect (.tell (.issue (.unrecognized text line)))
  | .malformedLoop header _ reason => .ofEffect (.tell (.issue (.malformedLoop header reason)))

def runAll? (retreat : Option Action) : List Statement → Attempt α
  | [] => .ofEffect .skip
  | s :: rest => (s.run? retreat).andThen (runAll? retreat rest)

end

mutual

theorem Statement.run?_eq (retreat : Option Action) :
    ∀ s : Statement, (s.run? retreat : Attempt α) = .ofEffect (s.run retreat)
  | .assign .. | .act .. | .unrecognized .. | .malformedLoop .. => rfl
  | .branch condition body => by
      rw [Statement.run?, runAll?_eq retreat body, branch?_eq]
      rfl
  | .loop counter first stop body => by
      have hbody : (runAll? retreat body : Attempt α) = _ := runAll?_eq retreat body
      rw [Statement.run?, Statement.run, hbody]
      cases hentry : Loop.entry first stop with
      | tooLong => rfl
      | empty => rfl
      | entered =>
          simp only [iterate?_eq]
          rw [openLoop?_eq (Loop.lt_of_entry hentry), rounds?_eq, Attempt.ofEffect_andThen]

theorem runAll?_eq (retreat : Option Action) :
    ∀ script : List Statement,
      (runAll? retreat script : Attempt α) = .ofEffect (runAll retreat script)
  | [] => rfl
  | s :: rest => by
      rw [runAll?, s.run?_eq retreat, runAll?_eq retreat rest, Attempt.ofEffect_andThen]
      rfl

end

/-! ## Steps -/

/-- A loop in progress, of which it is not known that it has a next round. -/
structure BareCursor where
  counter : String
  body : List Statement
  next : Int64
  stop : Int64

/-- A script part way through, with a bare cursor. -/
structure BareExecution where
  active : Option BareCursor
  rest : List Statement

structure BareStepped (α : Type) where
  status : Status
  execution : BareExecution
  scene : Scene α
  output : Output α

def Cursor.bare (c : Cursor) : BareCursor :=
  ⟨c.counter, c.body, c.next, c.stop⟩

def Execution.bare (e : Execution) : BareExecution :=
  ⟨e.active.map Cursor.bare, e.rest⟩

def Stepped.bare {α : Type} (s : Stepped α) : BareStepped α :=
  ⟨s.status, s.execution.bare, s.scene, s.output⟩

def BareStepped.after {α : Type} (s : BareStepped α) (earlier : Output α) : BareStepped α :=
  { s with output := earlier ++ s.output }

/-- Goes on after an attempt, if that is not stopped. -/
def Attempt.goOn {α : Type} (a : Attempt α) (later : Scene α → Option (BareStepped α)) :
    Scene α → Option (BareStepped α) := fun scene =>
  (a scene).bind fun done => (later done.1).map fun stepped => stepped.after done.2

/-- Runs a loop's next round. The value after it tells whether a further round is left. -/
def BareCursor.turn? (c : BareCursor) (retreat : Option Action) (delay : Duration)
    (rest : List Statement) (later : Scene α → Option (BareStepped α)) :
    Scene α → Option (BareStepped α) := fun scene =>
  (add? c.next 1).bind fun following =>
    if following < c.stop then
      (iterate? c.counter c.next (runAll? retreat c.body) scene).map fun done =>
        ⟨.paused delay, ⟨some { c with next := following }, rest⟩, done.1,
          done.2 ++ .event (.pacing c.next delay)⟩
    else
      (iterate? c.counter c.next (runAll? retreat c.body)).goOn later scene

/-- Runs statements up to the first pause or to their end. -/
def stepAll? (retreat : Option Action) (delay : Duration) :
    List Statement → Scene α → Option (BareStepped α)
  | [], scene => some ⟨.finished, ⟨none, []⟩, scene, .empty⟩
  | .loop counter first stop body :: rest, scene =>
      if Loop.entry first stop = .entered then
        let cursor : BareCursor := ⟨counter, body, first, stop⟩
        (openLoop? counter first stop body).goOn
          (cursor.turn? retreat delay rest (stepAll? retreat delay rest)) scene
      else
        ((Statement.loop counter first stop body).run? retreat).goOn
          (stepAll? retreat delay rest) scene
  | statement :: rest, scene =>
      (statement.run? retreat).goOn (stepAll? retreat delay rest) scene

/-- Runs on to the next pause or to the end. -/
def BareExecution.step? (e : BareExecution) (retreat : Option Action) (delay : Duration)
    (scene : Scene α) : Option (BareStepped α) :=
  match e.active with
  | some cursor => cursor.turn? retreat delay e.rest (stepAll? retreat delay e.rest) scene
  | none => stepAll? retreat delay e.rest scene

omit [Coordinate α] in
theorem goOn_ofEffect (a : Effect α) (later : Scene α → Stepped α) :
    (Attempt.ofEffect a).goOn (fun scene => some (later scene).bare) =
      fun scene => some ((later (a scene).1).after (a scene).2).bare := rfl

/-- As a cursor has a next round, the value after it is a word. -/
theorem turn?_bare (c : Cursor) (retreat : Option Action) (delay : Duration)
    (rest : List Statement) (later : Scene α → Stepped α) :
    c.bare.turn? retreat delay rest (fun scene => some (later scene).bare) =
      fun scene => some (c.turn retreat delay rest later scene).bare := by
  funext scene
  have hnext : add? c.bare.next 1 = some (c.next + 1) := add?_one c.next_lt_stop
  have hround : iterate? c.bare.counter c.bare.next (runAll? retreat c.bare.body) =
      .ofEffect (iterate c.counter c.next (runAll retreat c.body) : Effect α) := by
    rw [runAll?_eq, iterate?_eq]
    rfl
  rw [BareCursor.turn?, hnext, hround, Option.bind_some, goOn_ofEffect, Cursor.turn,
    Cursor.advance?]
  by_cases hmore : c.next + 1 < c.stop
  · have hbare : c.next + 1 < c.bare.stop := hmore
    rw [if_pos hbare, dif_pos hmore]
    rfl
  · have hbare : ¬ c.next + 1 < c.bare.stop := hmore
    rw [if_neg hbare, dif_neg hmore]

theorem stepAll?_eq (retreat : Option Action) (delay : Duration) (script : List Statement) :
    (stepAll? retreat delay script : Scene α → Option (BareStepped α)) =
      fun scene => some (stepAll retreat delay script scene).bare := by
  induction script with
  | nil => rfl
  | cons s rest ih =>
      funext scene
      cases s with
      | loop counter first stop body =>
          rw [stepAll?, stepAll, ih]
          by_cases hentry : Loop.entry first stop = .entered
          · have hlt := Loop.lt_of_entry hentry
            rw [if_pos hentry, dif_pos hentry, openLoop?_eq hlt]
            dsimp only
            rw [show (⟨counter, body, first, stop⟩ : BareCursor) =
              Cursor.bare ⟨counter, body, first, stop, hlt⟩ from rfl, turn?_bare, goOn_ofEffect]
          · rw [if_neg hentry, dif_neg hentry, Statement.run?_eq, goOn_ofEffect]
      | assign | act | branch | unrecognized | malformedLoop =>
          simp only [stepAll?]
          rw [ih, Statement.run?_eq, goOn_ofEffect]
          rfl

/-- With a bare cursor a step is the same, and it is not stopped. -/
theorem step?_bare (e : Execution) (retreat : Option Action) (delay : Duration) (scene : Scene α) :
    e.bare.step? retreat delay scene = some (e.step retreat delay scene).bare := by
  obtain ⟨active, rest⟩ := e
  unfold BareExecution.step? Execution.step
  rw [stepAll?_eq]
  cases active with
  | none => rfl
  | some c => exact congrFun (turn?_bare c retreat delay rest (stepAll retreat delay rest)) scene

/-- What is reached from the beginning of a script by steps, with delays and scenes of their own. -/
inductive BareExecution.Reached (α : Type) [Coordinate α] (retreat : Option Action)
    (script : List Statement) : BareExecution → Prop
  | start : Reached α retreat script ⟨none, script⟩
  | step {e : BareExecution} {delay : Duration} {scene : Scene α} {stepped : BareStepped α} :
      Reached α retreat script e → e.step? retreat delay scene = some stepped →
      Reached α retreat script stepped.execution

/-- Wherever the steps of a script lead, the loop in progress has a next round. -/
theorem BareExecution.Reached.exists_bare {retreat : Option Action}
    {script : List Statement} {e : BareExecution} (h : e.Reached α retreat script) :
    ∃ own : Execution, e = own.bare := by
  induction h with
  | start => exact ⟨.start script, rfl⟩
  | step _ hstep ih =>
      obtain ⟨own, rfl⟩ := ih
      rw [step?_bare] at hstep
      cases hstep
      exact ⟨_, rfl⟩

/-! ## No overflow -/

omit [Coordinate α] in
theorem Loop.entry_eq_tooLong_iff {first stop : Int64} :
    entry first stop = .tooLong ↔ first < stop ∧ 100 < stop.toInt - first.toInt := by
  have hlimit : maxIterations.toInt = 100 := rfl
  rw [Int64.lt_iff_toInt_lt, ← hlimit]
  constructor
  · intro h
    have hlong : maxIterations.toInt < stop.toInt - first.toInt := by
      by_contra hshort
      exact entry_ne_tooLong (Int.not_lt.mp hshort) h
    exact ⟨by omega, hlong⟩
  · rintro ⟨-, hlong⟩
    rw [entry, if_pos (lt_saturatingSub_iff.mpr hlong)]

/-- The values of a loop are the whole numbers from its first one up to but without its stop. -/
theorem Loop.toInt_span (first stop : Int64) :
    (span first stop).map Int64.toInt =
      (List.range (stop.toInt - first.toInt).toNat).map fun (k : Nat) => first.toInt + k := by
  rw [span, List.map_map]
  exact List.map_congr_left fun k hk => toInt_iteration (List.mem_range.mp hk)

theorem Loop.lt_of_mem_span {first stop i : Int64} (h : i ∈ span first stop) : i < stop := by
  have hvalue := List.mem_map_of_mem (f := Int64.toInt) h
  rw [toInt_span] at hvalue
  obtain ⟨k, hk, hi⟩ := List.mem_map.mp hvalue
  rw [Int64.lt_iff_toInt_lt, ← hi]
  have := List.mem_range.mp hk
  omega

/-- No sum or difference of a loop leaves the range of words. The difference of the bounds in a
header is a word. A loop is refused just where it has more than a hundred rounds; where it is entered,
its last value, all its values and the values after them are words. So statements of any depth are
run, and scripts are stepped through, in the same way where every sum and difference is checked; and
wherever the steps lead, the loop in progress has a next round. -/
theorem loops_stay_within_words (retreat : Option Action) :
    (∀ (text : List Char) (h : Grammar.Header), Grammar.forHeader? text = some h →
        range? h = some (loopRange? h)) ∧
      (∀ first stop, Loop.entry first stop = .tooLong ↔
        first < stop ∧ 100 < stop.toInt - first.toInt) ∧
      (∀ first stop, Loop.entry first stop = .entered →
        sub? stop 1 = some (stop - 1) ∧
          (Loop.span first stop).map Int64.toInt =
            (List.range (stop.toInt - first.toInt).toNat).map (fun (k : Nat) => first.toInt + k) ∧
          ∀ i ∈ Loop.span first stop, add? i 1 = some (i + 1)) ∧
      (∀ (s : Statement) (scene : Scene α),
        s.run? retreat scene = some (s.run retreat scene)) ∧
      ∀ script e, BareExecution.Reached α retreat script e →
        (∀ c, e.active = some c → c.next < c.stop) ∧
          ∃ own : Execution, e = own.bare ∧ ∀ (delay : Duration) (scene : Scene α),
            e.step? retreat delay scene = some (own.step retreat delay scene).bare := by
  refine ⟨fun _ h _ => range?_eq h, fun _ _ => Loop.entry_eq_tooLong_iff, ?_, ?_, ?_⟩
  · intro first stop hentry
    exact ⟨sub?_one (Loop.lt_of_entry hentry), Loop.toInt_span first stop,
      fun i hi => add?_one (Loop.lt_of_mem_span hi)⟩
  · intro s scene
    rw [s.run?_eq]
    rfl
  · intro script e hreached
    obtain ⟨own, rfl⟩ := hreached.exists_bare
    refine ⟨?_, own, rfl, step?_bare own retreat⟩
    intro c hactive
    obtain ⟨cursor, -, rfl⟩ := Option.map_eq_some_iff.mp hactive
    exact cursor.next_lt_stop

/-- A loop with the last three values that have another word after them. -/
def lastWords (body : List Statement) : Statement :=
  .loop "i" (.maxValue - 3) .maxValue body

/-- The header of the longest loop that can be told. -/
def longestHeader : Grammar.Header :=
  ⟨['i'], ['0'], ['i'], "9223372036854775807".toList, ['i']⟩

/-- A loop over all words is refused, though its length is beyond them, and so is the longest one
that a header can tell. The loop up to the last word is entered, also within another such loop. After
its last value comes the last word, after which there is none. -/
theorem loops_stay_within_words_extremes :
    Grammar.forHeader? "for (int i = 0; i < 9223372036854775807; i++)".toList =
        some longestHeader ∧
      range? longestHeader = some (.error (.tooLong .maxValue)) ∧
      Loop.entry .minValue .maxValue = .tooLong ∧
      Loop.entry (.maxValue - 3) .maxValue = .entered ∧
      add? (.maxValue - 1) 1 = some .maxValue ∧ add? .maxValue 1 = none ∧
      (∀ scene : Scene Float, (lastWords [lastWords []]).run? none scene =
        some ((lastWords [lastWords []]).run none scene)) ∧
      ∀ (delay : Duration) (scene : Scene Float),
        ((⟨none, [lastWords []]⟩ : BareExecution).step? none delay scene).isSome = true := by
  obtain ⟨hheader, hlimit, hentered, hrun, hsteps⟩ := loops_stay_within_words (α := Float) none
  have htext : Grammar.forHeader? "for (int i = 0; i < 9223372036854775807; i++)".toList =
      some longestHeader := by decide +kernel
  have hrange : range? longestHeader = some (.error (.tooLong .maxValue)) :=
    (hheader _ _ htext).trans rfl
  have hlong : Loop.entry .minValue .maxValue = .tooLong := (hlimit _ _).mpr (by decide)
  have hentry : Loop.entry (.maxValue - 3) .maxValue = .entered := by decide
  obtain ⟨-, -, hnext⟩ := hentered _ _ hentry
  have hlast : Int64.maxValue - 1 ∈ Loop.span (.maxValue - 3) .maxValue := by decide
  refine ⟨htext, hrange, hlong, hentry, (hnext _ hlast).trans rfl, by decide, hrun _, ?_⟩
  intro delay scene
  obtain ⟨-, own, -, hstep⟩ := hsteps [lastWords []] _ .start
  rw [hstep, Option.isSome_some]

end Playscript.Script
