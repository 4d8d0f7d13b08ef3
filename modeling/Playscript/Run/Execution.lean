import Playscript.Run.Statement
/-! Paced execution. A script runs in steps: between two rounds of a loop at the top level the run
pauses, and a later step goes on from there. Loops inside blocks run through. -/
namespace Playscript.Script

/-- A loop in progress. The next round is always one that the loop has. -/
structure Cursor where
  counter : String
  body : List Statement
  next : Int64
  stop : Int64
  next_lt_stop : next < stop

/-- A script part way through: the loop it stands in, and the statements still to come after it. -/
structure Execution where
  active : Option Cursor
  rest : List Statement

inductive Status
  | paused (delay : Duration)
  | finished
deriving DecidableEq, Repr

/-- What a step leaves: how it ended, the script, the scene and the output of the step. -/
structure Stepped (α : Type) where
  status : Status
  execution : Execution
  scene : Scene α
  output : Output α

/-- The step with an earlier output in front. -/
def Stepped.after {α : Type} (s : Stepped α) (earlier : Output α) : Stepped α :=
  { s with output := earlier ++ s.output }

namespace Execution

def start (script : List Statement) : Execution := ⟨none, script⟩

def isFinished (e : Execution) : Bool :=
  e.active.isNone && e.rest.isEmpty

end Execution

/-- The cursor after its next round, if a round is left then. -/
def Cursor.advance? (c : Cursor) : Option Cursor :=
  if h : c.next + 1 < c.stop then some { c with next := c.next + 1, next_lt_stop := h } else none

variable {α : Type} [Coordinate α]

/-- Runs a loop's next round, then pauses if a further round is left and goes on if not. -/
def Cursor.turn (c : Cursor) (retreat : Option Action) (delay : Duration) (rest : List Statement)
    (goOn : Scene α → Stepped α) (scene : Scene α) : Stepped α :=
  let round := iterate c.counter c.next (runAll retreat c.body) scene
  match c.advance? with
  | some next =>
      ⟨.paused delay, ⟨some next, rest⟩, round.1, round.2 ++ .event (.pacing c.next delay)⟩
  | none => (goOn round.1).after round.2

/-- Runs statements up to the first pause or to their end. -/
def stepAll (retreat : Option Action) (delay : Duration) :
    List Statement → Scene α → Stepped α
  | [], scene => ⟨.finished, .start [], scene, .empty⟩
  | .loop counter first stop body :: rest, scene =>
      if h : Loop.entry first stop = .entered then
        let opened := openLoop counter first stop body scene
        let cursor : Cursor := ⟨counter, body, first, stop, Loop.lt_of_entry h⟩
        (cursor.turn retreat delay rest (stepAll retreat delay rest) opened.1).after opened.2
      else
        let passed := (Statement.loop counter first stop body).run retreat scene
        (stepAll retreat delay rest passed.1).after passed.2
  | statement :: rest, scene =>
      let done := statement.run retreat scene
      (stepAll retreat delay rest done.1).after done.2

namespace Execution

/-- Runs on to the next pause or to the end. -/
def step (e : Execution) (retreat : Option Action) (delay : Duration) (scene : Scene α) :
    Stepped α :=
  match e.active with
  | some cursor => cursor.turn retreat delay e.rest (stepAll retreat delay e.rest) scene
  | none => stepAll retreat delay e.rest scene

end Execution

/-! ## Pauses

The number of pauses still to come is known beforehand and goes down by one with each pause. -/

/-- The pauses of a loop at the top level, one between any two rounds. -/
def Statement.pauses : Statement → Nat
  | .loop _ first stop _ =>
      if Loop.entry first stop = .entered then (stop.toInt - first.toInt).toNat - 1 else 0
  | _ => 0

/-- The pauses of statements at the top level, one after the other. -/
def totalPauses : List Statement → Nat
  | [] => 0
  | s :: rest => s.pauses + totalPauses rest

def Cursor.pauses (c : Cursor) : Nat :=
  (c.stop.toInt - c.next.toInt).toNat - 1

def Execution.pauses (e : Execution) : Nat :=
  (e.active.map Cursor.pauses).getD 0 + totalPauses e.rest

theorem Cursor.toInt_next_add_one (c : Cursor) : (c.next + 1).toInt = c.next.toInt + 1 :=
  Loop.toInt_add_one c.next_lt_stop

theorem Cursor.pauses_of_advance? {c d : Cursor} (h : c.advance? = some d) :
    d.pauses + 1 = c.pauses := by
  unfold advance? at h
  split at h
  · rename_i hlt
    simp only [Option.some.injEq] at h
    subst h
    have hlt := Int64.lt_iff_toInt_lt.mp hlt
    have hnext := c.toInt_next_add_one
    simp only [pauses, hnext] at hlt ⊢
    omega
  · simp at h

theorem Cursor.pauses_of_advance?_eq_none {c : Cursor} (h : c.advance? = none) :
    c.pauses = 0 := by
  unfold advance? at h
  split at h
  · simp at h
  · rename_i hlt
    have hlt := mt Int64.lt_iff_toInt_lt.mpr hlt
    have hnext := c.toInt_next_add_one
    simp only [pauses, hnext] at hlt ⊢
    omega

omit [Coordinate α] in
theorem status_after (s : Stepped α) (o : Output α) : (s.after o).status = s.status := rfl

omit [Coordinate α] in
theorem execution_after (s : Stepped α) (o : Output α) :
    (s.after o).execution = s.execution := rfl

theorem Cursor.pauses_turn (c : Cursor) (retreat : Option Action) (delay d : Duration)
    (rest : List Statement) (goOn : Scene α → Stepped α) (scene : Scene α)
    (hgo : ∀ scene, (goOn scene).status = .paused d →
      (goOn scene).execution.pauses + 1 = totalPauses rest)
    (h : (c.turn retreat delay rest goOn scene).status = .paused d) :
    (c.turn retreat delay rest goOn scene).execution.pauses + 1 =
      c.pauses + totalPauses rest := by
  unfold turn at h ⊢
  simp only at h ⊢
  split at h
  · rename_i next hnext
    have := pauses_of_advance? hnext
    simp only [Execution.pauses, Option.map_some, Option.getD_some]
    omega
  · rename_i hnext
    simp only [status_after, execution_after] at h ⊢
    rw [hgo _ h, pauses_of_advance?_eq_none hnext, Nat.zero_add]

theorem pauses_stepAll (retreat : Option Action) (delay d : Duration) (script : List Statement) :
    ∀ scene : Scene α, (stepAll retreat delay script scene).status = .paused d →
      (stepAll retreat delay script scene).execution.pauses + 1 =
        totalPauses script := by
  induction script with
  | nil => intro scene h; simp [stepAll] at h
  | cons s rest ih =>
      intro scene h
      cases s with
      | loop counter first stop body =>
          simp only [stepAll] at h ⊢
          split at h
          · rename_i he
            simp only [he, dif_pos, status_after, execution_after] at h ⊢
            rw [Cursor.pauses_turn _ retreat delay d rest _ _ ih h]
            simp [Cursor.pauses, totalPauses, Statement.pauses, he]
          · rename_i he
            simp only [he, dif_neg, not_false_iff, status_after, execution_after] at h ⊢
            rw [ih _ h]
            simp [totalPauses, Statement.pauses, he]
      | assign | act | branch | unrecognized | malformedLoop =>
          simp only [stepAll, status_after, execution_after] at h ⊢
          rw [ih _ h]
          simp [totalPauses, Statement.pauses]

/-- A step that pauses leaves one pause fewer to come. -/
theorem Execution.pauses_step (e : Execution) (retreat : Option Action) (delay d : Duration)
    (scene : Scene α) (h : (e.step retreat delay scene).status = .paused d) :
    (e.step retreat delay scene).execution.pauses + 1 = e.pauses := by
  unfold step at h ⊢
  split at h
  · rename_i c hc
    rw [Cursor.pauses_turn _ _ _ d _ _ _ (pauses_stepAll retreat delay d e.rest) h]
    simp [pauses, hc]
  · rename_i hc
    rw [pauses_stepAll retreat delay d e.rest scene h]
    simp [pauses, hc]

/-! ## Whole runs -/

/-- Runs to the end, over all the pauses. Each step has a delay of its own. -/
def Execution.runThrough (e : Execution) (retreat : Option Action) (delays : Nat → Duration)
    (scene : Scene α) : Stepped α :=
  let stepped := e.step retreat (delays 0) scene
  match _h : stepped.status with
  | .finished => stepped
  | .paused _ =>
      (stepped.execution.runThrough retreat (fun n => delays (n + 1)) stepped.scene).after
        stepped.output
termination_by e.pauses
decreasing_by
  have := e.pauses_step retreat (delays 0) _ scene _h
  omega

theorem Execution.runThrough_of_finished {e : Execution} {retreat : Option Action}
    {delays : Nat → Duration} {scene : Scene α}
    (h : (e.step retreat (delays 0) scene).status = .finished) :
    e.runThrough retreat delays scene = e.step retreat (delays 0) scene := by
  rw [runThrough]
  split
  · rfl
  · rename_i hpaused
    rw [h] at hpaused
    cases hpaused

theorem Execution.runThrough_of_paused {e : Execution} {retreat : Option Action}
    {delays : Nat → Duration} {scene : Scene α} {d : Duration}
    (h : (e.step retreat (delays 0) scene).status = .paused d) :
    e.runThrough retreat delays scene =
      ((e.step retreat (delays 0) scene).execution.runThrough retreat (fun n => delays (n + 1))
        (e.step retreat (delays 0) scene).scene).after
        (e.step retreat (delays 0) scene).output := by
  rw [runThrough]
  split
  · rename_i hfinished
    rw [h] at hfinished
    cases hfinished
  · rfl

/-- Runs to the end without waiting at the pauses. -/
def Execution.runToEnd (e : Execution) (retreat : Option Action) (scene : Scene α) : Stepped α :=
  e.runThrough retreat (fun _ => .zero) scene

end Playscript.Script
