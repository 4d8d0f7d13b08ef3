import Playscript.Proofs.Run.Law
import Playscript.Run.Execution
/-! Pauses do not change what a script does. A script in progress stands for the effect that it has
left; a step does the first part of that effect and leaves the rest, and the only thing it adds is
the event of its pause. So the steps of a script together do what its statements do one after the
other. -/
namespace Playscript

variable {α : Type}

def Event.isPacing : Event α → Bool
  | .pacing .. => true
  | _ => false

namespace Output

def unpaced (o : Output α) : Output α :=
  { o with events := o.events.filter fun e => !e.isPacing }

theorem unpaced_append (a b : Output α) : (a ++ b).unpaced = a.unpaced ++ b.unpaced := by
  ext1
  · rfl
  · rfl
  · simp only [unpaced, events_append, List.filter_append]

@[simp] theorem unpaced_empty : (empty : Output α).unpaced = empty := rfl

@[simp] theorem unpaced_pacing (i : Int64) (delay : Duration) :
    (event (.pacing i delay) : Output α).unpaced = empty := rfl

theorem unpaced_append_pacing (o : Output α) (i : Int64) (delay : Duration) :
    (o ++ event (.pacing i delay)).unpaced = o.unpaced := by
  rw [unpaced_append, unpaced_pacing, append_empty]

theorem unpaced_of_deeds {o : Output α} (h : ∀ e ∈ o.events, e.isDeed = true) :
    o.unpaced = o := by
  have hkept : (o.events.filter fun e => !e.isPacing) = o.events := by
    refine List.filter_eq_self.mpr ?_
    intro e he
    have hdeed := h e he
    cases e with
    | pacing i delay => cases hdeed
    | _ => rfl
  simp only [unpaced, hkept]

end Output

namespace Script

variable [Coordinate α]

theorem run_unpaced (retreat : Option Action) (s : Statement) (scene : Scene α) :
    (s.run retreat scene).2.unpaced = (s.run retreat scene).2 :=
  Output.unpaced_of_deeds ((deed_law retreat).run s scene)

/-! ## What is left of a script -/

/-- The rounds that a loop in progress has left. -/
def Cursor.rounds (c : Cursor) (retreat : Option Action) : Effect α :=
  .all ((Loop.span c.next c.stop).map fun i => iterate c.counter i (runAll retreat c.body))

/-- What a script in progress has left to do. -/
def Execution.remaining (e : Execution) (retreat : Option Action) : Effect α :=
  match e.active with
  | some c => (c.rounds retreat).andThen (runAll retreat e.rest)
  | none => runAll retreat e.rest

/-- What is reached when all that a step has left is done without pauses. -/
def Stepped.completed (s : Stepped α) (retreat : Option Action) : Scene α × Output α :=
  let last := s.execution.remaining retreat s.scene
  (last.1, s.output.unpaced ++ last.2)

theorem completed_after (s : Stepped α) (retreat : Option Action) (earlier : Output α) :
    (s.after earlier).completed retreat =
      ((s.completed retreat).1, earlier.unpaced ++ (s.completed retreat).2) := by
  simp only [Stepped.completed, Stepped.after, Output.unpaced_append, Output.append_assoc]

theorem iterate_unpaced (c : Cursor) (retreat : Option Action) (scene : Scene α) :
    (iterate c.counter c.next (runAll retreat c.body) scene).2.unpaced =
      (iterate c.counter c.next (runAll retreat c.body) scene).2 :=
  Output.unpaced_of_deeds
    ((deed_law retreat).iterate c.counter c.next ((deed_law retreat).runAll c.body) scene)

theorem Cursor.rounds_eq_andThen {c next : Cursor} (retreat : Option Action)
    (h : c.advance? = some next) :
    (c.rounds retreat : Effect α) =
      (iterate c.counter c.next (runAll retreat c.body)).andThen (next.rounds retreat) := by
  unfold advance? at h
  split at h
  · cases h
    simp only [rounds, Loop.span_eq_cons c.next_lt_stop, List.map_cons, Effect.all]
  · cases h

theorem Cursor.rounds_eq_last {c : Cursor} (retreat : Option Action) (h : c.advance? = none) :
    (c.rounds retreat : Effect α) = iterate c.counter c.next (runAll retreat c.body) := by
  unfold advance? at h
  split at h
  · cases h
  · rename_i hlast
    have hnil := Loop.span_eq_nil (Int64.not_lt.mp hlast)
    simp only [rounds, Loop.span_eq_cons c.next_lt_stop, hnil, List.map_cons, List.map_nil,
      Effect.all, Effect.andThen_skip]

/-- A round and what comes after it are what the loop and the rest of the script had left. -/
theorem completed_turn (c : Cursor) (retreat : Option Action) (delay : Duration)
    (rest : List Statement) (goOn : Scene α → Stepped α) (scene : Scene α)
    (hgo : ∀ scene, (goOn scene).completed retreat = runAll retreat rest scene) :
    (c.turn retreat delay rest goOn scene).completed retreat =
      (c.rounds retreat).andThen (runAll retreat rest) scene := by
  have hround := iterate_unpaced c retreat scene
  unfold Cursor.turn
  dsimp only
  split
  · rename_i next hnext
    rw [Cursor.rounds_eq_andThen retreat hnext, Effect.andThen_assoc]
    simp only [Stepped.completed, Execution.remaining, Output.unpaced_append_pacing, hround]
    rfl
  · rename_i hlast
    rw [Cursor.rounds_eq_last retreat hlast, completed_after, hgo, hround]
    rfl

theorem completed_stepAll (retreat : Option Action) (delay : Duration)
    (script : List Statement) :
    ∀ scene : Scene α,
      (stepAll retreat delay script scene).completed retreat = runAll retreat script scene := by
  induction script with
  | nil => intro scene; rfl
  | cons s rest ih =>
      intro scene
      have hs := run_unpaced retreat s scene
      cases s with
      | loop counter first stop body =>
          simp only [stepAll]
          split
          · rename_i hentry
            -- the loop is opened and its rounds follow, which is how the statement runs
            rw [completed_after, completed_turn _ retreat delay rest _ _ ih]
            simp only [runAll, Statement.run, hentry, Effect.andThen_assoc]
            rfl
          · rw [completed_after, ih, hs]
            rfl
      | assign | act | branch | unrecognized | malformedLoop =>
          simp only [stepAll]
          rw [completed_after, ih, hs]
          rfl

/-- A step does the first part of what was left and leaves the rest. -/
theorem completed_step (e : Execution) (retreat : Option Action) (delay : Duration)
    (scene : Scene α) :
    (e.step retreat delay scene).completed retreat = e.remaining retreat scene := by
  obtain ⟨active, rest⟩ := e
  cases active with
  | some c => exact completed_turn c retreat delay rest _ scene (completed_stepAll retreat delay rest)
  | none => exact completed_stepAll retreat delay rest scene

theorem StatementLaw.remaining {retreat : Option Action} {P : Effect α → Prop}
    (h : StatementLaw retreat P) (e : Execution) : P (e.remaining retreat) := by
  obtain ⟨active, rest⟩ := e
  cases active with
  | none => exact h.runAll rest
  | some c =>
      refine h.andThen (h.all ?_) (h.runAll rest)
      intro a ha
      obtain ⟨i, -, rfl⟩ := List.mem_map.mp ha
      exact h.iterate c.counter i (h.runAll c.body)

theorem events_step (e : Execution) (retreat : Option Action) (delay : Duration)
    (scene : Scene α) :
    ∀ event ∈ (e.step retreat delay scene).output.events,
      event.isDeed = true ∨ event.isPacing = true := by
  intro event hevent
  by_cases hpacing : event.isPacing = true
  · exact .inr hpacing
  · refine .inl ((deed_law retreat).remaining e scene event ?_)
    rw [← completed_step e retreat delay scene]
    have hkept : event ∈ (e.step retreat delay scene).output.unpaced.events :=
      List.mem_filter.mpr ⟨hevent, by simpa using hpacing⟩
    exact List.mem_append_left _ hkept

/-! ## Whole runs -/

theorem finished_turn (c : Cursor) (retreat : Option Action) (delay : Duration)
    (rest : List Statement) (goOn : Scene α → Stepped α) (scene : Scene α)
    (hgo : ∀ scene, (goOn scene).status = .finished → (goOn scene).execution = .start [])
    (h : (c.turn retreat delay rest goOn scene).status = .finished) :
    (c.turn retreat delay rest goOn scene).execution = .start [] := by
  unfold Cursor.turn at h ⊢
  dsimp only at h ⊢
  split at h
  · cases h
  · exact hgo _ h

theorem finished_stepAll (retreat : Option Action) (delay : Duration)
    (script : List Statement) :
    ∀ scene : Scene α, (stepAll retreat delay script scene).status = .finished →
      (stepAll retreat delay script scene).execution = .start [] := by
  induction script with
  | nil => intro scene _; rfl
  | cons s rest ih =>
      intro scene h
      cases s with
      | loop counter first stop body =>
          simp only [stepAll] at h ⊢
          split at h
          · rename_i hentry
            simp only [hentry, dif_pos, status_after, execution_after] at h ⊢
            exact finished_turn _ retreat delay rest _ _ ih h
          · rename_i hentry
            simp only [hentry, dif_neg, not_false_iff, status_after, execution_after] at h ⊢
            exact ih _ h
      | assign | act | branch | unrecognized | malformedLoop =>
          simp only [stepAll, status_after, execution_after] at h ⊢
          exact ih _ h

theorem finished_step (e : Execution) (retreat : Option Action) (delay : Duration)
    (scene : Scene α) (h : (e.step retreat delay scene).status = .finished) :
    (e.step retreat delay scene).execution = .start [] := by
  obtain ⟨active, rest⟩ := e
  cases active with
  | some c =>
      exact finished_turn c retreat delay rest _ scene (finished_stepAll retreat delay rest) h
  | none => exact finished_stepAll retreat delay rest scene h

/-- Whatever its delays, a run comes to its end, and by then it has done all that was left. -/
theorem runThrough_completes (e : Execution) (retreat : Option Action)
    (delays : Nat → Duration) (scene : Scene α) :
    (e.runThrough retreat delays scene).status = .finished ∧
      (e.runThrough retreat delays scene).execution = .start [] ∧
      (e.runThrough retreat delays scene).completed retreat = e.remaining retreat scene := by
  refine Execution.runThrough.induct retreat
    (fun e delays scene =>
      (e.runThrough retreat delays scene).status = .finished ∧
        (e.runThrough retreat delays scene).execution = .start [] ∧
        (e.runThrough retreat delays scene).completed retreat = e.remaining retreat scene)
    ?finished ?paused e delays scene
  case finished =>
    intro e delays scene stepped hfinished
    rw [Execution.runThrough_of_finished hfinished]
    exact ⟨hfinished, finished_step e retreat (delays 0) scene hfinished,
      completed_step e retreat (delays 0) scene⟩
  case paused =>
    intro e delays scene stepped delay hpaused ih
    obtain ⟨hstatus, hexecution, hcompleted⟩ := ih
    rw [Execution.runThrough_of_paused hpaused]
    refine ⟨hstatus, hexecution, ?_⟩
    rw [completed_after, hcompleted]
    exact completed_step e retreat (delays 0) scene

/-- A run that is over, at the scene and with the output that an effect leaves behind an earlier
output. The events of pauses are left aside. -/
structure Stepped.Ends (s : Stepped α) (earlier : Output α) (plain : Scene α × Output α) :
    Prop where
  status : s.status = .finished
  isFinished : s.execution.isFinished = true
  scene : s.scene = plain.1
  trace : s.output.trace = earlier.trace ++ plain.2.trace
  issues : s.output.issues = earlier.issues ++ plain.2.issues
  events : (s.output.events.filter fun e => !e.isPacing) =
    (earlier.events.filter fun e => !e.isPacing) ++ plain.2.events

theorem runThrough_ends (e : Execution) (retreat : Option Action) (delays : Nat → Duration)
    (scene : Scene α) (earlier : Output α) :
    ((e.runThrough retreat delays scene).after earlier).Ends earlier
      (e.remaining retreat scene) := by
  obtain ⟨hstatus, hexecution, hcompleted⟩ := runThrough_completes e retreat delays scene
  generalize e.runThrough retreat delays scene = last at hstatus hexecution hcompleted
  have hplain : last.completed retreat = (last.scene, last.output.unpaced) := by
    simp only [Stepped.completed, hexecution, Execution.remaining, Execution.start, runAll,
      Effect.skip, Output.append_empty]
  rw [← hcompleted, hplain]
  refine ⟨hstatus, ?_, rfl, rfl, rfl, ?_⟩
  · rw [execution_after, hexecution]
    rfl
  · simp only [Stepped.after, Output.unpaced, Output.events_append, List.filter_append]

/-- A script run in steps, whatever the delays of its pauses, ends as its statements do one after
the other; so does a script run to its end without waiting. -/
theorem paced_run_refines_plain_run (retreat : Option Action) (script : List Statement)
    (scene : Scene α) (earlier : Output α) :
    (∀ delays : Nat → Duration,
      (((Execution.start script).runThrough retreat delays scene).after earlier).Ends earlier
        (runAll retreat script scene)) ∧
    (((Execution.start script).runToEnd retreat scene).after earlier).Ends earlier
      (runAll retreat script scene) :=
  have hall := fun delays =>
    runThrough_ends (.start script) retreat delays scene earlier
  ⟨hall, hall fun _ => .zero⟩

end Script

end Playscript
