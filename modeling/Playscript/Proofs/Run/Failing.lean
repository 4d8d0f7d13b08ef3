import Playscript.Proofs.Run.Techniques
import Playscript.Proofs.Run.Unrolling
/-! Statements that fail or are skipped. Such a statement leaves the scene as it is and tells of no
event; if it fails, its one issue is the next line of the trace. So a script without them, left out at
the points where they come to nothing, does the same. -/
namespace Playscript

variable {α : Type}

/-- All issues stand in the trace with their messages, in order. -/
def Output.TellsIssues (o : Output α) : Prop :=
  (o.issues.map Issue.message).Sublist o.trace

theorem Output.TellsIssues.append {a b : Output α} (ha : a.TellsIssues) (hb : b.TellsIssues) :
    (a ++ b).TellsIssues := by
  rw [TellsIssues, issues_append, trace_append, List.map_append]
  exact List.Sublist.append ha hb

theorem Output.TellsIssues.of_no_issues {o : Output α} (h : o.issues = []) : o.TellsIssues := by
  rw [TellsIssues, h]
  exact List.nil_sublist _

namespace Script

/-! ## Failing and being skipped -/

/-- In this scene the statement cannot be carried out, for the reason that the issue gives. -/
inductive Statement.Fails (scene : Scene α) : Statement → Issue → Prop
  | unrecognized (text : String) (line : Nat) (reason : String) :
      Fails scene (.unrecognized text line reason) (.unrecognized text line)
  | malformedLoop (header : String) (line : Nat) (reason : String) :
      Fails scene (.malformedLoop header line reason) (.malformedLoop header reason)
  | longLoop (counter : String) {first stop : Int64} (body : List Statement) :
      100 < stop.toInt - first.toInt →
      Fails scene (.loop counter first stop body)
        (.malformedLoop (loopHeader counter first stop) "loops are limited to 100 iterations")
  | missingArgument : Fails scene (.act .setSpeed none) (.missingArgument .setSpeed)
  | undefinedVariable {name : String} : scene.bindings.get? name = none →
      Fails scene (.act .setSpeed (some (.named name))) (.undefinedVariable name)
  | variableOutOfRange {name : String} {value : Int64} : scene.bindings.get? name = some value →
      ¬ (1 ≤ value.toInt ∧ value.toInt ≤ 20) →
      Fails scene (.act .setSpeed (some (.named name))) (.outOfRange value)
  | literalOutOfRange {value : Int64} : ¬ (1 ≤ value.toInt ∧ value.toInt ≤ 20) →
      Fails scene (.act .setSpeed (some (.literal value))) (.outOfRange value)
  | unknownCondition {condition : String} (body : List Statement) :
      scene.world.condition? condition = none →
      Fails scene (.branch condition body) (.unknownCondition condition)

/-- In this scene the statement is a block under a condition that is known to be false. -/
inductive Statement.IsSkipped (scene : Scene α) : Statement → Prop
  | mk {condition : String} (body : List Statement) :
      scene.world.condition? condition = some false → IsSkipped scene (.branch condition body)

/-- In this scene the statement comes to nothing. -/
def Statement.IsIdle (scene : Scene α) (s : Statement) : Prop :=
  (∃ issue, s.Fails scene issue) ∨ s.IsSkipped scene

theorem isSpeed_eq_false {value : Int64} (h : ¬ (1 ≤ value.toInt ∧ value.toInt ≤ 20)) :
    isSpeed value = false := by
  have hlow : (minSpeed : Int64).toInt = 1 := rfl
  have hhigh : (maxSpeed : Int64).toInt = 20 := rfl
  rw [← hlow, ← hhigh, ← Int64.le_iff_toInt_le, ← Int64.le_iff_toInt_le] at h
  rw [isSpeed, Bool.and_eq_false_iff, decide_eq_false_iff_not, decide_eq_false_iff_not]
  exact not_and_or.mp h

theorem setSpeed_of_error {argument : Option Argument} {scene : Scene α} {issue : Issue}
    (h : Argument.value? scene.bindings argument = .error issue) :
    setSpeed argument scene = (scene, .issue issue) := by
  rw [setSpeed, h]

theorem setSpeed_of_outOfRange {argument : Option Argument} {scene : Scene α} {value : Int64}
    (h : Argument.value? scene.bindings argument = .ok value)
    (hvalue : ¬ (1 ≤ value.toInt ∧ value.toInt ≤ 20)) :
    setSpeed argument scene = (scene, .issue (.outOfRange value)) := by
  rw [setSpeed, h]
  dsimp only
  rw [isSpeed_eq_false hvalue, if_neg Bool.false_ne_true]

theorem entry_of_long {first stop : Int64} (h : 100 < stop.toInt - first.toInt) :
    Loop.entry first stop = .tooLong := by
  rw [Loop.entry, if_pos (Loop.lt_saturatingSub_iff.mpr h)]

variable [Coordinate α] {s : Statement} {scene : Scene α}

/-- A statement that fails changes nothing and has one issue, whose message is the next line. -/
theorem run_of_fails (retreat : Option Action) {issue : Issue} (h : s.Fails scene issue) :
    ∃ later, s.run retreat scene = (scene, ⟨issue.message :: later, [issue], []⟩) := by
  cases h with
  | unrecognized text line reason => exact ⟨[], rfl⟩
  | malformedLoop header line reason => exact ⟨[], rfl⟩
  | longLoop counter body hlong =>
      rw [Statement.run, entry_of_long hlong]
      exact ⟨[], rfl⟩
  | missingArgument => exact ⟨[], rfl⟩
  | @undefinedVariable name hname =>
      have hvalue : Argument.value? scene.bindings (some (.named name)) =
          .error (.undefinedVariable name) := by
        rw [Argument.value?, hname]
      exact ⟨[], setSpeed_of_error hvalue⟩
  | @variableOutOfRange name value hname hrange =>
      have hvalue : Argument.value? scene.bindings (some (.named name)) = .ok value := by
        rw [Argument.value?, hname]
      exact ⟨[], setSpeed_of_outOfRange hvalue hrange⟩
  | @literalOutOfRange value hrange =>
      have hvalue : Argument.value? scene.bindings (some (.literal value)) = .ok value := rfl
      exact ⟨[], setSpeed_of_outOfRange hvalue hrange⟩
  | unknownCondition body hcondition =>
      rw [Statement.run, branch, hcondition]
      exact ⟨["Condition is false, skipping if block"], rfl⟩

/-- A statement that is skipped adds to the trace and does nothing else. -/
theorem run_of_skipped (retreat : Option Action) (h : s.IsSkipped scene) :
    ∃ lines, s.run retreat scene = (scene, ⟨lines, [], []⟩) := by
  obtain ⟨body, hcondition⟩ := h
  rw [Statement.run, branch, hcondition]
  exact ⟨_, rfl⟩

theorem run_of_idle (retreat : Option Action) (h : s.IsIdle scene) :
    (s.run retreat scene).1 = scene ∧ (s.run retreat scene).2.events = [] := by
  rcases h with ⟨issue, hfails⟩ | hskipped
  · obtain ⟨later, hrun⟩ := run_of_fails retreat hfails
    rw [hrun]
    exact ⟨rfl, rfl⟩
  · obtain ⟨lines, hrun⟩ := run_of_skipped retreat hskipped
    rw [hrun]
    exact ⟨rfl, rfl⟩

omit [Coordinate α] in
theorem entersLoop_of_idle (h : s.IsIdle scene) : s.entersLoop = false := by
  rcases h with ⟨issue, hfails⟩ | ⟨body, hcondition⟩
  · cases hfails with
    | longLoop counter body hlong =>
        rw [Statement.entersLoop, entry_of_long hlong]
        rfl
    | _ => rfl
  · rfl

/-! ## Issues in the trace -/

omit [Coordinate α] in
theorem tellsIssues_branch (condition : String) (body : List Statement) {block : Effect α}
    (hblock : ∀ scene, (block scene).2.TellsIssues) (scene : Scene α) :
    (branch retreat condition body block scene).2.TellsIssues := by
  unfold branch
  split
  · exact .append (List.Sublist.refl _) (.of_no_issues rfl)
  · exact .of_no_issues rfl
  · exact .append (.of_no_issues rfl) (hblock _)

omit [Coordinate α] in
theorem tellsIssues_setSpeed (argument : Option Argument) (scene : Scene α) :
    (setSpeed argument scene).2.TellsIssues := by
  unfold setSpeed
  split
  · exact List.Sublist.refl _
  · split
    · dsimp only
      split <;> exact .of_no_issues rfl
    · exact List.Sublist.refl _

theorem tellsIssues_law (retreat : Option Action) :
    StatementLaw (α := α) retreat fun a => ∀ scene, (a scene).2.TellsIssues where
  skip := fun _ => .of_no_issues rfl
  andThen := fun ha hb scene => (ha scene).append (hb _)
  line := fun _ _ => .of_no_issues rfl
  issue := fun _ _ => List.Sublist.refl _
  assign := fun _ _ _ => .of_no_issues rfl
  perform := by
    intro action argument scene
    cases action with
    | setSpeed => exact tellsIssues_setSpeed argument scene
    | moveLeft | moveRight | moveBack | jump | shoot => exact .of_no_issues rfl
  branch := fun condition body _ => tellsIssues_branch condition body
  openLoop := fun _ _ _ _ _ => .of_no_issues rfl

theorem tellsIssues_step (e : Execution) (retreat : Option Action) (delay : Duration)
    (scene : Scene α) : (e.step retreat delay scene).output.TellsIssues :=
  (tellsIssues_law retreat).step (fun _ _ => .of_no_issues rfl) e scene

/-! ## Runs with something else at their pauses -/

variable {retreat : Option Action}

/-- Runs to the end, over all the pauses. At each of them the scene is changed from outside before
the run goes on. -/
def Execution.runAmid (e : Execution) (retreat : Option Action) (delays : Nat → Duration)
    (changes : Nat → Scene α → Scene α) (scene : Scene α) : Stepped α :=
  let stepped := e.step retreat (delays 0) scene
  match _h : stepped.status with
  | .finished => stepped
  | .paused _ =>
      (stepped.execution.runAmid retreat (fun n => delays (n + 1)) (fun n => changes (n + 1))
        (changes 0 stepped.scene)).after stepped.output
termination_by e.pauses
decreasing_by
  have := e.pauses_step retreat (delays 0) _ scene _h
  omega

theorem runAmid_of_finished {e : Execution} {delays : Nat → Duration}
    {changes : Nat → Scene α → Scene α}
    (h : (e.step retreat (delays 0) scene).status = .finished) :
    e.runAmid retreat delays changes scene = e.step retreat (delays 0) scene := by
  rw [Execution.runAmid]
  split
  · rfl
  · rename_i hpaused
    rw [h] at hpaused
    cases hpaused

theorem runAmid_of_paused {e : Execution} {delays : Nat → Duration}
    {changes : Nat → Scene α → Scene α} {d : Duration}
    (h : (e.step retreat (delays 0) scene).status = .paused d) :
    e.runAmid retreat delays changes scene =
      ((e.step retreat (delays 0) scene).execution.runAmid retreat (fun n => delays (n + 1))
        (fun n => changes (n + 1)) (changes 0 (e.step retreat (delays 0) scene).scene)).after
        (e.step retreat (delays 0) scene).output := by
  rw [Execution.runAmid]
  split
  · rename_i hfinished
    rw [h] at hfinished
    cases hfinished
  · rfl

/-- What is done before a step is done before the run that begins with it. -/
theorem runAmid_after {e f : Execution} {delays : Nat → Duration}
    {changes : Nat → Scene α → Scene α} {later : Scene α} {done : Output α}
    (h : e.step retreat (delays 0) scene = (f.step retreat (delays 0) later).after done) :
    e.runAmid retreat delays changes scene =
      (f.runAmid retreat delays changes later).after done := by
  have hstatus := congrArg Stepped.status h
  rw [status_after] at hstatus
  cases hf : (f.step retreat (delays 0) later).status with
  | finished => rw [runAmid_of_finished (hstatus.trans hf), runAmid_of_finished hf, h]
  | paused d =>
      rw [runAmid_of_paused (hstatus.trans hf), runAmid_of_paused hf, h]
      simp only [Stepped.after, Output.append_assoc]

theorem runAmid_unchanged (e : Execution) (delays : Nat → Duration) (scene : Scene α) :
    e.runAmid retreat delays (fun _ => id) scene = e.runThrough retreat delays scene := by
  refine Execution.runThrough.induct retreat
    (fun e delays scene =>
      e.runAmid retreat delays (fun _ => id) scene = e.runThrough retreat delays scene)
    ?finished ?paused e delays scene
  case finished =>
    intro e delays scene stepped hfinished
    rw [runAmid_of_finished hfinished, Execution.runThrough_of_finished hfinished]
  case paused =>
    intro e delays scene stepped delay hpaused ih
    rw [runAmid_of_paused hpaused, Execution.runThrough_of_paused hpaused]
    exact congrArg (Stepped.after · _) ih

theorem tellsIssues_runAmid (e : Execution) (delays : Nat → Duration)
    (changes : Nat → Scene α → Scene α) (scene : Scene α) :
    (e.runAmid retreat delays changes scene).output.TellsIssues := by
  have hstep := tellsIssues_step e retreat (delays 0) scene
  cases hstatus : (e.step retreat (delays 0) scene).status with
  | finished =>
      rw [runAmid_of_finished hstatus]
      exact hstep
  | paused d =>
      rw [runAmid_of_paused hstatus]
      exact hstep.append (tellsIssues_runAmid _ _ _ _)
termination_by e.pauses
decreasing_by
  have := e.pauses_step retreat (delays 0) _ scene hstatus
  omega

/-! ## Scripts without their idle statements -/

/-- The second script is the first without some of the statements that come to nothing at the points
where they are reached from a scene. -/
inductive Omits (retreat : Option Action) : Scene α → List Statement → List Statement → Prop
  | nil (scene : Scene α) : Omits retreat scene [] []
  | keep {s : Statement} {rest kept : List Statement} {scene : Scene α} :
      Omits retreat (s.run retreat scene).1 rest kept →
      Omits retreat scene (s :: rest) (s :: kept)
  | drop {s : Statement} {rest kept : List Statement} {scene : Scene α} :
      s.IsIdle scene → Omits retreat scene rest kept → Omits retreat scene (s :: rest) kept

theorem runAll_of_omits {script kept : List Statement} (h : Omits retreat scene script kept) :
    (runAll retreat kept scene).1 = (runAll retreat script scene).1 ∧
      (runAll retreat kept scene).2.events = (runAll retreat script scene).2.events := by
  induction h with
  | nil scene => exact ⟨rfl, rfl⟩
  | @keep s rest kept scene _ ih => exact ⟨ih.1, congrArg ((s.run retreat scene).2.events ++ ·) ih.2⟩
  | @drop s rest kept scene hidle _ ih =>
      obtain ⟨hscene, hevents⟩ := run_of_idle retreat hidle
      have hscript : (runAll retreat (s :: rest) scene).1 = (runAll retreat rest scene).1 ∧
          (runAll retreat (s :: rest) scene).2.events = (runAll retreat rest scene).2.events := by
        simp only [runAll, Effect.andThen, Output.events_append, hscene, hevents, List.nil_append,
          and_self]
      exact ⟨ih.1.trans hscript.1.symm, ih.2.trans hscript.2.symm⟩

/-- The same of scripts in progress whose scene is changed from outside at their pauses. -/
inductive Execution.Omits (retreat : Option Action) :
    (Nat → Scene α → Scene α) → Scene α → Execution → Execution → Prop
  | done (changes : Nat → Scene α → Scene α) (scene : Scene α) :
      Omits retreat changes scene (.start []) (.start [])
  | keep {changes : Nat → Scene α → Scene α} {s : Statement} {rest kept : List Statement}
      {scene : Scene α} : s.entersLoop = false →
      Omits retreat changes (s.run retreat scene).1 (.start rest) (.start kept) →
      Omits retreat changes scene (.start (s :: rest)) (.start (s :: kept))
  | drop {changes : Nat → Scene α → Scene α} {s : Statement} {rest : List Statement}
      {kept : Execution} {scene : Scene α} : s.IsIdle scene →
      Omits retreat changes scene (.start rest) kept →
      Omits retreat changes scene (.start (s :: rest)) kept
  | opened {changes : Nat → Scene α → Scene α} {c : Cursor} {rest kept : List Statement}
      {scene : Scene α} : Loop.entry c.next c.stop = .entered →
      Omits retreat changes (c.opening scene).1 ⟨some c, rest⟩ ⟨some c, kept⟩ →
      Omits retreat changes scene (.start (c.statement :: rest)) (.start (c.statement :: kept))
  | lastRound {changes : Nat → Scene α → Scene α} {c : Cursor} {rest kept : List Statement}
      {scene : Scene α} : c.advance? = none →
      Omits retreat changes (c.round retreat scene).1 (.start rest) (.start kept) →
      Omits retreat changes scene ⟨some c, rest⟩ ⟨some c, kept⟩
  | paused {changes : Nat → Scene α → Scene α} {c next : Cursor} {rest kept : List Statement}
      {scene : Scene α} : c.advance? = some next →
      Omits retreat (fun n => changes (n + 1)) (changes 0 (c.round retreat scene).1)
        ⟨some next, rest⟩ ⟨some next, kept⟩ →
      Omits retreat changes scene ⟨some c, rest⟩ ⟨some c, kept⟩

/-- Both steps end in the same scene and tell of the same events. -/
def Stepped.Agrees (a b : Stepped α) : Prop :=
  a.scene = b.scene ∧ a.output.events = b.output.events

omit [Coordinate α] in
theorem Stepped.Agrees.after {a b : Stepped α} (h : a.Agrees b) {first second : Output α}
    (hevents : first.events = second.events) : (a.after first).Agrees (b.after second) := by
  refine ⟨h.1, ?_⟩
  simp only [Stepped.after, Output.events_append, hevents, h.2]

theorem runAmid_of_omits {changes : Nat → Scene α → Scene α} {e kept : Execution}
    (h : Execution.Omits retreat changes scene e kept) (delays : Nat → Duration) :
    (kept.runAmid retreat delays changes scene).Agrees
      (e.runAmid retreat delays changes scene) := by
  induction h generalizing delays with
  | done changes scene => exact ⟨rfl, rfl⟩
  | @keep changes s rest kept scene hs _ ih =>
      rw [runAmid_after (step_statement retreat _ scene hs),
        runAmid_after (step_statement retreat _ scene hs)]
      exact (ih delays).after rfl
  | @drop changes s rest kept scene hidle _ ih =>
      obtain ⟨hscene, hevents⟩ := run_of_idle retreat hidle
      rw [runAmid_after (step_statement retreat _ scene (entersLoop_of_idle hidle)), hscene]
      refine ⟨(ih delays).1, ?_⟩
      rw [Stepped.after, Output.events_append, hevents]
      exact (ih delays).2
  | opened hentry _ ih =>
      rw [runAmid_after (step_opened retreat _ _ hentry),
        runAmid_after (step_opened retreat _ _ hentry)]
      exact (ih delays).after rfl
  | lastRound hlast _ ih =>
      rw [runAmid_after (step_lastRound retreat _ _ hlast),
        runAmid_after (step_lastRound retreat _ _ hlast)]
      exact (ih delays).after rfl
  | @paused changes c next rest kept scene hnext _ ih =>
      have hpaused (own : List Statement) :=
        step_paused retreat (delays 0) scene own hnext
      have hstatus (own : List Statement) := congrArg Stepped.status (hpaused own)
      rw [runAmid_of_paused (hstatus rest), runAmid_of_paused (hstatus kept), hpaused, hpaused]
      exact (ih fun n => delays (n + 1)).after rfl

/-! ## Runs without idle statements at any depth -/

/-- To run a script from the first scene, but for some of the statements, at any depth and in any
round, that come to nothing there, leads to the last scene and tells of these events. -/
inductive Spares (retreat : Option Action) :
    Scene α → List Statement → Scene α → List (Event α) → Prop
  | done (scene : Scene α) : Spares retreat scene [] scene []
  | spared {s : Statement} {rest : List Statement} {scene last : Scene α}
      {events : List (Event α)} : s.IsIdle scene → Spares retreat scene rest last events →
      Spares retreat scene (s :: rest) last events
  | whole {s : Statement} {rest : List Statement} {scene last : Scene α}
      {events : List (Event α)} : Spares retreat (s.run retreat scene).1 rest last events →
      Spares retreat scene (s :: rest) last ((s.run retreat scene).2.events ++ events)
  | block {condition : String} {body rest : List Statement} {scene middle last : Scene α}
      {told events : List (Event α)} : scene.world.condition? condition = some true →
      Spares retreat (taken retreat body scene) body middle told →
      Spares retreat middle rest last events →
      Spares retreat scene (.branch condition body :: rest) last (told ++ events)
  | rounds {counter : String} {first stop : Int64} {body rest : List Statement}
      {scene middle last : Scene α} {told events : List (Event α)} :
      Loop.entry first stop = .entered →
      Spares retreat (openLoop counter first stop body scene).1
        (unrolled body (stop.toInt - first.toInt).toNat) middle told →
      Spares retreat middle rest last events →
      Spares retreat scene (.loop counter first stop body :: rest) last (told ++ events)

theorem runAll_of_spares {script : List Statement} {last : Scene α} {events : List (Event α)}
    (h : Spares retreat scene script last events) :
    (runAll retreat script scene).1 = last ∧ (runAll retreat script scene).2.events = events := by
  induction h with
  | done scene => exact ⟨rfl, rfl⟩
  | @spared s rest scene last events hidle _ ih =>
      obtain ⟨hscene, hevents⟩ := run_of_idle retreat hidle
      simp only [runAll, Effect.andThen, Output.events_append, hscene, hevents, List.nil_append]
      exact ih
  | @whole s rest scene last events _ ih =>
      exact ⟨ih.1, congrArg ((s.run retreat scene).2.events ++ ·) ih.2⟩
  | @block condition body rest scene middle last told events hcondition _ _ hbody hrest =>
      have hscene : ((Statement.branch condition body).run retreat scene).1 = middle := by
        rw [Statement.run, branch_scene, if_pos hcondition, hbody.1]
      have hevents : ((Statement.branch condition body).run retreat scene).2.events = told := by
        rw [Statement.run, events_branch, if_pos hcondition, hbody.2]
      simp only [runAll, Effect.andThen, Output.events_append, hscene, hevents, hrest.1, hrest.2,
        and_self]
  | @rounds counter first stop body rest scene middle last told events hentry _ _ hbody hrest =>
      have hlooped : (Statement.loop counter first stop body).run retreat scene = _ :=
        run_loop_of_entered body hentry scene
      rw [openLoop_eq, (oblivious_law retreat).runAll] at hbody
      have hscene : ((Statement.loop counter first stop body).run retreat scene).1 = middle := by
        rw [hlooped]
        exact hbody.1
      have hevents : ((Statement.loop counter first stop body).run retreat scene).2.events =
          told := by
        rw [hlooped]
        exact hbody.2
      simp only [runAll, Effect.andThen, Output.events_append, hscene, hevents, hrest.1, hrest.2,
        and_self]

/-! ## Nothing comes of them -/

/-- A statement that fails changes nothing, tells of no event and has one issue, whose message is the
next line of the trace; a block under a false condition only adds to the trace. So the messages of
all issues stand in the trace, in order; and scene and events are the same when such statements are
left out where they are reached: from a script, with whatever changes the scene at its pauses, or at
any depth. -/
theorem idle_statements_change_nothing (retreat : Option Action) :
    (∀ (s : Statement) (scene : Scene α) (issue : Issue), s.Fails scene issue →
      ∃ later, s.run retreat scene = (scene, ⟨issue.message :: later, [issue], []⟩)) ∧
    (∀ (s : Statement) (scene : Scene α), s.IsSkipped scene →
      ∃ lines, s.run retreat scene = (scene, ⟨lines, [], []⟩)) ∧
    (∀ (script : List Statement) (scene : Scene α),
      (runAll retreat script scene).2.TellsIssues) ∧
    (∀ (e : Execution) (delay : Duration) (scene : Scene α),
      (e.step retreat delay scene).output.TellsIssues) ∧
    (∀ (e : Execution) (delays : Nat → Duration) (changes : Nat → Scene α → Scene α)
      (scene : Scene α), (e.runAmid retreat delays changes scene).output.TellsIssues) ∧
    (∀ (scene : Scene α) (script kept : List Statement), Omits retreat scene script kept →
      (runAll retreat kept scene).1 = (runAll retreat script scene).1 ∧
        (runAll retreat kept scene).2.events = (runAll retreat script scene).2.events) ∧
    (∀ (changes : Nat → Scene α → Scene α) (scene : Scene α) (e kept : Execution),
      Execution.Omits retreat changes scene e kept → ∀ delays : Nat → Duration,
        (kept.runAmid retreat delays changes scene).Agrees
          (e.runAmid retreat delays changes scene)) ∧
    (∀ (e : Execution) (delays : Nat → Duration) (scene : Scene α),
      e.runAmid retreat delays (fun _ => id) scene = e.runThrough retreat delays scene) ∧
    ∀ (scene : Scene α) (script : List Statement) (last : Scene α) (events : List (Event α)),
      Spares retreat scene script last events →
        (runAll retreat script scene).1 = last ∧
          (runAll retreat script scene).2.events = events :=
  ⟨fun _ _ _ => run_of_fails retreat, fun _ _ => run_of_skipped retreat,
    (tellsIssues_law retreat).runAll, fun e => tellsIssues_step e retreat, tellsIssues_runAmid,
    fun _ _ _ => runAll_of_omits, fun _ _ _ _ => runAmid_of_omits, runAmid_unchanged,
    fun _ _ _ _ => runAll_of_spares⟩

/-- The untouched scene with the enemy near. -/
def approached : Scene Float :=
  { untouched with world := (untouched.world.withEnemyNear? true).getD untouched.world }

def withdraw (scene : Scene Float) : Scene Float :=
  { scene with world := (scene.world.withEnemyNear? false).getD scene.world }

def jumpRounds : Statement :=
  .loop "i" 0 2 [.act .setSpeed none, .act .jump none]

def shootIfNear : Statement :=
  .branch "enemyNear" [.act .shoot none]

/-- The enemy is near when the script begins, and gone when it is asked about. -/
theorem idle_statements_change_nothing_withdrawn :
    let script := [jumpRounds, shootIfNear, .act .jump none]
    let kept := [jumpRounds, .act .jump none]
    let delays : Nat → Duration := fun _ => .zero
    (Statement.act .setSpeed none).Fails untouched (.missingArgument .setSpeed) ∧
      shootIfNear.IsSkipped untouched ∧
      ((Statement.act .setSpeed none).run none untouched).1 = untouched ∧
      (shootIfNear.run none untouched).2.issues = [] ∧
      (runAll none kept untouched).1 = (runAll none script untouched).1 ∧
      ((Execution.start kept).runAmid none delays (fun _ => withdraw) approached).Agrees
        ((Execution.start script).runAmid none delays (fun _ => withdraw) approached) ∧
      ∃ jumps, (runAll none script untouched).2.events = jumps ∧ jumps.length = 3 := by
  intro script kept delays
  have hmissing (scene : Scene Float) :
      (Statement.act .setSpeed none).Fails scene (.missingArgument .setSpeed) := .missingArgument
  have haway : shootIfNear.IsSkipped untouched := .mk _ rfl
  have homits : Omits none untouched script kept :=
    .keep (.drop (.inr (.mk _ rfl)) (.keep (.nil _)))
  have hamid : Execution.Omits none (fun _ => withdraw) approached (.start script)
      (.start kept) := by
    refine .opened (c := ⟨"i", _, 0, 2, by decide⟩) (by decide) (.paused rfl (.lastRound rfl ?_))
    exact .drop (.inr (.mk _ rfl)) (.keep rfl (.done _ _))
  have hspares : ∃ last jumps, Spares none untouched script last jumps ∧ jumps.length = 3 := by
    have hround {rest : List Statement} {scene last : Scene Float} {jumps : List (Event Float)}
        (hrest : Spares none ((Statement.act .jump none).run none scene).1 rest last jumps) :=
      Spares.spared (.inl ⟨_, hmissing scene⟩) (.whole hrest)
    refine ⟨_, _, .rounds (by decide) (hround (hround (.done _)))
      (.spared (.inr (.mk _ ?_)) (.whole (.done _))), ?_⟩
    · rfl
    · rfl
  obtain ⟨hfail, hskip, -, -, -, hlist, hpaced, -, hdeep⟩ :=
    idle_statements_change_nothing (α := Float) none
  obtain ⟨later, hfailed⟩ := hfail _ untouched _ (hmissing untouched)
  obtain ⟨lines, hskipped⟩ := hskip _ untouched haway
  obtain ⟨last, jumps, hrun, hjumps⟩ := hspares
  exact ⟨hmissing untouched, haway, congrArg Prod.fst hfailed,
    congrArg (fun done => done.2.issues) hskipped, (hlist _ _ _ homits).1,
    hpaced _ _ _ _ hamid delays, jumps, (hdeep _ _ _ _ hrun).2, hjumps⟩

end Script

end Playscript
