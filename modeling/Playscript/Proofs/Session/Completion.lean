import Playscript.Proofs.Session.Attempt
import Playscript.Proofs.Session.History
/-! When a level is completed. A run that ends is judged on the scene that its script leaves, after
the penalty; nothing else but a reset has a say in whether the level is completed. -/
namespace Playscript

variable {α : Type} [Coordinate α]

/-- A scene in which a stage has requirements and all of them hold. -/
def Stage.Achieved (stage : Stage α) (scene : Scene α) : Prop :=
  stage.level.requirements ≠ [] ∧
    ∀ r ∈ stage.level.requirements, r.isMet scene.world scene.techniques = true

theorem Stage.isComplete_iff {stage : Stage α} {scene : Scene α} :
    stage.isComplete scene.world scene.techniques = true ↔ stage.Achieved scene := by
  simp only [isComplete, Level.allMet, Achieved, Bool.and_eq_true, Bool.not_eq_true',
    List.isEmpty_eq_false_iff, List.all_eq_true]

omit [Coordinate α] in
def Event.isCompletion : Event α → Bool
  | .completed => true
  | _ => false

omit [Coordinate α] in
theorem Event.isCompletion_of_deed {e : Event α} (h : e.isDeed = true ∨ e.isPacing = true) :
    e.isCompletion = false := by
  cases e with
  | completed => rcases h with h | h <;> cases h
  | _ => rfl

namespace Session

/-! ## The scene a run is judged on -/

/-- The scene to which the script of a run leads if nothing comes in between. -/
def scriptEnd (s : Session α) (run : ActiveRun α) : Scene α :=
  (run.execution.remaining s.stage.level.retreat s.scene).1

/-- The scene on which a run is judged if it goes on to its end: what its script leaves, after the
penalty. -/
def judged (s : Session α) (run : ActiveRun α) : Scene α :=
  (penalty (s.scriptEnd run)).1

theorem scriptEnd_stepOn (s : Session α) (run : ActiveRun α) :
    (s.stepOn run).scriptEnd (s.runAfter run) = s.scriptEnd run := by
  have hstep := congrArg Prod.fst
    (Script.completed_step run.execution s.stage.level.retreat s.settings.pacing s.scene)
  exact hstep

theorem scene_of_finished {s : Session α} {run : ActiveRun α}
    (h : (s.stepped run).status = .finished) : (s.stepped run).scene = s.scriptEnd run := by
  rw [← scriptEnd_stepOn s run, scriptEnd, runAfter_of_finished h]
  rfl

theorem not_isCompletion_stepped (s : Session α) (run : ActiveRun α) :
    ∀ e ∈ (s.stepped run).output.events, e.isCompletion = false := by
  intro e he
  exact Event.isCompletion_of_deed
    (Script.events_step run.execution s.stage.level.retreat s.settings.pacing s.scene e he)

/-- What a run does not touch while it takes its pauses. -/
structure Undecided (s : Session α) (run : ActiveRun α) (events : List (Event α))
    (last : Session α) (final : ActiveRun α) : Prop where
  stage : last.stage = s.stage
  completed : last.completed = s.completed
  schedule : last.schedule = s.schedule
  scriptEnd : last.scriptEnd final = s.scriptEnd run
  events : ∀ e ∈ events, e.isCompletion = false

theorem pauses_undecided {t : Ticket} {s last : Session α} {events : List (Event α)}
    (hway : Pauses t s events last) {run final : ActiveRun α} (hactive : s.active = some run)
    (hfinal : last.active = some final) : Undecided s run events last final := by
  induction hway generalizing run with
  | none s =>
      have hsame : final = run := Option.some.inj (hfinal.symm.trans hactive)
      subst hsame
      exact ⟨rfl, rfl, rfl, rfl, nofun⟩
  | @more s last own d events hown _ _ _ ih =>
      have hsame : own = run := Option.some.inj (hown.symm.trans hactive)
      subst hsame
      have later := ih rfl hfinal
      refine ⟨later.stage, later.completed, later.schedule, ?_, ?_⟩
      · exact later.scriptEnd.trans (scriptEnd_stepOn s own)
      · intro e he
        rcases List.mem_append.mp he with hnow | hlater
        · exact not_isCompletion_stepped s own e hnow
        · exact later.events e hlater

/-! ## The verdict -/

/-- What the end of a run, with its report and its events, makes of the completion of the level. -/
structure Verdict (s : Session α) (run : ActiveRun α) (events : List (Event α))
    (report : Report α) (after : Session α) : Prop where
  scene : after.scene = s.judged run
  newly : report.newlyCompleted = true ↔ s.completed = false ∧ s.stage.Achieved (s.judged run)
  completed : after.completed = (s.completed || report.newlyCompleted)
  schedule : after.schedule =
    if report.newlyCompleted then s.schedule.map Schedule.stop else s.schedule
  events : events.countP Event.isCompletion = if report.newlyCompleted then 1 else 0

theorem completesNow_stepOn {s : Session α} {run : ActiveRun α}
    (h : (s.stepped run).status = .finished) :
    (s.stepOn run).completesNow = true ↔ s.completed = false ∧ s.stage.Achieved (s.judged run) := by
  have hscene : (s.stepOn run).scene = s.scriptEnd run := scene_of_finished h
  have hstage : (s.stepOn run).stage = s.stage := rfl
  have hcompleted : (s.stepOn run).completed = s.completed := rfl
  rw [completesNow, hscene, hstage, hcompleted, Bool.and_eq_true, Bool.not_eq_true',
    Stage.isComplete_iff]
  rfl

theorem countP_completion_ending (s : Session α) :
    s.ending.events.countP Event.isCompletion = if s.completesNow then 1 else 0 := by
  have hpenalty : (penalty s.scene).2.events.countP Event.isCompletion = 0 := by
    unfold penalty
    split <;> rfl
  simp only [ending, Output.events_append, List.countP_append, hpenalty]
  cases s.completesNow <;> rfl

omit [Coordinate α] in
theorem countP_completion_zero {events : List (Event α)}
    (h : ∀ e ∈ events, e.isCompletion = false) : events.countP Event.isCompletion = 0 := by
  refine List.countP_eq_zero.mpr ?_
  intro e he
  rw [h e he]
  exact Bool.false_ne_true

theorem ended_verdict {s : Session α} {run : ActiveRun α}
    (h : (s.stepped run).status = .finished) :
    Verdict s run (s.endEvents run) (s.ended run).1 (s.ended run).2 where
  scene := congrArg (fun scene => (penalty scene).1) (scene_of_finished h)
  newly := completesNow_stepOn h
  completed := rfl
  schedule := rfl
  events := by
    rw [endEvents, List.countP_append, countP_completion_ending,
      countP_completion_zero (not_isCompletion_stepped s run), Nat.zero_add]
    rfl

/-- The run that an operation goes on with or starts. -/
def runOf? (s : Session α) : Operation → Option (ActiveRun α)
  | .resume t => s.active.filter fun run => run.ticket = t
  | .run source => if s.active.isNone then some (s.newRun source) else none
  | _ => none

omit [Coordinate α] in
theorem runOf?_resume {s : Session α} {run : ActiveRun α} (hactive : s.active = some run) :
    s.runOf? (.resume run.ticket) = some run := by
  simp only [runOf?, hactive, Option.filter_some, decide_true, if_pos]

omit [Coordinate α] in
theorem runOf?_run {s : Session α} (hidle : s.active = none) (source : String) :
    s.runOf? (.run source) = some (s.newRun source) := by
  simp only [runOf?, hidle, Option.isNone_none, if_pos]

/-- The two ways to end a run, with the report. -/
inductive EndsRun (s : Session α) : Operation → Report α → Prop
  | resume {run : ActiveRun α} : s.active = some run → (s.stepped run).status = .finished →
      EndsRun s (.resume run.ticket) (s.ended run).1
  | run {source : String} {report : Report α} : (s.run source).1 = .ok report →
      EndsRun s (.run source) report

theorem endsRun_of_report {s : Session α} {op : Operation} {report : Report α}
    (h : (s.perform op).1.report? = some report) : EndsRun s op report := by
  cases op with
  | resume t =>
      change (Reply.resumed (s.resume t).1).report? = some report at h
      have hout := resumption s t
      generalize s.resume t = out at h hout
      cases hout with
      | stale hstale => cases h
      | paused hactive hname hstatus => cases h
      | finished hactive hname hstatus =>
          cases h
          subst hname
          exact .resume hactive hstatus
  | run source =>
      change (Reply.ran (s.run source).1).report? = some report at h
      cases hran : (s.run source).1 with
      | error e =>
          rw [hran] at h
          cases h
      | ok r =>
          rw [hran] at h
          cases h
          exact .run hran
  | begin source => cases h
  | cancel | reset | advanceClock | subscribe | unsubscribe | collect => cases h

theorem run_verdict {s : Session α} {source : String} {report : Report α}
    (h : (s.run source).1 = .ok report) :
    s.active = none ∧
      Verdict s (s.newRun source) (s.published (.run source)) report (s.run source).2 := by
  cases hactive : s.active with
  | some run =>
      rw [run_of_active hactive] at h
      cases h
  | none =>
      obtain ⟨events, last, final, hway, hfinal, hname, hstatus, hend⟩ := run_ends hactive source
      have hbegun : (s.begun source).active = some (s.newRun source) := rfl
      have hsame := pauses_undecided hway hbegun hfinal
      have verdict := ended_verdict hstatus
      rw [hend] at h ⊢
      cases h
      have hjudged : last.judged final = s.judged (s.newRun source) :=
        congrArg (fun scene => (penalty scene).1) hsame.scriptEnd
      refine ⟨rfl, ?_⟩
      rw [published_run hactive hway hfinal hname hstatus]
      refine ⟨verdict.scene.trans hjudged, ?_, ?_, ?_, ?_⟩
      · rw [verdict.newly, hjudged, hsame.completed, hsame.stage]
        rfl
      · rw [verdict.completed, hsame.completed]
        rfl
      · rw [verdict.schedule, hsame.schedule]
        rfl
      · rw [List.countP_append, verdict.events, List.countP_append,
          countP_completion_zero hsame.events]
        exact Nat.zero_add _

/-- An operation that ends a run is followed by the verdict on it. -/
theorem perform_verdict {s : Session α} {op : Operation} {report : Report α}
    (h : (s.perform op).1.report? = some report) :
    ∃ run, s.runOf? op = some run ∧
      Verdict s run (s.published op) report (s.perform op).2 := by
  cases endsRun_of_report h with
  | @resume run hactive hstatus =>
      refine ⟨run, runOf?_resume hactive, ?_⟩
      change Verdict s run _ _ (s.resume run.ticket).2
      rw [resume_of_finished hactive hstatus, published_resume_finished hactive hstatus]
      exact ended_verdict hstatus
  | @run source _ hran =>
      obtain ⟨hidle, verdict⟩ := run_verdict hran
      exact ⟨s.newRun source, runOf?_run hidle source, verdict⟩

/-! ## What has no say -/

/-- What an operation leaves alone that neither ends a run nor resets the session. -/
structure NoSay (s : Session α) (events : List (Event α)) (after : Session α) : Prop where
  completed : after.completed = s.completed
  running : after.schedule.map Schedule.running = s.schedule.map Schedule.running
  events : events.countP Event.isCompletion = 0

omit [Coordinate α] in
theorem NoSay.same (s : Session α) {events : List (Event α)} (h : events = []) :
    NoSay s events s :=
  ⟨rfl, rfl, by rw [h]; rfl⟩

omit [Coordinate α] in
theorem countP_completion_enemyMoves (w : World α) (places : List Proximity) :
    (enemyMoves w places).1.countP Event.isCompletion = 0 := by
  apply countP_completion_zero
  intro e he
  obtain ⟨near, rfl⟩ := mem_enemyMoves he
  rfl

theorem perform_noSay {s : Session α} {op : Operation} (hreset : op.isReset = false)
    (hreport : (s.perform op).1.report? = none) :
    NoSay s (s.published op) (s.perform op).2 := by
  cases op with
  | reset => cases hreset
  | begin source =>
      change NoSay s _ (s.begin source).2
      cases hactive : s.active with
      | some run =>
          rw [begin_of_active hactive]
          exact .same s (published_begin_refused hactive source)
      | none =>
          rw [begin_of_idle hactive, published_begin hactive]
          exact ⟨rfl, rfl, rfl⟩
  | resume t =>
      change (Reply.resumed (s.resume t).1).report? = none at hreport
      change NoSay s _ (s.resume t).2
      have hout := resumption s t
      generalize s.resume t = out at hreport hout ⊢
      cases hout with
      | stale hstale => exact .same s (published_resume_stale hstale)
      | @paused run d hrun hname hstatus =>
          subst hname
          rw [published_resume_paused hrun hstatus]
          exact ⟨rfl, rfl, countP_completion_zero (not_isCompletion_stepped s run)⟩
      | finished hrun hname hstatus => cases hreport
  | run source =>
      change (Reply.ran (s.run source).1).report? = none at hreport
      change NoSay s _ (s.run source).2
      cases hactive : s.active with
      | some run =>
          rw [run_of_active hactive]
          exact .same s (published_run_refused hactive source)
      | none =>
          obtain ⟨_, _, _, _, _, _, _, hend⟩ := run_ends hactive source
          rw [hend] at hreport
          cases hreport
  | cancel =>
      rw [published_cancel]
      exact ⟨rfl, rfl, rfl⟩
  | advanceClock elapsed coin =>
      change NoSay s _ (s.advanceClock elapsed coin).2
      cases hschedule : s.schedule with
      | none =>
          rw [advanceClock_of_none hschedule]
          exact .same s (published_clock_none hschedule elapsed coin)
      | some schedule =>
          rw [advanceClock_of_schedule hschedule, published_clock hschedule]
          refine ⟨rfl, ?_, countP_completion_enemyMoves s.scene.world _⟩
          rw [hschedule]
          exact congrArg some (schedule.running_advance elapsed coin)
  | subscribe => exact ⟨rfl, rfl, rfl⟩
  | unsubscribe index =>
      rw [published_unsubscribe]
      change NoSay s [] (s.unsubscribe index)
      obtain ⟨listeners, hlisteners⟩ := exists_unsubscribe_eq s index
      rw [hlisteners]
      exact ⟨rfl, rfl, rfl⟩
  | collect index =>
      rw [published_collect]
      change NoSay s [] (s.collect index).2
      obtain ⟨listeners, hlisteners⟩ := exists_collect_eq s index
      rw [hlisteners]
      exact ⟨rfl, rfl, rfl⟩

/-! ## Histories -/

/-- The entry ends a run, and in the scene that the run is judged on all requirements hold. -/
def Entry.Completes (e : Entry α) : Prop :=
  ∃ run, e.before.runOf? e.operation = some run ∧ e.reply.report?.isSome = true ∧
    e.before.stage.Achieved (e.before.judged run)

def Entry.isNewlyCompleted (e : Entry α) : Bool :=
  e.reply.report?.any Report.newlyCompleted

/-- What a session knows of the entries since its last reset: whether one of them completed the
level. It has been reported and told once if so, and the schedule has been running until then. -/
structure Tally (entries : List (Entry α)) (s : Session α) : Prop where
  completed : s.completed = true ↔ ∃ e ∈ sinceReset entries, e.Completes
  reports : (sinceReset entries).countP Entry.isNewlyCompleted = if s.completed then 1 else 0
  events : ((sinceReset entries).flatMap Entry.published).countP Event.isCompletion =
    if s.completed then 1 else 0
  running : ∀ schedule, s.schedule = some schedule → schedule.running = !s.completed

theorem entry_completes_iff {s : Session α} {op : Operation} {run : ActiveRun α}
    {report : Report α} (hreport : (s.perform op).1.report? = some report)
    (hrun : s.runOf? op = some run) :
    (s.entry op).Completes ↔ s.stage.Achieved (s.judged run) := by
  constructor
  · rintro ⟨other, hother, -, hachieved⟩
    have hsame : other = run := Option.some.inj (hother.symm.trans hrun)
    exact hsame ▸ hachieved
  · intro hachieved
    exact ⟨run, hrun, by simp only [entry, hreport, Option.isSome_some], hachieved⟩

theorem not_completes_of_no_report {s : Session α} {op : Operation}
    (hreport : (s.perform op).1.report? = none) : ¬ (s.entry op).Completes := by
  rintro ⟨-, -, hsome, -⟩
  simp only [entry, hreport, Option.isSome_none, Bool.false_eq_true] at hsome

/-- A level is completed after an operation other than a reset if it was before, or is by it. -/
theorem completed_perform {s : Session α} {op : Operation} (hreset : op.isReset = false) :
    (s.perform op).2.completed = true ↔ s.completed = true ∨ (s.entry op).Completes := by
  cases hreport : (s.perform op).1.report? with
  | none =>
      rw [(perform_noSay hreset hreport).completed,
        or_iff_left (not_completes_of_no_report hreport)]
  | some report =>
      obtain ⟨run, hrun, verdict⟩ := perform_verdict hreport
      rw [verdict.completed, Bool.or_eq_true, verdict.newly, entry_completes_iff hreport hrun]
      cases s.completed with
      | true => exact ⟨fun _ => .inl rfl, fun _ => .inl rfl⟩
      | false => exact or_congr_right (and_iff_right rfl)

theorem exists_completes_entry {entries : List (Entry α)} {s : Session α} {op : Operation}
    (hreset : op.isReset = false) :
    (∃ e ∈ sinceReset (entries ++ [s.entry op]), e.Completes) ↔
      (∃ e ∈ sinceReset entries, e.Completes) ∨ (s.entry op).Completes := by
  rw [sinceReset_entry hreset]
  simp only [List.mem_append, List.mem_singleton, or_and_right, exists_or, exists_eq_left]

theorem isReset_of_report {s : Session α} {op : Operation} {report : Report α}
    (h : (s.perform op).1.report? = some report) : op.isReset = false := by
  cases endsRun_of_report h <;> rfl

theorem tally_reset {entries : List (Entry α)} {s : Session α} :
    Tally (entries ++ [s.entry .reset]) s.reset.2 := by
  have hnone : sinceReset (entries ++ [s.entry .reset]) = [] := by
    have hentry : (s.entry .reset).operation.isReset = true := rfl
    rw [sinceReset_append, hentry, if_pos rfl]
  have hcompleted : s.reset.2.completed = false := rfl
  refine ⟨?_, ?_, ?_, ?_⟩
  · rw [hnone, hcompleted]
    exact ⟨nofun, fun ⟨_, he, _⟩ => nomatch he⟩
  · rw [hnone, hcompleted]
    rfl
  · rw [hnone, hcompleted]
    rfl
  · intro schedule hschedule
    obtain ⟨before, -, rfl⟩ := Option.map_eq_some_iff.mp hschedule
    rfl

theorem Tally.noSay {entries : List (Entry α)} {s : Session α} (h : Tally entries s)
    {op : Operation} (hreset : op.isReset = false)
    (hreport : (s.perform op).1.report? = none) :
    Tally (entries ++ [s.entry op]) (s.perform op).2 := by
  have same := perform_noSay hreset hreport
  have hsilent : (s.entry op).isNewlyCompleted = false := by
    simp only [Entry.isNewlyCompleted, entry, hreport, Option.any_none]
  refine ⟨?_, ?_, ?_, ?_⟩
  · rw [completed_perform hreset, h.completed, exists_completes_entry hreset]
  · rw [sinceReset_entry hreset, List.countP_append, h.reports, List.countP_singleton, hsilent,
      same.completed]
    rfl
  · rw [sinceReset_entry hreset, List.flatMap_append, List.countP_append, h.events,
      List.flatMap_singleton, same.completed]
    exact congrArg _ same.events
  · intro schedule hschedule
    have hrunning := same.running
    rw [hschedule] at hrunning
    obtain ⟨before, hbefore, hsame⟩ := Option.map_eq_some_iff.mp hrunning.symm
    rw [same.completed, ← h.running before hbefore, hsame]

/-- A flag that is only raised when it is down counts once. -/
theorem once_more {flag raised : Bool} {p : Prop} (h : raised = true ↔ flag = false ∧ p) :
    (if flag then 1 else 0) + (if raised then 1 else 0) = if flag || raised then 1 else 0 := by
  cases flag with
  | false => cases raised <;> rfl
  | true =>
      cases raised with
      | false => rfl
      | true => exact absurd (h.mp rfl).1 nofun

theorem Tally.verdict {entries : List (Entry α)} {s : Session α} (h : Tally entries s)
    {op : Operation} {report : Report α} (hreport : (s.perform op).1.report? = some report) :
    Tally (entries ++ [s.entry op]) (s.perform op).2 := by
  obtain ⟨run, hrun, verdict⟩ := perform_verdict hreport
  have hreset := isReset_of_report hreport
  have hnew : (s.entry op).isNewlyCompleted = report.newlyCompleted := by
    simp only [Entry.isNewlyCompleted, entry, hreport, Option.any_some]
  refine ⟨?_, ?_, ?_, ?_⟩
  · rw [completed_perform hreset, h.completed, exists_completes_entry hreset]
  · rw [sinceReset_entry hreset, List.countP_append, h.reports, List.countP_singleton, hnew,
      verdict.completed]
    exact once_more verdict.newly
  · rw [sinceReset_entry hreset, List.flatMap_append, List.countP_append, h.events,
      List.flatMap_singleton, verdict.completed]
    exact (congrArg _ verdict.events).trans (once_more verdict.newly)
  · intro schedule hschedule
    rw [verdict.schedule] at hschedule
    rw [verdict.completed]
    cases hnewly : report.newlyCompleted with
    | true =>
        rw [hnewly] at hschedule
        obtain ⟨before, -, rfl⟩ := Option.map_eq_some_iff.mp hschedule
        rw [Bool.or_true]
        rfl
    | false =>
        rw [hnewly] at hschedule
        rw [Bool.or_false]
        exact h.running schedule hschedule

/-- What one operation can do to the completion of the level. -/
theorem entry_laws {s : Session α} {ops : List Operation} {e : Entry α}
    (he : e ∈ s.history ops) :
    (e.reply.report? = none → e.after.completed = true → e.before.completed = true) ∧
      (e.operation.isReset = false → e.before.completed = true → e.after.completed = true) ∧
      (∀ run, e.before.runOf? e.operation = some run → e.reply.report?.isSome = true →
        e.after.scene = e.before.judged run) := by
  obtain ⟨hreply, hafter⟩ := mem_history he
  rw [hreply, hafter]
  cases hreport : (e.before.perform e.operation).1.report? with
  | some report =>
      obtain ⟨run, hrun, verdict⟩ := perform_verdict hreport
      refine ⟨nofun, ?_, ?_⟩
      · intro _ hbefore
        rw [verdict.completed, hbefore, Bool.true_or]
      · intro other hother _
        have hsame : other = run := Option.some.inj (hother.symm.trans hrun)
        exact hsame ▸ verdict.scene
  | none =>
      refine ⟨?_, ?_, nofun⟩
      · intro _ hdone
        cases hreset : e.operation.isReset with
        | false => rwa [← (perform_noSay hreset hreport).completed]
        | true =>
            generalize e.operation = op at hreset hdone
            cases op with
            | reset => cases hdone
            | _ => cases hreset
      · intro hreset hbefore
        rwa [(perform_noSay hreset hreport).completed]

theorem tally_history {entries : List (Entry α)} {s : Session α} (h : Tally entries s)
    (ops : List Operation) : Tally (entries ++ s.history ops) (s.performAll ops).2 := by
  induction ops generalizing entries s with
  | nil => rwa [history, List.append_nil]
  | cons op rest ih =>
      have hnext : Tally (entries ++ [s.entry op]) (s.perform op).2 := by
        cases hreport : (s.perform op).1.report? with
        | some report => exact h.verdict hreport
        | none =>
            cases hreset : op.isReset with
            | false => exact h.noSay hreset hreport
            | true =>
                cases op with
                | reset => exact tally_reset
                | _ => cases hreset
      have hlater := ih hnext
      rwa [List.append_assoc] at hlater

theorem tally_start (stage : Stage α) (settings : Settings) : Tally [] (start stage settings) where
  completed := ⟨nofun, fun ⟨_, he, _⟩ => nomatch he⟩
  reports := rfl
  events := rfl
  running := by
    intro schedule hschedule
    obtain ⟨-, -, rfl⟩ := Option.map_eq_some_iff.mp hschedule
    rfl

/-- A level is completed when, since the last reset, a run has ended in a scene where it has
requirements and all of them hold. What ends no run never completes it, and only a reset takes its
completion back. From one reset to the next it is reported and told at most once, and an enemy's
schedule is running just as long as the level is not completed. -/
theorem completion_of_history (stage : Stage α) (settings : Settings) (ops : List Operation) :
    let entries := (start stage settings).history ops
    let last := ((start stage settings).performAll ops).2
    (last.completed = true ↔ ∃ e ∈ sinceReset entries, e.Completes) ∧
    (∀ e ∈ entries,
      (e.reply.report? = none → e.after.completed = true → e.before.completed = true) ∧
      (e.operation.isReset = false → e.before.completed = true → e.after.completed = true) ∧
      (∀ run, e.before.runOf? e.operation = some run → e.reply.report?.isSome = true →
        e.after.scene = e.before.judged run)) ∧
    (sinceReset entries).countP Entry.isNewlyCompleted ≤ 1 ∧
    ((sinceReset entries).flatMap Entry.published).countP Event.isCompletion =
      (sinceReset entries).countP Entry.isNewlyCompleted ∧
    last.schedule.isSome = stage.level.enemy.isSome ∧
    ∀ schedule, last.schedule = some schedule →
      (schedule.running = true ↔ last.completed = false) := by
  intro entries last
  have tally : Tally entries last := tally_history (tally_start stage settings) ops
  have attempt : Attempts stage settings last :=
    (attempts_law stage settings).performAll ops (attempts_start stage settings)
  refine ⟨tally.completed, ?_, ?_, tally.events.trans tally.reports.symm, ?_, ?_⟩
  · intro e he
    exact entry_laws he
  · rw [tally.reports]
    split
    · exact Nat.le_refl 1
    · exact Nat.zero_le 1
  · have hsome := congrArg Option.isSome attempt.schedule
    rwa [Option.isSome_map, Option.isSome_map] at hsome
  · intro schedule hschedule
    rw [tally.running schedule hschedule, Bool.not_eq_true']

end Session

end Playscript
