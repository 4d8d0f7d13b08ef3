import Playscript.Proofs.Run.Pacing
import Playscript.Session.Operation
/-! What the operations of a session do. Going on with a run has three outcomes, which are told
apart once; running a source text is to begin a run and to go on with it until it ends. -/
namespace Playscript.Session

variable {α : Type} [Coordinate α]

/-! ## The end of a run -/

/-- Whether the level is complete from now on if the script of a session is done. -/
def completesNow (s : Session α) : Bool :=
  !s.completed && s.stage.isComplete (penalty s.scene).1.world (penalty s.scene).1.techniques

/-- What the end of a run adds to its output. -/
def ending (s : Session α) : Output α :=
  (penalty s.scene).2 ++
    (if s.completesNow then .line completedMessage ++ .event .completed else .empty) ++
    .event (.runFinished (s.completed || s.completesNow))

/-- The session at the end of a run, before anyone is told. -/
def settled (s : Session α) : Session α :=
  { s with
    scene := (penalty s.scene).1
    completed := s.completed || s.completesNow
    schedule := if s.completesNow then s.schedule.map Schedule.stop else s.schedule
    active := none }

/-- What the end of a run can tell of. -/
theorem mem_ending {s : Session α} {e : Event α} (he : e ∈ s.ending.events) :
    (∃ index, e = .obstacleHit index) ∨ e = .completed ∨ ∃ done, e = .runFinished done := by
  rw [ending, Output.events_append, Output.events_append, List.mem_append, List.mem_append] at he
  rcases he with (hpenalty | hpraise) | hend
  · unfold penalty at hpenalty
    split at hpenalty
    · exact .inl ⟨_, List.mem_singleton.mp hpenalty⟩
    · cases hpenalty
  · split at hpraise
    · exact .inr (.inl (List.mem_singleton.mp hpraise))
    · cases hpraise
  · exact .inr (.inr ⟨_, List.mem_singleton.mp hend⟩)

/-- At the end of a run, what it adds to the output is published. -/
theorem finish_eq (s : Session α) (run : ActiveRun α) :
    s.finish run =
      ({ log := (run.output ++ s.ending).trace
         completed := s.settled.completed
         newlyCompleted := s.completesNow
         issues := (run.output ++ s.ending).issues
         events := (run.output ++ s.ending).events
         techniques := s.settled.scene.techniques
         snapshot := s.settled.scene.world.snapshot },
        s.settled.publish s.ending.events) := by
  rw [← run.unpublished_append s.ending]
  rfl

/-! ## Going on with a run -/

def stepped (s : Session α) (run : ActiveRun α) : Script.Stepped α :=
  run.execution.step s.stage.level.retreat s.settings.pacing s.scene

def outputAfter (s : Session α) (run : ActiveRun α) : Output α :=
  run.output ++ (s.stepped run).output

/-- The run after one more step, all of its events published. -/
def runAfter (s : Session α) (run : ActiveRun α) : ActiveRun α :=
  .upTo run.ticket (s.stepped run).execution (s.outputAfter run)

@[simp] theorem runAfter_execution (s : Session α) (run : ActiveRun α) :
    (s.runAfter run).execution = (s.stepped run).execution := rfl

@[simp] theorem runAfter_output (s : Session α) (run : ActiveRun α) :
    (s.runAfter run).output = s.outputAfter run := rfl

/-- After its last step, a run has nothing left to do. -/
theorem runAfter_of_finished {s : Session α} {run : ActiveRun α}
    (h : (s.stepped run).status = .finished) : (s.runAfter run).execution = .start [] :=
  Script.finished_step run.execution _ _ _ h

/-- The session after a step of a run, with the run still active. -/
def stepOn (s : Session α) (run : ActiveRun α) : Session α :=
  { s with
    scene := (s.stepped run).scene
    active := some (s.runAfter run) }.publish (s.stepped run).output.events

/-- The report and the session after the last step of a run. -/
def ended (s : Session α) (run : ActiveRun α) : Report α × Session α :=
  (s.stepOn run).finish (s.runAfter run)

/-- The outcomes of going on with the run of a ticket. -/
inductive Resumption (s : Session α) (t : Ticket) : Resumed α × Session α → Prop
  | stale : (∀ run, s.active = some run → run.ticket ≠ t) → Resumption s t (.cancelled, s)
  | paused {run : ActiveRun α} {d : Duration} : s.active = some run → run.ticket = t →
      (s.stepped run).status = .paused d → Resumption s t (.paused t d, s.stepOn run)
  | finished {run : ActiveRun α} : s.active = some run → run.ticket = t →
      (s.stepped run).status = .finished →
      Resumption s t (.finished (s.ended run).1, (s.ended run).2)

theorem resume_of_paused {s : Session α} {run : ActiveRun α} {d : Duration}
    (hactive : s.active = some run) (h : (s.stepped run).status = .paused d) :
    s.resume run.ticket = (.paused run.ticket d, s.stepOn run) := by
  unfold stepped at h
  simp only [resume, hactive, if_pos, h, ActiveRun.unpublished_append]
  rfl

theorem resume_of_finished {s : Session α} {run : ActiveRun α}
    (hactive : s.active = some run) (h : (s.stepped run).status = .finished) :
    s.resume run.ticket = (.finished (s.ended run).1, (s.ended run).2) := by
  unfold stepped at h
  simp only [resume, hactive, if_pos, h, ActiveRun.unpublished_append]
  rfl

theorem resume_of_stale {s : Session α} {t : Ticket}
    (h : ∀ run, s.active = some run → run.ticket ≠ t) : s.resume t = (.cancelled, s) := by
  unfold resume
  split
  · rfl
  · rename_i run hactive
    rw [if_neg (h run hactive)]

theorem resumption (s : Session α) (t : Ticket) : Resumption s t (s.resume t) := by
  by_cases hrun : ∃ run, s.active = some run ∧ run.ticket = t
  · obtain ⟨run, hactive, rfl⟩ := hrun
    cases hstatus : (s.stepped run).status with
    | paused d =>
        rw [resume_of_paused hactive hstatus]
        exact .paused hactive rfl hstatus
    | finished =>
        rw [resume_of_finished hactive hstatus]
        exact .finished hactive rfl hstatus
  · have hstale : ∀ run, s.active = some run → run.ticket ≠ t :=
      fun run hactive ht => hrun ⟨run, hactive, ht⟩
    rw [resume_of_stale hstale]
    exact .stale hstale

/-! ## Running a source text -/

/-- The way of a run over some of its pauses, with the events that are told on the way. -/
inductive Pauses (t : Ticket) : Session α → List (Event α) → Session α → Prop
  | none (s : Session α) : Pauses t s [] s
  | more {s last : Session α} {run : ActiveRun α} {d : Duration} {events : List (Event α)} :
      s.active = some run → run.ticket = t → (s.stepped run).status = .paused d →
      Pauses t (s.stepOn run) events last →
      Pauses t s ((s.stepped run).output.events ++ events) last

theorem pauses_stepOn {s : Session α} {run : ActiveRun α} {d : Duration}
    (hactive : s.active = some run) (h : (s.stepped run).status = .paused d) :
    (s.stepOn run).pauses + 1 = s.pauses := by
  have hresume := resume_of_paused hactive h
  have hless := pauses_resume (congrArg Prod.fst hresume)
  rwa [hresume] at hless

theorem runOn_of_pauses {t : Ticket} {s last : Session α} {events : List (Event α)}
    (hway : Pauses t s events last) : s.runOn t = last.runOn t := by
  induction hway with
  | none s => rfl
  | more hactive ht hstatus _ ih =>
      subst ht
      rw [runOn_of_paused (resume_of_paused hactive hstatus)]
      exact ih

/-- What holds of all events of a step holds of all that are told on the way of a run. -/
theorem forall_mem_pauses {P : Event α → Prop}
    (hstep : ∀ (s : Session α) (run : ActiveRun α), ∀ e ∈ (s.stepped run).output.events, P e)
    {t : Ticket} {s last : Session α} {events : List (Event α)} (hway : Pauses t s events last) :
    ∀ e ∈ events, P e := by
  induction hway with
  | none s => exact List.forall_mem_nil _
  | more _ _ _ _ ih => exact List.forall_mem_append.mpr ⟨hstep _ _, ih⟩

theorem runOn_of_active {s : Session α} {run : ActiveRun α} (hactive : s.active = some run) :
    ∃ events last final, Pauses run.ticket s events last ∧ last.active = some final ∧
      final.ticket = run.ticket ∧ (last.stepped final).status = .finished ∧
      s.runOn run.ticket = (.ok (last.ended final).1, (last.ended final).2) := by
  -- each pause leaves one pause fewer
  induction hleft : s.pauses using Nat.strongRecOn generalizing s run with
  | ind n ih =>
      cases hstatus : (s.stepped run).status with
      | paused d =>
          have hless := pauses_stepOn hactive hstatus
          obtain ⟨events, last, final, hway, hend⟩ :=
            ih (s.stepOn run).pauses (by omega) (s := s.stepOn run) rfl rfl
          refine ⟨_, last, final, .more hactive rfl hstatus hway, ?_⟩
          rw [runOn_of_paused (resume_of_paused hactive hstatus)]
          exact hend
      | finished =>
          exact ⟨[], s, run, .none s, hactive, rfl, hstatus,
            runOn_of_finished (resume_of_finished hactive hstatus)⟩

def newRun (s : Session α) (source : String) : ActiveRun α :=
  .upTo ⟨s.nextTicket⟩ (.start (s.stage.recognize source)) (.line runHeader ++ .event .runStarted)

/-- The session once the run of a source text is begun. -/
def begun (s : Session α) (source : String) : Session α :=
  { s with active := some (s.newRun source), nextTicket := s.nextTicket + 1 }.publish [.runStarted]

omit [Coordinate α] in
theorem begin_of_idle {s : Session α} (hidle : s.active = none) (source : String) :
    s.begin source = (.ok ⟨s.nextTicket⟩, s.begun source) := by
  simp only [begin, hidle]
  rfl

omit [Coordinate α] in
theorem begin_of_active {s : Session α} {run : ActiveRun α} (hactive : s.active = some run)
    (source : String) : s.begin source = (.error .runInProgress, s) := by
  simp only [begin, hactive]

theorem run_of_idle {s : Session α} (hidle : s.active = none) (source : String) :
    s.run source = (s.begun source).runOn (s.newRun source).ticket := by
  simp only [Session.run, begin_of_idle hidle]
  rfl

theorem run_of_active {s : Session α} {run : ActiveRun α} (hactive : s.active = some run)
    (source : String) : s.run source = (.error .runInProgress, s) := by
  simp only [Session.run, begin_of_active hactive]

theorem run_ends {s : Session α} (hidle : s.active = none) (source : String) :
    ∃ events last final, Pauses ⟨s.nextTicket⟩ (s.begun source) events last ∧
      last.active = some final ∧ final.ticket = ⟨s.nextTicket⟩ ∧
      (last.stepped final).status = .finished ∧
      s.run source = (.ok (last.ended final).1, (last.ended final).2) := by
  have hactive : (s.begun source).active = some (s.newRun source) := rfl
  rw [run_of_idle hidle]
  exact runOn_of_active hactive

/-! ## The clock and the reset -/

omit [Coordinate α] in
theorem mem_enemyMoves {w : World α} {places : List Proximity} {e : Event α}
    (he : e ∈ (enemyMoves w places).1) : ∃ near, e = .enemyMoved near := by
  induction places generalizing w with
  | nil => cases he
  | cons p rest ih =>
      unfold enemyMoves at he
      split at he
      · rcases List.mem_cons.mp he with rfl | hlater
        · exact ⟨p.isNear, rfl⟩
        · exact ih hlater
      · exact ih he

/-- The session after the enemy has gone to some places, before anyone is told. -/
def afterMoves (s : Session α) (places : List Proximity × Schedule) : Session α :=
  { s with
    schedule := some places.2
    scene := { s.scene with world := (enemyMoves s.scene.world places.1).2 } }

omit [Coordinate α] in
theorem advanceClock_of_schedule {s : Session α} {schedule : Schedule}
    (h : s.schedule = some schedule) (elapsed : Duration) (coin : Nat → Bool) :
    s.advanceClock elapsed coin =
      ((enemyMoves s.scene.world (schedule.advance elapsed coin).1).1,
        (s.afterMoves (schedule.advance elapsed coin)).publish
          (enemyMoves s.scene.world (schedule.advance elapsed coin).1).1) := by
  simp only [advanceClock, h]
  rfl

omit [Coordinate α] in
theorem advanceClock_of_none {s : Session α} (h : s.schedule = none) (elapsed : Duration)
    (coin : Nat → Bool) : s.advanceClock elapsed coin = ([], s) := by
  simp only [advanceClock, h]

/-- The session back at its start, before anyone is told. -/
def restarted (s : Session α) : Session α :=
  { s with
    scene := initialScene s.stage
    completed := false
    schedule := s.schedule.map Schedule.restart
    active := none }

omit [Coordinate α] in
theorem reset_eq (s : Session α) :
    s.reset = (s.stage.level.starterCode, s.restarted.publish [.reset]) := rfl

omit [Coordinate α] in
theorem exists_unsubscribe_eq (s : Session α) (index : Nat) :
    ∃ listeners, s.unsubscribe index = { s with listeners := listeners } := by
  unfold unsubscribe
  split <;> exact ⟨_, rfl⟩

omit [Coordinate α] in
theorem exists_collect_eq (s : Session α) (index : Nat) :
    ∃ listeners, (s.collect index).2 = { s with listeners := listeners } := by
  unfold collect
  split <;> exact ⟨_, rfl⟩

/-! ## Properties that all operations keep -/

/-- A property that the single moves of a session keep. Every operation is made of such moves. -/
structure SessionLaw (P : Session α → Prop) : Prop where
  begin : ∀ {s : Session α} (source : String), s.active = none → P s → P (s.begun source)
  pause : ∀ {s : Session α} {run : ActiveRun α} {d : Duration}, s.active = some run →
    (s.stepped run).status = .paused d → P s → P (s.stepOn run)
  finish : ∀ {s : Session α} {run : ActiveRun α}, s.active = some run →
    (s.stepped run).status = .finished → P s → P (s.ended run).2
  cancel : ∀ {s : Session α}, P s → P s.cancel.2
  reset : ∀ {s : Session α}, P s → P s.reset.2
  clock : ∀ {s : Session α} {schedule : Schedule} (elapsed : Duration) (coin : Nat → Bool),
    s.schedule = some schedule → P s → P (s.advanceClock elapsed coin).2
  listeners : ∀ {s : Session α} (ls : List (Listener α)), P s → P { s with listeners := ls }

namespace SessionLaw

variable {P : Session α → Prop}

theorem resume (h : SessionLaw P) {s : Session α} (t : Ticket) (hs : P s) :
    P (s.resume t).2 := by
  have hout := resumption s t
  generalize s.resume t = out at hout
  cases hout with
  | stale _ => exact hs
  | paused hactive _ hstatus => exact h.pause hactive hstatus hs
  | finished hactive _ hstatus => exact h.finish hactive hstatus hs

theorem pauses (h : SessionLaw P) {t : Ticket} {s last : Session α} {events : List (Event α)}
    (hway : Pauses t s events last) (hs : P s) : P last := by
  induction hway with
  | none s => exact hs
  | more hactive _ hstatus _ ih => exact ih (h.pause hactive hstatus hs)

theorem run (h : SessionLaw P) {s : Session α} (source : String) (hs : P s) :
    P (s.run source).2 := by
  cases hactive : s.active with
  | some run => rwa [run_of_active hactive]
  | none =>
      obtain ⟨events, last, final, hway, hfinal, -, hstatus, hend⟩ := run_ends hactive source
      rw [hend]
      exact h.finish hfinal hstatus (h.pauses hway (h.begin source hactive hs))

theorem advanceClock (h : SessionLaw P) {s : Session α} (elapsed : Duration)
    (coin : Nat → Bool) (hs : P s) : P (s.advanceClock elapsed coin).2 := by
  cases hschedule : s.schedule with
  | none => rwa [advanceClock_of_none hschedule]
  | some schedule => exact h.clock elapsed coin hschedule hs

theorem perform (h : SessionLaw P) {s : Session α} (op : Operation) (hs : P s) :
    P (s.perform op).2 := by
  cases op with
  | begin source =>
      change P (s.begin source).2
      cases hactive : s.active with
      | some run => rwa [begin_of_active hactive]
      | none =>
          rw [begin_of_idle hactive]
          exact h.begin source hactive hs
  | resume t => exact h.resume t hs
  | run source => exact h.run source hs
  | cancel => exact h.cancel hs
  | reset => exact h.reset hs
  | advanceClock elapsed coin => exact h.advanceClock elapsed coin hs
  | subscribe => exact h.listeners _ hs
  | unsubscribe index =>
      change P (s.unsubscribe index)
      obtain ⟨listeners, hlisteners⟩ := exists_unsubscribe_eq s index
      exact hlisteners ▸ h.listeners listeners hs
  | collect index =>
      change P (s.collect index).2
      obtain ⟨listeners, hlisteners⟩ := exists_collect_eq s index
      exact hlisteners ▸ h.listeners listeners hs

theorem performAll (h : SessionLaw P) {s : Session α} (ops : List Operation) (hs : P s) :
    P (s.performAll ops).2 := by
  induction ops generalizing s with
  | nil => exact hs
  | cons op rest ih => exact ih (h.perform op hs)

end SessionLaw

end Playscript.Session
