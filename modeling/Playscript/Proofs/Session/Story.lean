import Playscript.Proofs.Session.History
/-! What a session does and what is heard of it meanwhile. An operation other than a reset is made
of single moves, each of which publishes its own events; what every move keeps between the session
before, its events and the session after, whole histories keep, past a reset too if a reset keeps it.
What only the moves of runs and of listeners keep, the operations keep that are not about the clock. -/
namespace Playscript.Session

variable {α : Type} [Coordinate α]

/-- The operation lets time pass. -/
def Operation.isOfClock : Operation → Bool
  | .advanceClock .. => true
  | _ => false

/-- A relation between a session, the events that are published from then on and the session that is
reached, which the moves of runs and of listeners have and which passes from one move to the next. -/
structure RunLaw (P : Session α → List (Event α) → Session α → Prop) : Prop where
  rest : ∀ s, P s [] s
  andThen : ∀ {s middle last : Session α} {a b : List (Event α)}, P s a middle → P middle b last →
    P s (a ++ b) last
  begin : ∀ {s : Session α} (source : String), s.active = none → P s [.runStarted] (s.begun source)
  step : ∀ {s : Session α} {run : ActiveRun α}, s.active = some run →
    P s (s.stepped run).output.events (s.stepOn run)
  settle : ∀ {s : Session α} {run : ActiveRun α}, s.active = some run →
    P s s.ending.events (s.settled.publish s.ending.events)
  cancel : ∀ s, P s [] s.cancel.2
  listeners : ∀ (s : Session α) ls, P s [] (s.heardBy ls)

/-- A relation between a session, the events that are published from then on and the session that is
reached, which the single moves of a session have and which passes from one move to the next. -/
structure StoryLaw (P : Session α → List (Event α) → Session α → Prop) : Prop where
  rest : ∀ s, P s [] s
  andThen : ∀ {s middle last : Session α} {a b : List (Event α)}, P s a middle → P middle b last →
    P s (a ++ b) last
  begin : ∀ {s : Session α} (source : String), s.active = none → P s [.runStarted] (s.begun source)
  step : ∀ {s : Session α} {run : ActiveRun α}, s.active = some run →
    P s (s.stepped run).output.events (s.stepOn run)
  settle : ∀ {s : Session α} {run : ActiveRun α}, s.active = some run →
    P s s.ending.events (s.settled.publish s.ending.events)
  cancel : ∀ s, P s [] s.cancel.2
  clock : ∀ {s : Session α} {schedule : Schedule} (elapsed : Duration) (coin : Nat → Bool),
    s.schedule = some schedule →
    P s (enemyMoves s.scene.world (schedule.advance elapsed coin).1).1
      (s.advanceClock elapsed coin).2
  listeners : ∀ (s : Session α) ls, P s [] (s.heardBy ls)

namespace RunLaw

variable {P : Session α → List (Event α) → Session α → Prop} {s : Session α}

theorem ended (h : RunLaw P) {run : ActiveRun α} (hactive : s.active = some run) :
    P s (s.endEvents run) (s.ended run).2 := by
  have hnext : (s.stepOn run).active = some (s.runAfter run) := rfl
  rw [Session.ended, finish_eq]
  exact h.andThen (h.step hactive) (h.settle hnext)

theorem pauses (h : RunLaw P) {t : Ticket} {last : Session α} {events : List (Event α)}
    (hway : Pauses t s events last) : P s events last := by
  induction hway with
  | none s => exact h.rest s
  | more hactive _ _ _ ih => exact h.andThen (h.step hactive) ih

theorem run (h : RunLaw P) (source : String) :
    P s (s.published (.run source)) (s.run source).2 := by
  cases hactive : s.active with
  | some run =>
      rw [run_of_active hactive, published_run_refused hactive]
      exact h.rest s
  | none =>
      obtain ⟨events, last, final, hway, hfinal, hname, hstatus, hend⟩ := run_ends hactive source
      rw [hend, published_run hactive hway hfinal hname hstatus]
      exact h.andThen (h.andThen (h.begin source hactive) (h.pauses hway)) (h.ended hfinal)

theorem resume (h : RunLaw P) (t : Ticket) :
    P s (s.published (.resume t)) (s.resume t).2 := by
  have hout := resumption s t
  generalize s.resume t = out at hout ⊢
  cases hout with
  | stale hstale =>
      rw [published_resume_stale hstale]
      exact h.rest s
  | paused hactive hname hstatus =>
      subst hname
      rw [published_resume_paused hactive hstatus]
      exact h.step hactive
  | finished hactive hname hstatus =>
      subst hname
      rw [published_resume_finished hactive hstatus]
      exact h.ended hactive

/-- An operation that is neither a reset nor about the clock keeps what its moves keep. -/
theorem perform (h : RunLaw P) {op : Operation} (hreset : op.isReset = false)
    (hclock : op.isOfClock = false) : P s (s.published op) (s.perform op).2 := by
  cases op with
  | reset => cases hreset
  | advanceClock elapsed coin => cases hclock
  | begin source =>
      change P s _ (s.begin source).2
      cases hactive : s.active with
      | some run =>
          rw [begin_of_active hactive, published_begin_refused hactive]
          exact h.rest s
      | none =>
          rw [begin_of_idle hactive, published_begin hactive]
          exact h.begin source hactive
  | resume t => exact h.resume t
  | run source => exact h.run source
  | cancel =>
      rw [published_cancel]
      exact h.cancel s
  | subscribe => exact h.listeners s _
  | unsubscribe index =>
      rw [published_unsubscribe]
      change P s [] (s.unsubscribe index)
      obtain ⟨listeners, hlisteners⟩ := exists_unsubscribe_eq s index
      exact hlisteners ▸ h.listeners s listeners
  | collect index =>
      rw [published_collect]
      change P s [] (s.collect index).2
      obtain ⟨listeners, hlisteners⟩ := exists_collect_eq s index
      exact hlisteners ▸ h.listeners s listeners

end RunLaw

namespace StoryLaw

variable {P : Session α → List (Event α) → Session α → Prop} {s : Session α}

theorem ofRuns (h : StoryLaw P) : RunLaw P where
  rest := h.rest
  andThen := h.andThen
  begin := h.begin
  step := h.step
  settle := h.settle
  cancel := h.cancel
  listeners := h.listeners

/-- An operation that is no reset keeps what its moves keep. -/
theorem perform (h : StoryLaw P) {op : Operation} (hreset : op.isReset = false) :
    P s (s.published op) (s.perform op).2 := by
  cases hclock : op.isOfClock with
  | false => exact h.ofRuns.perform hreset hclock
  | true =>
      cases op with
      | advanceClock elapsed coin =>
          change P s _ (s.advanceClock elapsed coin).2
          cases hschedule : s.schedule with
          | none =>
              rw [advanceClock_of_none hschedule, published_clock_none hschedule]
              exact h.rest s
          | some schedule =>
              rw [published_clock hschedule]
              exact h.clock elapsed coin hschedule
      | _ => cases hclock

/-- So does a history without a reset. -/
theorem history (h : StoryLaw P) {ops : List Operation}
    (hresets : ∀ op ∈ ops, op.isReset = false) :
    P s ((s.history ops).flatMap Entry.published) (s.performAll ops).2 := by
  induction ops generalizing s with
  | nil => exact h.rest s
  | cons op rest ih =>
      rw [List.forall_mem_cons] at hresets
      exact h.andThen (h.perform hresets.1) (ih hresets.2)

/-- What has been heard since the last reset tells of a session that was then as good as new. -/
theorem sinceReset (h : StoryLaw P) (New : Session α → Prop) (hreset : ∀ u : Session α, New u.reset.2)
    {first : Session α} {entries : List (Entry α)} (hfirst : New first)
    (hstory : P first ((sinceReset entries).flatMap Entry.published) s) (ops : List Operation) :
    ∃ fresh, New fresh ∧
      P fresh ((Session.sinceReset (entries ++ s.history ops)).flatMap Entry.published)
        (s.performAll ops).2 := by
  apply history_since_reset (P := fun since u =>
    ∃ fresh, New fresh ∧ P fresh (since.flatMap Entry.published) u)
  · intro _ u _
    exact ⟨u.reset.2, hreset u, h.rest _⟩
  · rintro since u op hop ⟨fresh, hnew, hsince⟩
    refine ⟨fresh, hnew, ?_⟩
    rw [List.flatMap_append, List.flatMap_singleton]
    exact h.andThen hsince (h.perform hop)
  · exact ⟨first, hfirst, hstory⟩

end StoryLaw

/-- A relation of that kind which a reset has too. -/
structure HistoryLaw (P : Session α → List (Event α) → Session α → Prop) : Prop extends
    StoryLaw P where
  reset : ∀ s : Session α, P s [.reset] s.reset.2

namespace HistoryLaw

variable {P : Session α → List (Event α) → Session α → Prop} {s : Session α}

/-- Every operation keeps it. -/
theorem perform (h : HistoryLaw P) (op : Operation) : P s (s.published op) (s.perform op).2 := by
  cases hop : op.isReset with
  | false => exact h.toStoryLaw.perform hop
  | true =>
      cases op with
      | reset =>
          rw [published_reset]
          exact h.reset s
      | _ => cases hop

/-- So does every history. -/
theorem history (h : HistoryLaw P) (ops : List Operation) :
    P s ((s.history ops).flatMap Entry.published) (s.performAll ops).2 := by
  induction ops generalizing s with
  | nil => exact h.rest s
  | cons op rest ih => exact h.andThen (h.perform op) ih

end HistoryLaw

end Playscript.Session
