import Playscript.Proofs.Session.Step
/-! What holds of every session of an attempt: it stays on its stage and with its settings, its
schedule can be put back to that of a new session, and its tickets are numbered in order. -/
namespace Playscript.Session

variable {α : Type} [Coordinate α]

/-- A session of an attempt at a stage. Its tickets are numbered from one on, and restarting its
schedule gives the schedule of a new session. -/
structure Attempts (stage : Stage α) (settings : Settings) (s : Session α) : Prop where
  stage_eq : s.stage = stage
  settings_eq : s.settings = settings
  schedule : s.schedule.map Schedule.restart =
    stage.level.enemy.map fun _ => settings.enemy.schedule
  nextTicket : 0 < s.nextTicket
  active : ∀ run, s.active = some run →
    0 < run.ticket.number ∧ run.ticket.number < s.nextTicket

omit [Coordinate α] in
theorem attempts_start (stage : Stage α) (settings : Settings) :
    Attempts stage settings (start stage settings) where
  stage_eq := rfl
  settings_eq := rfl
  schedule := by
    unfold start
    cases stage.level.enemy <;> rfl
  nextTicket := Nat.zero_lt_one
  active := by
    intro run hrun
    cases hrun

theorem restart_settled (s : Session α) :
    s.settled.schedule.map Schedule.restart = s.schedule.map Schedule.restart := by
  unfold settled
  cases s.completesNow with
  | false => rfl
  | true =>
      simp only [if_pos, Option.map_map]
      rfl

theorem Attempts.ended {stage : Stage α} {settings : Settings} {s : Session α}
    (h : Attempts stage settings s) (run : ActiveRun α) :
    Attempts stage settings (s.ended run).2 where
  stage_eq := h.stage_eq
  settings_eq := h.settings_eq
  schedule := (restart_settled (s.stepOn run)).trans h.schedule
  nextTicket := h.nextTicket
  active := by
    intro later hlater
    cases hlater

theorem attempts_law (stage : Stage α) (settings : Settings) :
    SessionLaw (Attempts (α := α) stage settings) where
  begin := by
    intro s source hidle h
    refine ⟨h.stage_eq, h.settings_eq, h.schedule, Nat.succ_pos _, ?_⟩
    intro run hrun
    cases hrun
    exact ⟨h.nextTicket, Nat.lt_succ_self _⟩
  pause := by
    intro s run d hactive hstatus h
    refine ⟨h.stage_eq, h.settings_eq, h.schedule, h.nextTicket, ?_⟩
    intro later hlater
    cases hlater
    exact h.active run hactive
  finish := by
    intro s run hactive hstatus h
    exact h.ended run
  cancel := fun h => ⟨h.stage_eq, h.settings_eq, h.schedule, h.nextTicket, nofun⟩
  reset := by
    intro s h
    refine ⟨h.stage_eq, h.settings_eq, ?_, h.nextTicket, nofun⟩
    rw [← h.schedule, reset_eq]
    simp only [publish, restarted, Option.map_map]
    rfl
  clock := by
    intro s schedule elapsed coin hschedule h
    rw [advanceClock_of_schedule hschedule]
    refine ⟨h.stage_eq, h.settings_eq, ?_, h.nextTicket, h.active⟩
    rw [← h.schedule, hschedule]
    simp only [publish, afterMoves, Option.map_some, Schedule.restart_advance]
  listeners := fun _ h => ⟨h.stage_eq, h.settings_eq, h.schedule, h.nextTicket, h.active⟩

/-- Whatever is done in a session, it keeps its stage and its settings. -/
theorem setup_law (stage : Stage α) (settings : Settings) :
    SessionLaw fun s => s.stage = stage ∧ s.settings = settings where
  begin := fun _ _ h => h
  pause := fun _ _ h => h
  finish := fun _ _ h => h
  cancel := fun h => h
  reset := fun h => h
  clock := by
    intro s schedule elapsed coin hschedule h
    rw [advanceClock_of_schedule hschedule]
    exact h
  listeners := fun _ h => h

/-! ## Tickets -/

theorem nextTicket_law (n : Nat) : SessionLaw (α := α) fun s => n ≤ s.nextTicket where
  begin := fun _ _ h => Nat.le_succ_of_le h
  pause := fun _ _ h => h
  finish := fun _ _ h => h
  cancel := fun h => h
  reset := fun h => h
  clock := by
    intro s schedule elapsed coin hschedule h
    rw [advanceClock_of_schedule hschedule]
    exact h
  listeners := fun _ h => h

theorem begun_lt_nextTicket {s : Session α} {op : Operation} {t : Ticket}
    (h : (s.perform op).1 = .begun (.ok t)) : t.number < (s.perform op).2.nextTicket := by
  cases op with
  | begin source =>
      simp only [perform, Prod.map_fst, Prod.map_snd, id_eq] at h ⊢
      cases hactive : s.active with
      | some run =>
          rw [begin_of_active hactive] at h
          cases h
      | none =>
          rw [begin_of_idle hactive] at h ⊢
          cases h
          exact Nat.lt_succ_self _
  | resume | run | cancel | reset | advanceClock | subscribe | unsubscribe | collect => cases h

theorem issued_lt_nextTicket {ops : List Operation} {t : Ticket} :
    ∀ {s : Session α}, .begun (.ok t) ∈ (s.performAll ops).1 →
      t.number < (s.performAll ops).2.nextTicket := by
  induction ops with
  | nil =>
      intro s h
      cases h
  | cons op rest ih =>
      intro s h
      rcases List.mem_cons.mp h with hfirst | hlater
      · have hlt := begun_lt_nextTicket hfirst.symm
        exact (nextTicket_law (t.number + 1)).performAll rest hlt
      · exact ih hlater

end Playscript.Session
