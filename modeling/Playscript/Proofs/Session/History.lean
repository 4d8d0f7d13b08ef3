import Playscript.Proofs.Session.Step
/-! The history of a session: what was asked, what was answered, and what listeners heard of it.
The operations other than those of the listeners themselves tell all listeners the same and take no
other notice of them, so what is heard of an operation is what a lone listener hears. -/
namespace Playscript

variable {α : Type}

@[simp] theorem Listener.tell_nil (l : Listener α) : l.tell [] = l := by
  cases l with
  | mk heard present =>
      cases present with
      | true => simp only [Listener.tell, List.append_nil, if_pos]
      | false => rfl

theorem Listener.tell_append (a b : List (Event α)) (l : Listener α) :
    l.tell (a ++ b) = (l.tell a).tell b := by
  cases l with
  | mk heard present =>
      cases present with
      | true => simp only [Listener.tell, List.append_assoc, if_pos]
      | false => rfl

namespace Session

theorem map_tell_append (a b : List (Event α)) (ls : List (Listener α)) :
    ls.map (Listener.tell (a ++ b)) = (ls.map (Listener.tell a)).map (Listener.tell b) := by
  rw [List.map_map]
  exact List.map_congr_left fun l _ => l.tell_append a b

theorem map_tell_nil (ls : List (Listener α)) : ls.map (Listener.tell []) = ls := by
  induction ls with
  | nil => rfl
  | cons l rest ih => rw [List.map_cons, ih, Listener.tell_nil]

/-! ## What listeners hear -/

def heardBy (s : Session α) (ls : List (Listener α)) : Session α :=
  { s with listeners := ls }

/-- The operation tells all listeners these events and is not influenced by them. -/
def Tells {β : Type} (f : Session α → β × Session α) (s : Session α)
    (events : List (Event α)) : Prop :=
  ∀ ls, f (s.heardBy ls) = ((f s).1, (f s).2.heardBy (ls.map (Listener.tell events)))

theorem tells_nothing {β : Type} {f : Session α → β × Session α} {s : Session α} (answer : β)
    (h : ∀ ls, f (s.heardBy ls) = (answer, s.heardBy ls)) : Tells f s [] := by
  intro ls
  have hs : f s = (answer, s) := h s.listeners
  rw [h ls, hs, map_tell_nil]

theorem Tells.map {β γ : Type} {f : Session α → β × Session α} {s : Session α}
    {events : List (Event α)} (h : Tells f s events) (g : β → γ) :
    Tells (fun s => (f s).map g id) s events := by
  intro ls
  dsimp only
  rw [h ls]
  rfl

variable [Coordinate α]

/-- What is heard of an operation. -/
def published (s : Session α) (op : Operation) : List (Event α) :=
  ((s.heardBy [⟨[], true⟩]).perform op).2.listeners.flatMap Listener.heard

theorem published_of_tells {s : Session α} {op : Operation} {events : List (Event α)}
    (h : Tells (fun s => s.perform op) s events) : s.published op = events := by
  have hlone := congrArg Prod.snd (h [⟨[], true⟩])
  dsimp only at hlone
  rw [published, hlone]
  simp [heardBy, Listener.tell]

omit [Coordinate α] in
theorem tells_begin {s : Session α} (hidle : s.active = none) (source : String) :
    Tells (fun s => s.begin source) s [.runStarted] := by
  intro ls
  have hother : (s.heardBy ls).active = none := hidle
  simp only [begin_of_idle hidle, begin_of_idle hother]
  rfl

omit [Coordinate α] in
theorem tells_begin_refused {s : Session α} {run : ActiveRun α} (hactive : s.active = some run)
    (source : String) : Tells (fun s => s.begin source) s [] := by
  refine tells_nothing (.error .runInProgress) fun ls => ?_
  have hother : (s.heardBy ls).active = some run := hactive
  exact begin_of_active hother source

/-- What is heard of the last step of a run and of its end. -/
def endEvents (s : Session α) (run : ActiveRun α) : List (Event α) :=
  (s.stepped run).output.events ++ (s.stepOn run).ending.events

theorem ended_heardBy (s : Session α) (run : ActiveRun α) (ls : List (Listener α)) :
    (s.heardBy ls).ended run =
      ((s.ended run).1, (s.ended run).2.heardBy (ls.map (Listener.tell (s.endEvents run)))) := by
  rw [endEvents, map_tell_append, ended, ended, finish_eq, finish_eq]
  rfl

theorem tells_resume_stale {s : Session α} {t : Ticket}
    (h : ∀ run, s.active = some run → run.ticket ≠ t) : Tells (fun s => s.resume t) s [] := by
  refine tells_nothing .cancelled fun ls => ?_
  have hother : ∀ run, (s.heardBy ls).active = some run → run.ticket ≠ t := h
  exact resume_of_stale hother

theorem tells_resume_paused {s : Session α} {run : ActiveRun α} {d : Duration}
    (hactive : s.active = some run) (h : (s.stepped run).status = .paused d) :
    Tells (fun s => s.resume run.ticket) s (s.stepped run).output.events := by
  intro ls
  have hother : (s.heardBy ls).active = some run := hactive
  have hstep : ((s.heardBy ls).stepped run).status = .paused d := h
  simp only [resume_of_paused hactive h, resume_of_paused hother hstep]
  rfl

theorem tells_resume_finished {s : Session α} {run : ActiveRun α}
    (hactive : s.active = some run) (h : (s.stepped run).status = .finished) :
    Tells (fun s => s.resume run.ticket) s (s.endEvents run) := by
  intro ls
  have hother : (s.heardBy ls).active = some run := hactive
  have hstep : ((s.heardBy ls).stepped run).status = .finished := h
  simp only [resume_of_finished hactive h, resume_of_finished hother hstep, ended_heardBy]

theorem pauses_heardBy {t : Ticket} {s last : Session α} {events : List (Event α)}
    (hway : Pauses t s events last) (ls : List (Listener α)) :
    Pauses t (s.heardBy ls) events (last.heardBy (ls.map (Listener.tell events))) := by
  induction hway generalizing ls with
  | none s =>
      rw [map_tell_nil]
      exact .none _
  | @more s last run d events hactive ht hstatus _ ih =>
      rw [map_tell_append]
      have hother : (s.heardBy ls).active = some run := hactive
      have hstep : ((s.heardBy ls).stepped run).status = .paused d := hstatus
      exact .more hother ht hstep (ih (ls.map (Listener.tell (s.stepped run).output.events)))

theorem tells_run {s last : Session α} (hidle : s.active = none) {source : String}
    {events : List (Event α)} {final : ActiveRun α}
    (hway : Pauses ⟨s.nextTicket⟩ (s.begun source) events last)
    (hfinal : last.active = some final) (hname : final.ticket = ⟨s.nextTicket⟩)
    (hstatus : (last.stepped final).status = .finished) :
    Tells (fun s => s.run source) s ([.runStarted] ++ events ++ last.endEvents final) := by
  intro ls
  have hother : (s.heardBy ls).active = none := hidle
  have htold := pauses_heardBy hway (ls.map (Listener.tell [.runStarted]))
  have hend {u : Session α} (hu : u.active = some final)
      (hstep : (u.stepped final).status = .finished) :
      u.runOn ⟨s.nextTicket⟩ = (.ok (u.ended final).1, (u.ended final).2) :=
    hname ▸ runOn_of_finished (resume_of_finished hu hstep)
  have hown := (runOn_of_pauses hway).trans (hend hfinal hstatus)
  have hheard := (runOn_of_pauses htold).trans
    (hend (u := last.heardBy _) hfinal hstatus)
  rw [ended_heardBy, ← map_tell_append, ← map_tell_append, ← List.append_assoc] at hheard
  simp only [run_of_idle hidle, run_of_idle hother]
  exact hheard.trans (by rw [show (s.newRun source).ticket = ⟨s.nextTicket⟩ from rfl, hown])

omit [Coordinate α] in
theorem tells_cancel (s : Session α) : Tells (fun s => s.cancel) s [] := by
  intro ls
  rw [map_tell_nil]
  rfl

omit [Coordinate α] in
theorem tells_reset (s : Session α) : Tells (fun s => s.reset) s [.reset] :=
  fun _ => rfl

omit [Coordinate α] in
theorem tells_advanceClock {s : Session α} {schedule : Schedule}
    (hschedule : s.schedule = some schedule) (elapsed : Duration) (coin : Nat → Bool) :
    Tells (fun s => s.advanceClock elapsed coin) s
      (enemyMoves s.scene.world (schedule.advance elapsed coin).1).1 := by
  intro ls
  have hother : (s.heardBy ls).schedule = some schedule := hschedule
  simp only [advanceClock_of_schedule hschedule, advanceClock_of_schedule hother]
  rfl

omit [Coordinate α] in
theorem tells_advanceClock_none {s : Session α} (hschedule : s.schedule = none)
    (elapsed : Duration) (coin : Nat → Bool) :
    Tells (fun s => s.advanceClock elapsed coin) s [] := by
  refine tells_nothing [] fun ls => ?_
  have hother : (s.heardBy ls).schedule = none := hschedule
  exact advanceClock_of_none hother elapsed coin

theorem published_run {s last : Session α} (hidle : s.active = none) {source : String}
    {events : List (Event α)} {final : ActiveRun α}
    (hway : Pauses ⟨s.nextTicket⟩ (s.begun source) events last)
    (hfinal : last.active = some final) (hname : final.ticket = ⟨s.nextTicket⟩)
    (hstatus : (last.stepped final).status = .finished) :
    s.published (.run source) = [.runStarted] ++ events ++ last.endEvents final :=
  published_of_tells ((tells_run hidle hway hfinal hname hstatus).map Reply.ran)

theorem published_run_refused {s : Session α} {run : ActiveRun α}
    (hactive : s.active = some run) (source : String) : s.published (.run source) = [] := by
  refine published_of_tells (tells_nothing (.ran (.error .runInProgress)) fun ls => ?_)
  have hother : (s.heardBy ls).active = some run := hactive
  simp only [perform, run_of_active hother]
  rfl

theorem published_begin {s : Session α} (hidle : s.active = none) (source : String) :
    s.published (.begin source) = [.runStarted] :=
  published_of_tells ((tells_begin hidle source).map Reply.begun)

theorem published_begin_refused {s : Session α} {run : ActiveRun α}
    (hactive : s.active = some run) (source : String) : s.published (.begin source) = [] :=
  published_of_tells ((tells_begin_refused hactive source).map Reply.begun)

theorem published_resume_stale {s : Session α} {t : Ticket}
    (h : ∀ run, s.active = some run → run.ticket ≠ t) : s.published (.resume t) = [] :=
  published_of_tells ((tells_resume_stale h).map Reply.resumed)

theorem published_resume_paused {s : Session α} {run : ActiveRun α} {d : Duration}
    (hactive : s.active = some run) (h : (s.stepped run).status = .paused d) :
    s.published (.resume run.ticket) = (s.stepped run).output.events :=
  published_of_tells ((tells_resume_paused hactive h).map Reply.resumed)

theorem published_resume_finished {s : Session α} {run : ActiveRun α}
    (hactive : s.active = some run) (h : (s.stepped run).status = .finished) :
    s.published (.resume run.ticket) = s.endEvents run :=
  published_of_tells ((tells_resume_finished hactive h).map Reply.resumed)

theorem published_cancel (s : Session α) : s.published .cancel = [] :=
  published_of_tells ((tells_cancel s).map Reply.cancelled)

theorem published_reset (s : Session α) : s.published .reset = [.reset] :=
  published_of_tells ((tells_reset s).map Reply.reset)

theorem published_clock {s : Session α} {schedule : Schedule}
    (hschedule : s.schedule = some schedule) (elapsed : Duration) (coin : Nat → Bool) :
    s.published (.advanceClock elapsed coin) =
      (enemyMoves s.scene.world (schedule.advance elapsed coin).1).1 :=
  published_of_tells ((tells_advanceClock hschedule elapsed coin).map Reply.clock)

theorem published_clock_none {s : Session α} (hschedule : s.schedule = none)
    (elapsed : Duration) (coin : Nat → Bool) :
    s.published (.advanceClock elapsed coin) = [] :=
  published_of_tells ((tells_advanceClock_none hschedule elapsed coin).map Reply.clock)

theorem published_subscribe (s : Session α) : s.published .subscribe = [] := rfl

theorem published_unsubscribe (s : Session α) (index : Nat) :
    s.published (.unsubscribe index) = [] := by
  cases index <;> rfl

theorem published_collect (s : Session α) (index : Nat) : s.published (.collect index) = [] := by
  cases index <;> rfl

/-! ## What was asked and answered -/

/-- An operation with its answer, and the session before and after it. -/
structure Entry (α : Type) where
  before : Session α
  operation : Operation
  reply : Reply α
  after : Session α

def entry (s : Session α) (op : Operation) : Entry α :=
  ⟨s, op, (s.perform op).1, (s.perform op).2⟩

def history (s : Session α) : List Operation → List (Entry α)
  | [] => []
  | op :: rest =>
      let done := s.perform op
      ⟨s, op, done.1, done.2⟩ :: done.2.history rest

theorem history_cons (s : Session α) (op : Operation) (rest : List Operation) :
    s.history (op :: rest) = s.entry op :: (s.perform op).2.history rest := rfl

theorem history_append (s : Session α) (first later : List Operation) :
    s.history (first ++ later) = s.history first ++ (s.performAll first).2.history later := by
  induction first generalizing s with
  | nil => rfl
  | cons op rest ih =>
      rw [List.cons_append, history_cons, history_cons, ih, List.cons_append]
      rfl

theorem performAll_append (s : Session α) (first later : List Operation) :
    (s.performAll (first ++ later)).2 = ((s.performAll first).2.performAll later).2 := by
  induction first generalizing s with
  | nil => rfl
  | cons op rest ih => exact ih (s.perform op).2

theorem mem_history {s : Session α} {ops : List Operation} {e : Entry α}
    (he : e ∈ s.history ops) :
    e.reply = (e.before.perform e.operation).1 ∧ e.after = (e.before.perform e.operation).2 := by
  induction ops generalizing s with
  | nil => cases he
  | cons op rest ih =>
      rcases List.mem_cons.mp he with rfl | hlater
      · exact ⟨rfl, rfl⟩
      · exact ih hlater

def Operation.isReset : Operation → Bool
  | .reset => true
  | _ => false

/-- The entries after the last reset. -/
def sinceReset (entries : List (Entry α)) : List (Entry α) :=
  (entries.reverse.takeWhile fun e => !e.operation.isReset).reverse

omit [Coordinate α] in
theorem sinceReset_append (entries : List (Entry α)) (e : Entry α) :
    sinceReset (entries ++ [e]) =
      if e.operation.isReset then [] else sinceReset entries ++ [e] := by
  unfold sinceReset
  rw [List.reverse_append, List.reverse_singleton, List.singleton_append, List.takeWhile_cons]
  cases e.operation.isReset with
  | true => rfl
  | false => exact List.reverse_cons

omit [Coordinate α] in
theorem mem_of_sinceReset {entries : List (Entry α)} {e : Entry α}
    (he : e ∈ sinceReset entries) : e ∈ entries := by
  have hkept := List.takeWhile_subset _ (List.mem_reverse.mp he)
  exact List.mem_reverse.mp hkept

theorem sinceReset_entry {entries : List (Entry α)} {s : Session α} {op : Operation}
    (h : op.isReset = false) :
    sinceReset (entries ++ [s.entry op]) = sinceReset entries ++ [s.entry op] := by
  have hentry : (s.entry op).operation.isReset = false := h
  rw [sinceReset_append, hentry]
  rfl

/-- What relates a session to its entries since the last reset holds over every history, if a reset
brings it about and every other operation keeps it. -/
theorem history_since_reset {P : List (Entry α) → Session α → Prop}
    (hreset : ∀ {since s}, P since s → P [] s.reset.2)
    (hentry : ∀ {since s op}, op.isReset = false → P since s →
      P (since ++ [s.entry op]) (s.perform op).2)
    {entries : List (Entry α)} {s : Session α} (h : P (sinceReset entries) s)
    (ops : List Operation) :
    P (sinceReset (entries ++ s.history ops)) (s.performAll ops).2 := by
  induction ops generalizing s entries with
  | nil =>
      rw [history, List.append_nil]
      exact h
  | cons op rest ih =>
      rw [history_cons, List.append_cons]
      apply ih
      cases hop : op.isReset with
      | false =>
          rw [sinceReset_entry hop]
          exact hentry hop h
      | true =>
          have hlast : (s.entry op).operation.isReset = true := hop
          rw [sinceReset_append, hlast, if_pos rfl]
          cases op with
          | reset => exact hreset h
          | _ => cases hop

def Entry.published (e : Entry α) : List (Event α) :=
  e.before.published e.operation

/-- The report of a run that ends. -/
def Reply.report? : Reply α → Option (Report α)
  | .resumed (.finished report) => some report
  | .ran (.ok report) => some report
  | _ => none

end Session

end Playscript
