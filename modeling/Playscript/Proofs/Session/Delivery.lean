import Playscript.Proofs.Session.Hearing
import Playscript.Proofs.Session.Pausing
import Playscript.Proofs.Session.Replay
import Playscript.Proofs.Session.Story
import Playscript.Proofs.Session.Ticketing
/-! What listeners hear of a run. Every event of a run is published once and in order, over all its
pauses, and in the end they are those of its report; what else is heard meanwhile comes from the
clock. A run that is given up is not heard of again, and who listens makes no difference to anything
else. -/
namespace Playscript

variable {α : Type}

def Event.isEnemyMove : Event α → Bool
  | .enemyMoved _ => true
  | _ => false

/-- The event is part of a run. All other events are those of the clock and of a reset. -/
def Event.isOfRun : Event α → Bool
  | .enemyMoved _ | .reset => false
  | _ => true

theorem Event.isEnemyMove_of_run {e : Event α} (h : e.isOfRun = true) : e.isEnemyMove = false := by
  cases e with
  | enemyMoved near => cases h
  | _ => rfl

/-- The events but for the moves of the enemy. -/
def apartFromEnemy (events : List (Event α)) : List (Event α) :=
  events.filter fun e => !e.isEnemyMove

theorem apartFromEnemy_append (a b : List (Event α)) :
    apartFromEnemy (a ++ b) = apartFromEnemy a ++ apartFromEnemy b :=
  List.filter_append ..

theorem apartFromEnemy_of_run {events : List (Event α)} (h : ∀ e ∈ events, e.isOfRun = true) :
    apartFromEnemy events = events := by
  apply List.filter_eq_self.mpr
  intro e he
  rw [Event.isEnemyMove_of_run (h e he)]
  rfl

theorem moves_of_run {events : List (Event α)} (h : ∀ e ∈ events, e.isOfRun = true) :
    events.filter Event.isEnemyMove = [] := by
  apply List.filter_eq_nil_iff.mpr
  intro e he
  rw [Event.isEnemyMove_of_run (h e he)]
  exact Bool.false_ne_true

namespace Session

theorem isEnemyMove_enemyMoves (w : World α) (places : List Proximity) :
    ∀ e ∈ (enemyMoves w places).1, e.isEnemyMove = true := by
  intro e he
  obtain ⟨near, rfl⟩ := mem_enemyMoves he
  rfl

theorem apartFromEnemy_enemyMoves (w : World α) (places : List Proximity) :
    apartFromEnemy (enemyMoves w places).1 = [] := by
  apply List.filter_eq_nil_iff.mpr
  intro e he
  rw [isEnemyMove_enemyMoves w places e he]
  exact Bool.false_ne_true

variable [Coordinate α] {s : Session α} {t : Ticket}

theorem isOfRun_stepped (s : Session α) (run : ActiveRun α) :
    ∀ e ∈ (s.stepped run).output.events, e.isOfRun = true := by
  intro e he
  have hkind := Script.events_step run.execution s.stage.level.retreat s.settings.pacing s.scene
    e he
  cases e with
  | enemyMoved _ | reset => rcases hkind with h | h <;> cases h
  | _ => rfl

theorem isOfRun_ending (s : Session α) : ∀ e ∈ s.ending.events, e.isOfRun = true := by
  intro e he
  rcases mem_ending he with ⟨index, rfl⟩ | rfl | ⟨done, rfl⟩ <;> rfl

theorem isOfRun_endEvents (s : Session α) (run : ActiveRun α) :
    ∀ e ∈ s.endEvents run, e.isOfRun = true :=
  List.forall_mem_append.mpr ⟨isOfRun_stepped s run, isOfRun_ending (s.stepOn run)⟩

theorem isOfRun_pauses {last : Session α} {events : List (Event α)}
    (hway : Pauses t s events last) : ∀ e ∈ events, e.isOfRun = true :=
  forall_mem_pauses isOfRun_stepped hway

/-! ## The events of a run, over its pauses -/

/-- The run of a ticket has told these events so far, as long as it is active. No other run gets
its ticket. -/
structure Telling (t : Ticket) (told : List (Event α)) (s : Session α) : Prop where
  issued : t.number < s.nextTicket
  active : ∀ run, s.active = some run → run.ticket = t → run.output.events = told

/-- The run of a ticket notes what is heard, but for the moves of the enemy. -/
def Tallies (t : Ticket) (s : Session α) (heard : List (Event α)) (after : Session α) : Prop :=
  ∀ told, Telling t told s → Telling t (told ++ apartFromEnemy heard) after

theorem tallies_law (t : Ticket) : HistoryLaw (α := α) (Tallies t) where
  rest := by
    intro s told h
    rw [apartFromEnemy, List.filter_nil, List.append_nil]
    exact h
  andThen := by
    intro s middle last a b hfirst hsecond told h
    rw [apartFromEnemy_append, ← List.append_assoc]
    exact hsecond _ (hfirst told h)
  begin := by
    intro s source _ told h
    refine ⟨Nat.lt_succ_of_lt h.issued, ?_⟩
    intro run hrun hname
    cases hrun
    have hnew : s.nextTicket = t.number := congrArg Ticket.number hname
    exact absurd h.issued (Nat.not_lt_of_le (Nat.le_of_eq hnew))
  step := by
    intro s run hactive told h
    refine ⟨h.issued, ?_⟩
    intro later hlater hname
    cases hlater
    rw [apartFromEnemy_of_run (isOfRun_stepped s run), ← h.active run hactive hname]
    rfl
  settle := fun _ _ h => ⟨h.issued, nofun⟩
  cancel := fun _ _ h => ⟨h.issued, nofun⟩
  clock := by
    intro s schedule elapsed coin hschedule told h
    rw [advanceClock_of_schedule hschedule, apartFromEnemy_enemyMoves, List.append_nil]
    exact ⟨h.issued, h.active⟩
  listeners := by
    intro s ls told h
    rw [apartFromEnemy, List.filter_nil, List.append_nil]
    exact ⟨h.issued, h.active⟩
  reset := fun _ _ h => ⟨h.issued, nofun⟩

theorem Telling.history {told : List (Event α)} (h : Telling t told s) (ops : List Operation) :
    Telling t (told ++ apartFromEnemy ((s.history ops).flatMap Entry.published))
      (s.performAll ops).2 :=
  (tallies_law t).history ops told h

omit [Coordinate α] in
theorem telling_begun (s : Session α) (source : String) :
    Telling ⟨s.nextTicket⟩ [.runStarted] (s.begun source) where
  issued := Nat.lt_succ_self _
  active := by
    intro run hrun _
    cases hrun
    rfl

/-- A run that is active has told all that has been published since it began, but for the moves of
the enemy. -/
theorem telling_begin (hidle : s.active = none) (source : String) (ops : List Operation) :
    Telling ⟨s.nextTicket⟩
      (apartFromEnemy ((s.history (.begin source :: ops)).flatMap Entry.published))
      ((s.begin source).2.performAll ops).2 := by
  have hperform : s.perform (.begin source) = (.begun (.ok ⟨s.nextTicket⟩), s.begun source) := by
    rw [Session.perform, begin_of_idle hidle]
    rfl
  rw [Session.history, hperform, List.flatMap_cons, apartFromEnemy_append, Entry.published,
    published_begin hidle, begin_of_idle hidle]
  exact (telling_begun s source).history ops

/-- The watermark of a run is the number of its events that have been told. -/
theorem published_eq_told (hidle : s.active = none) (source : String) {ops : List Operation}
    {run : ActiveRun α} (hactive : ((s.begin source).2.performAll ops).2.active = some run)
    (hname : run.ticket = ⟨s.nextTicket⟩) :
    run.published =
      (apartFromEnemy ((s.history (.begin source :: ops)).flatMap Entry.published)).length := by
  rw [run.published_eq, (telling_begin hidle source ops).active run hactive hname]

/-- The report of a run has the events that it had told before and those of its end. -/
theorem Telling.report {told : List (Event α)} (h : Telling t told s) {report : Report α}
    (hreport : (s.resume t).1 = .finished report) :
    report.events = told ++ apartFromEnemy (s.published (.resume t)) := by
  have hout := resumption s t
  generalize s.resume t = out at hout hreport
  cases hout with
  | stale _ => cases hreport
  | paused _ _ _ => cases hreport
  | @finished run hactive hname hstatus =>
      cases hreport
      have htold := h.active run hactive hname
      subst hname
      rw [published_resume_finished hactive hstatus, apartFromEnemy_of_run (isOfRun_endEvents s run),
        endEvents, ← htold, ← List.append_assoc]
      rfl

/-- All that is published from the begin of a run to its end, but for the moves of the enemy, are
the events of its report. -/
theorem published_of_finished (hidle : s.active = none) (source : String) {ops : List Operation}
    {report : Report α}
    (hreport : (((s.begin source).2.performAll ops).2.resume ⟨s.nextTicket⟩).1 = .finished report) :
    apartFromEnemy ((s.history (.begin source :: ops ++ [.resume ⟨s.nextTicket⟩])).flatMap
      Entry.published) = report.events := by
  have hreached : (s.performAll (.begin source :: ops)).2 =
      ((s.begin source).2.performAll ops).2 := rfl
  rw [(telling_begin hidle source ops).report hreport, history_append, List.flatMap_append,
    apartFromEnemy_append, hreached]
  simp only [Session.history, List.flatMap_singleton]
  rfl

theorem published_run_of_report {source : String} {report : Report α}
    (hreport : (s.run source).1 = .ok report) :
    s.published (.run source) = report.events := by
  cases hactive : s.active with
  | some run =>
      rw [run_of_active hactive] at hreport
      cases hreport
  | none =>
      obtain ⟨events, last, final, hway, hfinal, hname, hstatus, hend⟩ := run_ends hactive source
      rw [hend] at hreport
      cases hreport
      have htold := (tallies_law _).ofRuns.pauses hway _ (telling_begun s source)
      rw [apartFromEnemy_of_run (isOfRun_pauses hway)] at htold
      rw [published_run hactive hway hfinal hname hstatus, ← htold.active final hfinal hname,
        endEvents, ← List.append_assoc]
      rfl

/-! ## Who speaks -/

/-- The moves of the enemy that an answer tells of. -/
def Reply.moves : Reply α → List (Event α)
  | .clock moves => moves
  | _ => []

/-- The run that is begun, gone on with or brought to its end. -/
def Entry.speaker? (e : Entry α) : Option Ticket :=
  match e.operation, e.reply with
  | .resume _, .resumed .cancelled => none
  | .resume t, _ => some t
  | _, _ => e.issued?

/-- An operation publishes events of a run when it is on behalf of one, be it active or new, and
none otherwise; the moves of the enemy that it publishes are those of its answer. -/
structure Voices (e : Entry α) : Prop where
  speaker : ∀ t ∈ e.speaker?,
    e.before.active.map ActiveRun.ticket = some t ∨ t = ⟨e.before.nextTicket⟩
  ofRun : e.speaker?.isSome = true → ∀ event ∈ e.published, event.isOfRun = true
  other : e.speaker? = none → ∀ event ∈ e.published, event.isOfRun = false
  moves : e.published.filter Event.isEnemyMove = e.reply.moves

theorem Voices.unspoken {e : Entry α} (hspeaker : e.speaker? = none)
    (h : ∀ event ∈ e.published, event.isOfRun = false)
    (hmoves : e.published.filter Event.isEnemyMove = e.reply.moves) : Voices e := by
  refine ⟨?_, ?_, fun _ => h, hmoves⟩
  · intro t ht
    cases hspeaker.symm.trans ht
  · intro hsome
    rw [hspeaker] at hsome
    cases hsome

theorem Voices.silent {e : Entry α} (hspeaker : e.speaker? = none) (h : e.published = [])
    (hmoves : e.reply.moves = []) : Voices e := by
  apply Voices.unspoken hspeaker
  · rw [h]
    exact List.forall_mem_nil _
  · rw [h, hmoves]
    rfl

theorem Voices.spoken {e : Entry α} {t : Ticket} (hspeaker : e.speaker? = some t)
    (hrun : e.before.active.map ActiveRun.ticket = some t ∨ t = ⟨e.before.nextTicket⟩)
    (h : ∀ event ∈ e.published, event.isOfRun = true) (hmoves : e.reply.moves = []) :
    Voices e := by
  refine ⟨?_, fun _ => h, ?_, ?_⟩
  · intro u hu
    cases hspeaker.symm.trans hu
    exact hrun
  · intro hnone
    cases hspeaker.symm.trans hnone
  · rw [moves_of_run h, hmoves]

theorem voices_begin (s : Session α) (source : String) : Voices (s.entry (.begin source)) := by
  cases hactive : s.active with
  | some run =>
      apply Voices.silent
      · simp only [Entry.speaker?, Entry.issued?, entry, perform, begin_of_active hactive]
        rfl
      · exact published_begin_refused hactive source
      · rfl
  | none =>
      apply Voices.spoken (t := ⟨s.nextTicket⟩)
      · simp only [Entry.speaker?, Entry.issued?, entry, perform, begin_of_idle hactive]
        rfl
      · exact .inr rfl
      · rw [Entry.published, entry, published_begin hactive]
        exact List.forall_mem_singleton.mpr rfl
      · rfl

theorem voices_resume (s : Session α) (t : Ticket) : Voices (s.entry (.resume t)) := by
  have hreply : (s.entry (.resume t)).reply = .resumed (s.resume t).1 := rfl
  have hout := resumption s t
  generalize s.resume t = out at hout hreply
  cases hout with
  | stale hstale =>
      apply Voices.silent
      · rw [Entry.speaker?, hreply]
        rfl
      · exact published_resume_stale hstale
      · rfl
  | @paused run d hactive hname hstatus =>
      subst hname
      apply Voices.spoken (t := run.ticket)
      · rw [Entry.speaker?, hreply]
        rfl
      · exact .inl (congrArg (Option.map ActiveRun.ticket) hactive)
      · rw [Entry.published, entry, published_resume_paused hactive hstatus]
        exact isOfRun_stepped s run
      · rfl
  | @finished run hactive hname hstatus =>
      subst hname
      apply Voices.spoken (t := run.ticket)
      · rw [Entry.speaker?, hreply]
        rfl
      · exact .inl (congrArg (Option.map ActiveRun.ticket) hactive)
      · rw [Entry.published, entry, published_resume_finished hactive hstatus]
        exact isOfRun_endEvents s run
      · rfl

theorem voices_run (s : Session α) (source : String) : Voices (s.entry (.run source)) := by
  cases hactive : s.active with
  | some run =>
      apply Voices.silent
      · simp only [Entry.speaker?, Entry.issued?, entry, begin_of_active hactive]
        rfl
      · exact published_run_refused hactive source
      · rfl
  | none =>
      obtain ⟨events, last, final, hway, hfinal, hname, hstatus, -⟩ := run_ends hactive source
      apply Voices.spoken (t := ⟨s.nextTicket⟩)
      · simp only [Entry.speaker?, Entry.issued?, entry, begin_of_idle hactive]
        rfl
      · exact .inr rfl
      · rw [Entry.published, entry, published_run hactive hway hfinal hname hstatus,
          List.forall_mem_append, List.forall_mem_append]
        exact ⟨⟨List.forall_mem_singleton.mpr rfl, isOfRun_pauses hway⟩,
          isOfRun_endEvents last final⟩
      · rfl

theorem voices_clock (s : Session α) (elapsed : Duration) (coin : Nat → Bool) :
    Voices (s.entry (.advanceClock elapsed coin)) := by
  cases hschedule : s.schedule with
  | none =>
      apply Voices.silent
      · rfl
      · exact published_clock_none hschedule elapsed coin
      · simp only [entry, perform, advanceClock_of_none hschedule]
        rfl
  | some schedule =>
      have hpublished : (s.entry (.advanceClock elapsed coin)).published =
          (enemyMoves s.scene.world (schedule.advance elapsed coin).1).1 :=
        published_clock hschedule elapsed coin
      apply Voices.unspoken rfl
      · intro event hevent
        rw [hpublished] at hevent
        obtain ⟨near, rfl⟩ := mem_enemyMoves hevent
        rfl
      · rw [hpublished, List.filter_eq_self.mpr (isEnemyMove_enemyMoves _ _)]
        simp only [entry, perform, advanceClock_of_schedule hschedule]
        rfl

theorem voices_entry (s : Session α) (op : Operation) : Voices (s.entry op) := by
  cases op with
  | begin source => exact voices_begin s source
  | resume t => exact voices_resume s t
  | run source => exact voices_run s source
  | cancel => exact .silent rfl (published_cancel s) rfl
  | reset =>
      apply Voices.unspoken rfl
      · rw [Entry.published, entry, published_reset]
        exact List.forall_mem_singleton.mpr rfl
      · rw [Entry.published, entry, published_reset]
        rfl
  | advanceClock elapsed coin => exact voices_clock s elapsed coin
  | subscribe => exact .silent rfl (published_subscribe s) rfl
  | unsubscribe index => exact .silent rfl (published_unsubscribe s index) rfl
  | collect index => exact .silent rfl (published_collect s index) rfl

theorem voices_history {ops : List Operation} {e : Entry α} (he : e ∈ s.history ops) :
    Voices e := by
  obtain ⟨hreply, hafter⟩ := mem_history he
  have hentry : e = e.before.entry e.operation := by
    obtain ⟨before, op, reply, after⟩ := e
    rw [entry, ← hreply, ← hafter]
  rw [hentry]
  exact voices_entry e.before e.operation

theorem moves_history (s : Session α) (ops : List Operation) :
    ((s.history ops).flatMap Entry.published).filter Event.isEnemyMove =
      (s.history ops).flatMap fun e => e.reply.moves := by
  rw [List.filter_flatMap]
  exact List.flatMap_congr fun _ he => (voices_history he).moves

/-! ## A run that is over -/

/-- Nothing is done on behalf of a run that is over. -/
theorem Ledger.not_speaks {former spent : List Ticket} (h : Ledger former spent s)
    (ht : t ∈ spent) (op : Operation) : (s.entry op).speaker? ≠ some t := by
  intro hspeaker
  rcases (voices_entry s op).speaker t hspeaker with hactive | hnew
  · exact h.active_ne_of_retired ht hactive
  · have hold := (h.numbers.number_le (h.subset t ht)).2
    have hnext := h.nextTicket
    have hnumber : t.number = s.nextTicket := congrArg Ticket.number hnew
    omega

theorem Ledger.not_speaks_history {former spent : List Ticket} (h : Ledger former spent s)
    (ht : t ∈ spent) (ops : List Operation) : ∀ e ∈ s.history ops, e.speaker? ≠ some t := by
  induction ops generalizing s former spent with
  | nil =>
      intro e he
      cases he
  | cons op rest ih =>
      rw [history_cons, List.forall_mem_cons]
      exact ⟨h.not_speaks ht op, ih (ledger_perform h op) (List.mem_append_left _ ht)⟩

/-- To give up a run publishes nothing of it, and nothing of it is published ever after. -/
theorem Ledger.givenUp {former spent : List Ticket} (h : Ledger former spent s)
    (ht : s.active.map ActiveRun.ticket = some t) {op : Operation} (hop : op.givesUp = true) :
    (∀ event ∈ s.published op, event.isOfRun = false) ∧
      ∀ later,
        let reached := ((s.perform op).2.performAll later).2
        (∀ e ∈ (s.perform op).2.history later, e.speaker? ≠ some t) ∧
          (reached.resume t).1 = .cancelled ∧ reached.published (.resume t) = [] := by
  have hretired : (s.entry op).retired? = some t := by
    cases op with
    | cancel | reset => exact ht
    | _ => cases hop
  have hspent : t ∈ spent ++ (s.entry op).retired?.toList := by
    rw [hretired]
    exact List.mem_append_right _ (List.mem_singleton_self t)
  have hover := ledger_perform h op
  constructor
  · apply (voices_entry s op).other
    cases op with
    | cancel | reset => rfl
    | _ => cases hop
  · intro later reached
    have hstale : reached.active.map ActiveRun.ticket ≠ some t :=
      (hover.history later).active_ne_of_retired (List.mem_append_left _ hspent)
    refine ⟨hover.not_speaks_history hspent later, ?_, ?_⟩
    · rw [resume_of_active_ne hstale]
    · apply published_resume_stale
      intro run hactive hname
      rw [hactive, Option.map_some, hname] at hstale
      exact hstale rfl

/-! ## Who listens -/

/-- The operations that are not about listeners. -/
def unheard (ops : List Operation) : List Operation :=
  ops.filter fun op => !op.isOfListeners

/-- What is answered to the operations that are not about listeners, and what they publish. -/
def course (s : Session α) (ops : List Operation) : List (Reply α × List (Event α)) :=
  ((s.history ops).filter fun e => !e.operation.isOfListeners).map fun e => (e.reply, e.published)

theorem course_cons_of_listeners {op : Operation} (h : op.isOfListeners = true)
    (rest : List Operation) : s.course (op :: rest) = (s.perform op).2.course rest := by
  have hskip : (!(s.entry op).operation.isOfListeners) = false := congrArg (!·) h
  rw [course, history_cons, List.filter_cons, hskip]
  rfl

theorem course_cons {op : Operation} (h : op.isOfListeners = false) (rest : List Operation) :
    s.course (op :: rest) = ((s.perform op).1, s.published op) :: (s.perform op).2.course rest := by
  have hkeep : (!(s.entry op).operation.isOfListeners) = true := congrArg (!·) h
  rw [course, history_cons, List.filter_cons, hkeep]
  rfl

theorem perform_of_listeners {op : Operation} (h : op.isOfListeners = true) :
    s.published op = [] ∧ ∃ ls, (s.perform op).2 = s.heardBy ls := by
  cases op with
  | subscribe => exact ⟨published_subscribe s, _, rfl⟩
  | unsubscribe index => exact ⟨published_unsubscribe s index, exists_unsubscribe_eq s index⟩
  | collect index => exact ⟨published_collect s index, exists_collect_eq s index⟩
  | _ => cases h

/-- What is published is told by the course of the session. -/
theorem published_eq_course (s : Session α) (ops : List Operation) :
    (s.history ops).flatMap Entry.published = (s.course ops).flatMap Prod.snd := by
  induction ops generalizing s with
  | nil => rfl
  | cons op rest ih =>
      rw [history_cons, List.flatMap_cons, ih]
      cases hop : op.isOfListeners with
      | true =>
          have hsilent : (s.entry op).published = [] := (perform_of_listeners hop).1
          rw [course_cons_of_listeners hop, hsilent, List.nil_append]
      | false =>
          rw [course_cons hop, List.flatMap_cons]
          rfl

/-- Whoever listens, and whatever listeners do in between, a session does the same. -/
theorem course_heardBy (s : Session α) (ls : List (Listener α)) (ops : List Operation) :
    (s.heardBy ls).course ops = (s.heardBy []).course (unheard ops) ∧
      ((s.heardBy ls).performAll ops).2.heardBy [] =
        ((s.heardBy []).performAll (unheard ops)).2.heardBy [] := by
  induction ops generalizing s ls with
  | nil => exact ⟨rfl, rfl⟩
  | cons op rest ih =>
      cases hop : op.isOfListeners with
      | true =>
          obtain ⟨-, later, hlater⟩ := perform_of_listeners (s := s.heardBy ls) hop
          have hskip : unheard (op :: rest) = unheard rest :=
            List.filter_cons_of_neg (by rw [hop]; exact Bool.false_ne_true)
          rw [hskip, course_cons_of_listeners hop, performAll, hlater]
          exact ih s later
      | false =>
          obtain ⟨events, htells⟩ := exists_tells (s := s) hop
          have hkeep : unheard (op :: rest) = op :: unheard rest :=
            List.filter_cons_of_pos (by rw [hop]; rfl)
          obtain ⟨hsame, hlast⟩ := ih (s.perform op).2 (ls.map (Listener.tell events))
          have hown := htells ls
          have hnone := htells []
          dsimp only at hown hnone
          rw [hkeep, course_cons hop, course_cons hop, performAll, performAll, hown, hnone]
          exact ⟨congrArg _ hsame, hlast⟩

/-- Two sessions that differ in their listeners only, and in what these do, go the same course, end
alike, and are heard alike by a listener that both have and that does not leave. -/
theorem same_heardBy (s : Session α) {ls ls' : List (Listener α)} {ops ops' : List Operation}
    (hops : unheard ops = unheard ops') :
    (s.heardBy ls).course ops = (s.heardBy ls').course ops' ∧
      ((s.heardBy ls).performAll ops).2.heardBy [] =
        ((s.heardBy ls').performAll ops').2.heardBy [] ∧
      ∀ index index' l, ls[index]? = some l → ls'[index']? = some l → l.present = true →
        .unsubscribe index ∉ ops → .unsubscribe index' ∉ ops' →
          (s.heardBy ls).heardOver index ops = (s.heardBy ls').heardOver index' ops' := by
  obtain ⟨hcourse, hlast⟩ := course_heardBy s ls ops
  obtain ⟨hcourse', hlast'⟩ := course_heardBy s ls' ops'
  rw [hops] at hcourse hlast
  have hsame := hcourse.trans hcourse'.symm
  refine ⟨hsame, hlast.trans hlast'.symm, ?_⟩
  intro index index' l hl hl' hpresent hstays hstays'
  have hheard := heardOver_eq (s := s.heardBy ls) hl hpresent hstays
  have hheard' := heardOver_eq (s := s.heardBy ls') hl' hpresent hstays'
  rw [hheard, hheard', published_eq_course, published_eq_course, hsame]

/-! ## Delivery -/

/-- A listener that comes at any time and does not leave hears all that is published from then on. -/
theorem heardOver_subscribed (s : Session α) {ops : List Operation}
    (hstays : .unsubscribe s.subscribe.1 ∉ ops) :
    s.subscribe.2.heardOver s.subscribe.1 ops =
      (s.subscribe.2.history ops).flatMap Entry.published := by
  have hnew : s.subscribe.2.listeners[s.subscribe.1]? = some ⟨[], true⟩ := by
    simp only [subscribe, List.getElem?_concat_length]
  have hheard := heardOver_eq hnew rfl hstays
  rwa [List.nil_append] at hheard

/-- A listener that comes while a run is under way hears the rest of the events of its report. -/
theorem report_of_subscribed (hidle : s.active = none) (source : String)
    {earlier later : List Operation} {report : Report α}
    (hstays : .unsubscribe ((s.begin source).2.performAll earlier).2.subscribe.1 ∉ later)
    (hreport : ((((s.begin source).2.performAll earlier).2.subscribe.2.performAll later).2.resume
      ⟨s.nextTicket⟩).1 = .finished report) :
    let joined := ((s.begin source).2.performAll earlier).2
    report.events =
      apartFromEnemy ((s.history (.begin source :: earlier)).flatMap Entry.published) ++
        apartFromEnemy (joined.subscribe.2.heardOver joined.subscribe.1
          (later ++ [.resume ⟨s.nextTicket⟩])) := by
  intro joined
  have hjoined : ((s.begin source).2.performAll (earlier ++ .subscribe :: later)).2 =
      (joined.subscribe.2.performAll later).2 := performAll_append _ earlier (.subscribe :: later)
  have hlonger : .unsubscribe joined.subscribe.1 ∉ later ++ [.resume ⟨s.nextTicket⟩] := by
    rw [List.mem_append, List.mem_singleton]
    rintro (hlater | hlast)
    · exact hstays hlater
    · cases hlast
  rw [← hjoined] at hreport
  have hall := published_of_finished hidle source hreport
  have hops : .begin source :: (earlier ++ .subscribe :: later) ++ [.resume ⟨s.nextTicket⟩] =
      (.begin source :: earlier) ++ .subscribe :: (later ++ [.resume ⟨s.nextTicket⟩]) := by
    simp only [List.cons_append, List.append_assoc]
  rw [heardOver_subscribed joined hlonger, ← hall, hops, history_append, List.flatMap_append,
    apartFromEnemy_append]
  rfl

/-- Every event of a run is delivered once and in order. A listener that was there before a run
begins, and is still there when it finishes, has heard the events of its report in between, and
besides them just the moves of the enemy that the clock has answered; a listener that comes in
between hears all that is published after it came, and so the rest of the report. When a run is
given up nothing more is heard of it. Whoever listens, the session does and answers the same and the
others hear the same. -/
theorem run_events_delivered (stage : Stage α) (settings : Settings) (before : List Operation) :
    let s := ((start stage settings).performAll before).2
    (∀ source index l ops report, s.active = none → s.listeners[index]? = some l →
      l.present = true → .unsubscribe index ∉ ops →
      (((s.begin source).2.performAll ops).2.resume ⟨s.nextTicket⟩).1 = .finished report →
        let whole := .begin source :: ops ++ [.resume ⟨s.nextTicket⟩]
        ∃ heard, s.heardOver index whole = l.heard ++ heard ∧
          apartFromEnemy heard = report.events ∧
          heard.filter Event.isEnemyMove = (s.history whole).flatMap fun e => e.reply.moves) ∧
    (∀ source report, (s.run source).1 = .ok report →
      s.published (.run source) = report.events) ∧
    (∀ ops, .unsubscribe s.subscribe.1 ∉ ops →
      s.subscribe.2.heardOver s.subscribe.1 ops =
        (s.subscribe.2.history ops).flatMap Entry.published) ∧
    (∀ source earlier later report, s.active = none →
      let joined := ((s.begin source).2.performAll earlier).2
      .unsubscribe joined.subscribe.1 ∉ later →
      ((joined.subscribe.2.performAll later).2.resume ⟨s.nextTicket⟩).1 = .finished report →
        report.events =
          apartFromEnemy ((s.history (.begin source :: earlier)).flatMap Entry.published) ++
            apartFromEnemy (joined.subscribe.2.heardOver joined.subscribe.1
              (later ++ [.resume ⟨s.nextTicket⟩]))) ∧
    (∀ t op, s.active.map ActiveRun.ticket = some t → op.givesUp = true →
      (∀ event ∈ s.published op, event.isOfRun = false) ∧
        ∀ later,
          let reached := ((s.perform op).2.performAll later).2
          (∀ e ∈ (s.perform op).2.history later, e.speaker? ≠ some t ∧
            (e.speaker? = none → ∀ event ∈ e.published, event.isOfRun = false)) ∧
          (reached.resume t).1 = .cancelled ∧ reached.published (.resume t) = []) ∧
    ∀ ls ls' ops ops', unheard ops = unheard ops' →
      (s.heardBy ls).course ops = (s.heardBy ls').course ops' ∧
        ((s.heardBy ls).performAll ops).2.heardBy [] =
          ((s.heardBy ls').performAll ops').2.heardBy [] ∧
        ∀ index index' l, ls[index]? = some l → ls'[index']? = some l → l.present = true →
          .unsubscribe index ∉ ops → .unsubscribe index' ∉ ops' →
            (s.heardBy ls).heardOver index ops = (s.heardBy ls').heardOver index' ops' := by
  intro s
  refine ⟨?_, ?_, ?_, ?_, ?_, ?_⟩
  · intro source index l ops report hidle hl hpresent hstays hreport whole
    have hlonger : .unsubscribe index ∉ whole := by
      rw [List.mem_append, List.mem_cons, List.mem_singleton]
      rintro ((hfirst | hops) | hlast)
      · cases hfirst
      · exact hstays hops
      · cases hlast
    exact ⟨_, heardOver_eq hl hpresent hlonger, published_of_finished hidle source hreport,
      moves_history s whole⟩
  · intro source report
    exact published_run_of_report
  · intro ops
    exact heardOver_subscribed s
  · intro source earlier later report hidle joined
    exact report_of_subscribed hidle source
  · intro t op ht hop
    have ledger := ledger_history stage settings before
    obtain ⟨hsilent, hlater⟩ := ledger.givenUp ht hop
    refine ⟨hsilent, ?_⟩
    intro later reached
    obtain ⟨hspeakers, hover⟩ := hlater later
    refine ⟨?_, hover⟩
    intro e he
    exact ⟨hspeakers e he, (voices_history he).other⟩
  · intro ls ls' ops ops'
    exact same_heardBy s

/-- A loop with a pause, in which the enemy comes near and a second listener joins. -/
def twoShots : String :=
  "for (int i = 0; i < 2; i++) \x7b shoot(); \x7d"

def meanwhile : List Operation :=
  [.resume ⟨1⟩, .advanceClock (.ofMillis 4000) fun _ => true, .collect 0, .subscribe]

set_option maxRecDepth 6000 in
theorem run_events_delivered_twoShots :
    let s := ((start freeRoam .standard).performAll [.subscribe]).2
    ∃ report,
      (((s.begin twoShots).2.performAll meanwhile).2.resume ⟨1⟩).1 = .finished report ∧
        apartFromEnemy (s.heardOver 0 (.begin twoShots :: meanwhile ++ [.resume ⟨1⟩])) =
          report.events := by
  intro s
  have hidle : s.active = none := rfl
  have hkeeps : ∀ op ∈ meanwhile, op.givesUp = false := by
    simp [meanwhile, Operation.givesUp]
  have hrounds : (freeRoam.recognize twoShots).flatMap Script.Statement.earlierRounds = [0] := by
    have hallowed : freeRoam.level.allowed =
        .ofList [.moveLeft, .moveRight, .jump, .shoot, .moveBack, .setSpeed] := rfl
    rw [Stage.recognize, hallowed]
    cbv
  have hwaits : meanwhile.countP (·.goesOn ⟨1⟩) = Script.waits (freeRoam.recognize twoShots) := by
    rw [← Script.length_flatMap_earlierRounds, hrounds]
    rfl
  obtain ⟨report, hreport⟩ := (finish_of_waits hidle twoShots hkeeps hwaits).1
  have hstays : .unsubscribe 0 ∉ meanwhile := by simp [meanwhile]
  obtain ⟨heard, hheard, hevents, -⟩ := (run_events_delivered freeRoam .standard [.subscribe]).1
    twoShots 0 ⟨[], true⟩ meanwhile report hidle rfl rfl hstays hreport
  refine ⟨report, hreport, ?_⟩
  rw [← hevents]
  exact congrArg apartFromEnemy hheard

end Session

end Playscript
