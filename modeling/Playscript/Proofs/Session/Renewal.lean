import Playscript.Proofs.Session.Attempt
/-! A session that has been reset is as good as a new one. The two differ in the tickets that they
have issued and in the listeners that they have taken before; counted from there, they answer
everything alike. -/
namespace Playscript

variable {α : Type}

def ActiveRun.aged (run : ActiveRun α) (k : Nat) : ActiveRun α :=
  { run with ticket := ⟨run.ticket.number + k⟩ }

theorem ActiveRun.aged_upTo (t : Ticket) (execution : Script.Execution) (output : Output α)
    (k : Nat) : (upTo t execution output).aged k = upTo ⟨t.number + k⟩ execution output := rfl

namespace Session

/-- The session with its tickets counted from `k` and with older listeners before its own. -/
def aged (s : Session α) (k : Nat) (old : List (Listener α)) : Session α :=
  { s with
    active := s.active.map fun run => run.aged k
    nextTicket := s.nextTicket + k
    listeners := old ++ s.listeners }

/-- The sessions differ by `k` tickets and `m` listeners from before. -/
def Renews (k m : Nat) (s new : Session α) : Prop :=
  ∃ old : List (Listener α), old.length = m ∧ s = new.aged k old

theorem aged_renews {k : Nat} (new : Session α) (old : List (Listener α)) :
    Renews k old.length (new.aged k old) new :=
  ⟨old, rfl, rfl⟩

/-- What can be seen of a session. -/
structure View (α : Type) where
  status : Status
  scene : Scene α
  completed : Bool
  schedule : Option Schedule

def view (s : Session α) : View α :=
  ⟨s.status, s.scene, s.completed, s.schedule⟩

theorem Renews.view {k m : Nat} {s new : Session α} (h : Renews k m s new) :
    s.view = new.view := by
  obtain ⟨old, -, rfl⟩ := h
  unfold Session.view status aged
  cases new.active <;> rfl

theorem publish_aged (new : Session α) (k : Nat) (old : List (Listener α))
    (events : List (Event α)) :
    (new.aged k old).publish events =
      (new.publish events).aged k (old.map (Listener.tell events)) := by
  simp only [publish, aged, List.map_append]

theorem Renews.publish {k m : Nat} {s new : Session α} (h : Renews k m s new)
    (events : List (Event α)) : Renews k m (s.publish events) (new.publish events) := by
  obtain ⟨old, rfl, rfl⟩ := h
  exact ⟨_, List.length_map _, publish_aged new k old events⟩

/-! ## Matching operations and answers -/

/-- The operation of a new session that matches an operation of a session which issued `k` tickets
and took `m` listeners before its reset. What names an old ticket or listener has no match. -/
def Operation.renewed? (k m : Nat) : Operation → Option Operation
  | .resume t => if k < t.number then some (.resume ⟨t.number - k⟩) else none
  | .unsubscribe index => if m ≤ index then some (.unsubscribe (index - m)) else none
  | .collect index => if m ≤ index then some (.collect (index - m)) else none
  | op => some op

/-- The answer of a new session that matches an answer of the reset one. -/
def Reply.renewed (k m : Nat) : Reply α → Reply α
  | .begun (.ok t) => .begun (.ok ⟨t.number - k⟩)
  | .resumed (.paused t d) => .resumed (.paused ⟨t.number - k⟩ d)
  | .subscribed index => .subscribed (index - m)
  | reply => reply

/-- The matches of the answers to those operations that have a match. -/
def renewedReplies (k m : Nat) : List Operation → List (Reply α) → List (Reply α)
  | op :: ops, reply :: replies =>
      match op.renewed? k m with
      | some _ => reply.renewed k m :: renewedReplies k m ops replies
      | none => renewedReplies k m ops replies
  | _, _ => []

/-! ## Runs -/

theorem begun_aged (new : Session α) (k : Nat) (old : List (Listener α)) (source : String) :
    (new.aged k old).begun source =
      (new.begun source).aged k (old.map (Listener.tell [.runStarted])) := by
  simp only [begun, newRun, aged, publish, ActiveRun.aged_upTo, Option.map_some, List.map_append,
    Nat.add_right_comm]

theorem begin_renews {k m : Nat} {s new : Session α} (h : Renews k m s new) (source : String) :
    (Reply.begun (s.begin source).1 : Reply α).renewed k m = .begun (new.begin source).1 ∧
      Renews k m (s.begin source).2 (new.begin source).2 := by
  obtain ⟨old, rfl, rfl⟩ := h
  cases hactive : new.active with
  | some run =>
      have hold : (new.aged k old).active = some (run.aged k) := by
        simp only [aged, hactive, Option.map_some]
      rw [begin_of_active hactive, begin_of_active hold]
      exact ⟨rfl, aged_renews new old⟩
  | none =>
      have hold : (new.aged k old).active = none := by
        simp only [aged, hactive, Option.map_none]
      rw [begin_of_idle hactive, begin_of_idle hold, begun_aged]
      refine ⟨?_, ?_⟩
      · simp only [Reply.renewed, aged, Nat.add_sub_cancel]
      · exact ⟨_, List.length_map _, rfl⟩

variable [Coordinate α]

theorem stepOn_aged (new : Session α) (k : Nat) (old : List (Listener α)) (run : ActiveRun α) :
    (new.aged k old).stepOn (run.aged k) =
      (new.stepOn run).aged k (old.map (Listener.tell (new.stepped run).output.events)) :=
  publish_aged { new with scene := (new.stepped run).scene, active := some (new.runAfter run) } k old
    (new.stepped run).output.events

theorem ended_aged (new : Session α) (k : Nat) (old : List (Listener α)) (run : ActiveRun α) :
    ((new.aged k old).ended (run.aged k)).1 = (new.ended run).1 ∧
      ((new.aged k old).ended (run.aged k)).2 =
        (new.ended run).2.aged k ((old.map (Listener.tell (new.stepped run).output.events)).map
          (Listener.tell (new.stepOn run).ending.events)) := by
  have hafter : (new.aged k old).runAfter (run.aged k) = (new.runAfter run).aged k := rfl
  rw [ended, ended, hafter, stepOn_aged, finish_eq, finish_eq]
  exact ⟨rfl, publish_aged (new.stepOn run).settled k _ _⟩

theorem resume_renews {k m : Nat} {s new : Session α} (h : Renews k m s new) {t : Ticket}
    (ht : k < t.number) :
    (Reply.resumed (s.resume t).1).renewed k m = .resumed (new.resume ⟨t.number - k⟩).1 ∧
      Renews k m (s.resume t).2 (new.resume ⟨t.number - k⟩).2 := by
  obtain ⟨old, hm, rfl⟩ := h
  have hactive {run : ActiveRun α} (hrun : new.active = some run) :
      (new.aged k old).active = some (run.aged k) := by
    simp only [aged, hrun, Option.map_some]
  have hticket {run : ActiveRun α} (hrun : run.ticket = ⟨t.number - k⟩) :
      t = (run.aged k).ticket := by
    simp only [ActiveRun.aged, hrun, Nat.sub_add_cancel (Nat.le_of_lt ht)]
  have hout := resumption new ⟨t.number - k⟩
  generalize new.resume ⟨t.number - k⟩ = out at hout
  cases hout with
  | stale hstale =>
      have hold : ∀ run, (new.aged k old).active = some run → run.ticket ≠ t := by
        intro run hrun heq
        obtain ⟨own, hown, rfl⟩ := Option.map_eq_some_iff.mp hrun
        refine hstale own hown ?_
        rw [← heq]
        simp only [ActiveRun.aged, Nat.add_sub_cancel]
      rw [resume_of_stale hold]
      exact ⟨rfl, old, hm, rfl⟩
  | @paused run d hrun hname hstatus =>
      have hstep := resume_of_paused (hactive hrun) (d := d) hstatus
      rw [hticket hname, hstep, stepOn_aged]
      refine ⟨?_, _, ?_, rfl⟩
      · simp only [Reply.renewed, ActiveRun.aged, Nat.add_sub_cancel]
      · rw [List.length_map, hm]
  | @finished run hrun hname hstatus =>
      have hend := resume_of_finished (hactive hrun) hstatus
      obtain ⟨hreport, hnext⟩ := ended_aged new k old run
      rw [hticket hname, hend, hreport, hnext]
      refine ⟨rfl, _, ?_, rfl⟩
      rw [List.length_map, List.length_map, hm]

theorem pauses_renews {t : Ticket} {new last : Session α} {events : List (Event α)}
    (hway : Pauses t new events last) (k : Nat) (old : List (Listener α)) :
    ∃ told, told.length = old.length ∧
      Pauses ⟨t.number + k⟩ (new.aged k old) events (last.aged k told) := by
  induction hway generalizing old with
  | none s => exact ⟨old, rfl, .none _⟩
  | @more s last run d events hactive ht hstatus _ ih =>
      obtain ⟨told, hlength, hway⟩ := ih (old.map (Listener.tell (s.stepped run).output.events))
      rw [← stepOn_aged] at hway
      have hold : (s.aged k old).active = some (run.aged k) := by
        simp only [aged, hactive, Option.map_some]
      have hname : (run.aged k).ticket = ⟨t.number + k⟩ := by
        simp only [ActiveRun.aged, ht]
      have hstep : ((s.aged k old).stepped (run.aged k)).status = .paused d := hstatus
      have hmore := Pauses.more hold hname hstep hway
      exact ⟨told, hlength.trans (List.length_map _), hmore⟩

theorem run_renews {k m : Nat} {s new : Session α} (h : Renews k m s new) (source : String) :
    (s.run source).1 = (new.run source).1 ∧
      Renews k m (s.run source).2 (new.run source).2 := by
  obtain ⟨old, hm, rfl⟩ := h
  cases hactive : new.active with
  | some run =>
      have hold : (new.aged k old).active = some (run.aged k) := by
        simp only [aged, hactive, Option.map_some]
      rw [run_of_active hactive, run_of_active hold]
      exact ⟨rfl, old, hm, rfl⟩
  | none =>
      have hold : (new.aged k old).active = none := by
        simp only [aged, hactive, Option.map_none]
      obtain ⟨events, last, final, hway, hfinal, hname, hstatus, hend⟩ := run_ends hactive source
      obtain ⟨told, hlength, hlate⟩ :=
        pauses_renews hway k (old.map (Listener.tell [.runStarted]))
      have hlast : (last.aged k told).active = some (final.aged k) := by
        simp only [aged, hfinal, Option.map_some]
      have hticket : (final.aged k).ticket = ⟨new.nextTicket + k⟩ := by
        simp only [ActiveRun.aged, hname]
      have hdone := runOn_of_finished (resume_of_finished hlast hstatus)
      rw [hticket] at hdone
      obtain ⟨hreport, hnext⟩ := ended_aged last k told final
      rw [hend, run_of_idle hold, begun_aged]
      change (runOn _ ⟨new.nextTicket + k⟩).1 = _ ∧ Renews k m (runOn _ ⟨new.nextTicket + k⟩).2 _
      rw [runOn_of_pauses hlate, hdone, hreport, hnext]
      refine ⟨rfl, _, ?_, rfl⟩
      rw [List.length_map, List.length_map, hlength, List.length_map, hm]

/-! ## The other operations -/

omit [Coordinate α] in
theorem cancel_renews {k m : Nat} {s new : Session α} (h : Renews k m s new) :
    s.cancel.1 = new.cancel.1 ∧ Renews k m s.cancel.2 new.cancel.2 := by
  obtain ⟨old, hm, rfl⟩ := h
  refine ⟨?_, old, hm, rfl⟩
  simp only [cancel, aged, Option.isSome_map]

omit [Coordinate α] in
theorem reset_renews {k m : Nat} {s new : Session α} (h : Renews k m s new) :
    s.reset.1 = new.reset.1 ∧ Renews k m s.reset.2 new.reset.2 := by
  obtain ⟨old, hm, rfl⟩ := h
  refine ⟨rfl, old.map (Listener.tell [.reset]), (List.length_map _).trans hm, ?_⟩
  exact publish_aged new.restarted k old [.reset]

omit [Coordinate α] in
theorem advanceClock_renews {k m : Nat} {s new : Session α} (h : Renews k m s new)
    (elapsed : Duration) (coin : Nat → Bool) :
    (s.advanceClock elapsed coin).1 = (new.advanceClock elapsed coin).1 ∧
      Renews k m (s.advanceClock elapsed coin).2 (new.advanceClock elapsed coin).2 := by
  obtain ⟨old, hm, rfl⟩ := h
  cases hschedule : new.schedule with
  | none =>
      have hold : (new.aged k old).schedule = none := hschedule
      rw [advanceClock_of_none hschedule, advanceClock_of_none hold]
      exact ⟨rfl, old, hm, rfl⟩
  | some schedule =>
      have hold : (new.aged k old).schedule = some schedule := hschedule
      have htold := publish_aged (new.afterMoves (schedule.advance elapsed coin)) k old
        (enemyMoves new.scene.world (schedule.advance elapsed coin).1).1
      rw [advanceClock_of_schedule hschedule, advanceClock_of_schedule hold]
      exact ⟨rfl, _, (List.length_map _).trans hm, htold⟩

omit [Coordinate α] in
theorem subscribe_renews {k m : Nat} {s new : Session α} (h : Renews k m s new) :
    (Reply.subscribed s.subscribe.1 : Reply α).renewed k m = .subscribed new.subscribe.1 ∧
      Renews k m s.subscribe.2 new.subscribe.2 := by
  obtain ⟨old, hm, rfl⟩ := h
  refine ⟨?_, old, hm, ?_⟩
  · simp only [subscribe, aged, Reply.renewed, List.length_append, hm, Nat.add_sub_cancel_left]
  · simp only [subscribe, aged, List.append_assoc]

omit [Coordinate α] in
theorem unsubscribe_renews {k m : Nat} {s new : Session α} (h : Renews k m s new) {index : Nat}
    (hindex : m ≤ index) :
    Renews k m (s.unsubscribe index) (new.unsubscribe (index - m)) := by
  obtain ⟨old, rfl, rfl⟩ := h
  refine ⟨old, rfl, ?_⟩
  simp only [unsubscribe, aged, List.getElem?_append_right hindex]
  cases new.listeners[index - old.length]? with
  | none => rfl
  | some l => simp only [List.set_append_right _ _ hindex]

omit [Coordinate α] in
theorem collect_renews {k m : Nat} {s new : Session α} (h : Renews k m s new) {index : Nat}
    (hindex : m ≤ index) :
    (s.collect index).1 = (new.collect (index - m)).1 ∧
      Renews k m (s.collect index).2 (new.collect (index - m)).2 := by
  obtain ⟨old, rfl, rfl⟩ := h
  simp only [collect, aged, List.getElem?_append_right hindex]
  cases new.listeners[index - old.length]? with
  | none => exact ⟨rfl, old, rfl, rfl⟩
  | some l =>
      refine ⟨rfl, old, rfl, ?_⟩
      simp only [aged, List.set_append_right _ _ hindex]

/-- An operation and its match are answered alike, and the sessions go on alike. -/
theorem perform_renews {k m : Nat} {s new : Session α} (h : Renews k m s new)
    {op own : Operation} (hown : op.renewed? k m = some own) :
    (s.perform op).1.renewed k m = (new.perform own).1 ∧
      Renews k m (s.perform op).2 (new.perform own).2 := by
  cases op with
  | begin source => cases hown; exact begin_renews h source
  | resume t =>
      simp only [Operation.renewed?] at hown
      split at hown
      · rename_i ht
        cases hown
        exact resume_renews h ht
      · cases hown
  | run source =>
      cases hown
      obtain ⟨hreport, hnext⟩ := run_renews h source
      exact ⟨congrArg Reply.ran hreport, hnext⟩
  | cancel =>
      cases hown
      obtain ⟨hanswer, hnext⟩ := cancel_renews h
      exact ⟨congrArg Reply.cancelled hanswer, hnext⟩
  | reset =>
      cases hown
      obtain ⟨hanswer, hnext⟩ := reset_renews h
      exact ⟨congrArg Reply.reset hanswer, hnext⟩
  | advanceClock elapsed coin =>
      cases hown
      obtain ⟨hmoves, hnext⟩ := advanceClock_renews h elapsed coin
      exact ⟨congrArg Reply.clock hmoves, hnext⟩
  | subscribe => cases hown; exact subscribe_renews h
  | unsubscribe index =>
      simp only [Operation.renewed?] at hown
      split at hown
      · rename_i hindex
        cases hown
        exact ⟨rfl, unsubscribe_renews h hindex⟩
      · cases hown
  | collect index =>
      simp only [Operation.renewed?] at hown
      split at hown
      · rename_i hindex
        cases hown
        obtain ⟨hheard, hnext⟩ := collect_renews h hindex
        exact ⟨congrArg Reply.collected hheard, hnext⟩
      · cases hown

/-! ## Where a reset leads -/

omit [Coordinate α] in
/-- A reset leads to a new session with the old tickets and listeners. -/
theorem Attempts.reset_renews {stage : Stage α} {settings : Settings} {s : Session α}
    (h : Attempts stage settings s) :
    Renews (s.nextTicket - 1) s.listeners.length s.reset.2 (start stage settings) := by
  refine ⟨s.listeners.map (Listener.tell [.reset]), List.length_map _, ?_⟩
  have hschedule := h.schedule
  have hticket : 1 + (s.nextTicket - 1) = s.nextTicket := Nat.add_sub_cancel' h.nextTicket
  simp only [reset_eq, publish, restarted, aged, start, Option.map_none, List.append_nil, hticket,
    hschedule, h.stage_eq, h.settings_eq]

/-! ## Old tickets and listeners -/

theorem Renews.resume_old {stage : Stage α} {settings : Settings} {k m : Nat} {s new : Session α}
    (h : Renews k m s new) (hnew : Attempts stage settings new) {t : Ticket}
    (ht : t.number ≤ k) : s.resume t = (.cancelled, s) := by
  obtain ⟨old, -, rfl⟩ := h
  refine resume_of_stale ?_
  intro run hrun hname
  obtain ⟨own, hown, rfl⟩ := Option.map_eq_some_iff.mp hrun
  have hpos := (hnew.active own hown).1
  have hnumber : own.ticket.number + k = t.number := congrArg Ticket.number hname
  omega

/-- What names an old ticket or an old listener leaves the match of the session as it is. -/
theorem Renews.perform_old {stage : Stage α} {settings : Settings} {k m : Nat}
    {s new : Session α} (h : Renews k m s new) (hnew : Attempts stage settings new)
    {op : Operation} (hop : op.renewed? k m = none) : Renews k m (s.perform op).2 new := by
  cases op with
  | resume t =>
      simp only [Operation.renewed?] at hop
      split at hop
      · cases hop
      · rename_i ht
        have hold := h.resume_old hnew (Nat.not_lt.mp ht)
        simp only [perform, hold]
        exact h
  | unsubscribe index =>
      simp only [Operation.renewed?] at hop
      split at hop
      · cases hop
      · rename_i hindex
        obtain ⟨old, rfl, rfl⟩ := h
        have hlt := Nat.not_le.mp hindex
        refine ⟨old.set index ⟨[], false⟩, List.length_set, ?_⟩
        simp only [perform, unsubscribe, aged, List.getElem?_append_left hlt,
          List.getElem?_eq_getElem hlt, List.set_append_left _ _ hlt]
  | collect index =>
      simp only [Operation.renewed?] at hop
      split at hop
      · cases hop
      · rename_i hindex
        obtain ⟨old, rfl, rfl⟩ := h
        have hlt := Nat.not_le.mp hindex
        refine ⟨old.set index { old[index] with heard := [] }, List.length_set, ?_⟩
        simp only [perform, collect, aged, List.getElem?_append_left hlt,
          List.getElem?_eq_getElem hlt, List.set_append_left _ _ hlt]
        rfl
  | begin | run | cancel | reset | advanceClock | subscribe => cases hop

/-! ## Whole histories -/

theorem performAll_renews {stage : Stage α} {settings : Settings} {k m : Nat}
    (ops : List Operation) :
    ∀ {s new : Session α}, Renews k m s new → Attempts stage settings new →
      renewedReplies k m ops (s.performAll ops).1 =
          (new.performAll (ops.filterMap (Operation.renewed? k m))).1 ∧
        Renews k m (s.performAll ops).2
          (new.performAll (ops.filterMap (Operation.renewed? k m))).2 := by
  induction ops with
  | nil => intro s new h _; exact ⟨rfl, h⟩
  | cons op rest ih =>
      intro s new h hnew
      cases hop : op.renewed? k m with
      | none =>
          obtain ⟨hreplies, hlast⟩ := ih (h.perform_old hnew hop) hnew
          simp only [performAll, renewedReplies, hop, List.filterMap_cons]
          exact ⟨hreplies, hlast⟩
      | some own =>
          obtain ⟨hreply, hnext⟩ := perform_renews h hop
          obtain ⟨hreplies, hlast⟩ := ih hnext ((attempts_law stage settings).perform own hnew)
          simp only [performAll, renewedReplies, hop, List.filterMap_cons, hreply, hreplies]
          exact ⟨trivial, hlast⟩

theorem performAll_resume_old {stage : Stage α} {settings : Settings} {k m : Nat} {t : Ticket}
    (ht : t.number ≤ k) (ops : List Operation) :
    ∀ {s new : Session α}, Renews k m s new → Attempts stage settings new →
      ∀ i : Nat, ops[i]? = some (.resume t) →
        (s.performAll ops).1[i]? = some (.resumed .cancelled) := by
  induction ops with
  | nil => intro s new _ _ i hi; cases hi
  | cons op rest ih =>
      intro s new h hnew i hi
      cases i with
      | zero =>
          cases hi
          simp only [performAll, perform, h.resume_old hnew ht]
          rfl
      | succ i =>
          cases hop : op.renewed? k m with
          | none => exact ih (h.perform_old hnew hop) hnew i hi
          | some own =>
              exact ih (perform_renews h hop).2 ((attempts_law stage settings).perform own hnew) i hi

/-- A session that is reset after any history answers whatever follows as a new session does, and
looks the same, once tickets and listeners are counted from the reset. Tickets from before the
reset are those of cancelled runs. -/
theorem reset_like_new (stage : Stage α) (settings : Settings) (before after : List Operation) :
    let old := (start stage settings).performAll before
    let k := old.2.nextTicket - 1
    let m := old.2.listeners.length
    let reset := old.2.reset.2.performAll after
    let new := (start stage settings).performAll (after.filterMap (Operation.renewed? k m))
    renewedReplies k m after reset.1 = new.1 ∧ reset.2.view = new.2.view ∧
      ∀ t, .begun (.ok t) ∈ old.1 → ∀ i : Nat, after[i]? = some (.resume t) →
        reset.1[i]? = some (.resumed .cancelled) := by
  intro old k m reset new
  have hnew := attempts_start stage settings
  have hold : Attempts stage settings old.2 := (attempts_law stage settings).performAll before hnew
  obtain ⟨hreplies, hlast⟩ := performAll_renews after hold.reset_renews hnew
  refine ⟨hreplies, hlast.view, ?_⟩
  intro t hissued
  have hlt : t.number < old.2.nextTicket := issued_lt_nextTicket hissued
  exact performAll_resume_old (Nat.le_sub_one_of_lt hlt) after hold.reset_renews hnew

end Session

end Playscript
