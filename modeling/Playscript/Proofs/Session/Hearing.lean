import Playscript.Proofs.Session.History
/-! What one listener hears in the course of a session. A listener may take what it has heard at any
time, so what it has heard in all is what it took and what it has not taken yet. As long as it does
not leave, that is everything published since it came. -/
namespace Playscript.Session

variable {α : Type}

/-- The operations of the listeners themselves. -/
def Operation.isOfListeners : Operation → Bool
  | .subscribe | .unsubscribe _ | .collect _ => true
  | _ => false

/-- What the listener of an index takes by an operation with this answer. -/
def Operation.taken (index : Nat) : Operation → Reply α → List (Event α)
  | .collect i, .collected heard => if i = index then heard else []
  | _, _ => []

variable [Coordinate α]

/-- All that the listener of an index has heard when these operations are done. -/
def heardOver (s : Session α) (index : Nat) (ops : List Operation) : List (Event α) :=
  ((s.history ops).flatMap fun e => e.operation.taken index e.reply) ++
    ((s.performAll ops).2.listeners[index]?).elim [] Listener.heard

theorem exists_tells {s : Session α} {op : Operation} (h : op.isOfListeners = false) :
    ∃ events, Tells (fun s => s.perform op) s events := by
  cases op with
  | subscribe | unsubscribe | collect => cases h
  | begin source =>
      cases hactive : s.active with
      | some run => exact ⟨_, (tells_begin_refused hactive source).map Reply.begun⟩
      | none => exact ⟨_, (tells_begin hactive source).map Reply.begun⟩
  | resume t =>
      have hout := resumption s t
      generalize s.resume t = out at hout
      cases hout with
      | stale hstale => exact ⟨_, (tells_resume_stale hstale).map Reply.resumed⟩
      | paused hactive hname hstatus =>
          subst hname
          exact ⟨_, (tells_resume_paused hactive hstatus).map Reply.resumed⟩
      | finished hactive hname hstatus =>
          subst hname
          exact ⟨_, (tells_resume_finished hactive hstatus).map Reply.resumed⟩
  | run source =>
      cases hactive : s.active with
      | some run =>
          refine ⟨[], tells_nothing (.ran (.error .runInProgress)) fun ls => ?_⟩
          have hother : (s.heardBy ls).active = some run := hactive
          simp only [perform, run_of_active hother]
          rfl
      | none =>
          obtain ⟨events, last, final, hway, hfinal, hname, hstatus, -⟩ := run_ends hactive source
          exact ⟨_, (tells_run hactive hway hfinal hname hstatus).map Reply.ran⟩
  | cancel => exact ⟨_, (tells_cancel s).map Reply.cancelled⟩
  | reset => exact ⟨_, (tells_reset s).map Reply.reset⟩
  | advanceClock elapsed coin =>
      cases hschedule : s.schedule with
      | none => exact ⟨_, (tells_advanceClock_none hschedule elapsed coin).map Reply.clock⟩
      | some schedule => exact ⟨_, (tells_advanceClock hschedule elapsed coin).map Reply.clock⟩

/-- All listeners hear what a lone listener hears. -/
theorem listeners_perform {s : Session α} {op : Operation} (h : op.isOfListeners = false) :
    (s.perform op).2.listeners = s.listeners.map (Listener.tell (s.published op)) := by
  obtain ⟨events, htells⟩ := exists_tells (s := s) h
  rw [published_of_tells htells]
  exact congrArg (fun out => out.2.listeners) (htells s.listeners)

/-- A listener that does not leave hears what an operation publishes. -/
theorem listener_perform {s : Session α} {index : Nat} {l : Listener α}
    (hl : s.listeners[index]? = some l) (hpresent : l.present = true) {op : Operation}
    (hstays : op ≠ .unsubscribe index) :
    ∃ later, (s.perform op).2.listeners[index]? = some later ∧ later.present = true ∧
      op.taken index (s.perform op).1 ++ later.heard = l.heard ++ s.published op := by
  obtain ⟨hlt, -⟩ := List.getElem?_eq_some_iff.mp hl
  cases hown : op.isOfListeners with
  | false =>
      have htaken : op.taken index (s.perform op).1 = [] := by
        cases op with
        | collect i => cases hown
        | _ => rfl
      refine ⟨l.tell (s.published op), ?_, ?_, ?_⟩
      · rw [listeners_perform hown, List.getElem?_map, hl, Option.map_some]
      · simp only [Listener.tell, hpresent, if_pos]
      · simp only [htaken, Listener.tell, hpresent, if_pos, List.nil_append]
  | true =>
      cases op with
      | subscribe =>
          refine ⟨l, ?_, hpresent, ?_⟩
          · exact (List.getElem?_append_left hlt).trans hl
          · rw [published_subscribe, List.append_nil]
            rfl
      | unsubscribe i =>
          have hne : i ≠ index := fun h => hstays (congrArg Operation.unsubscribe h)
          refine ⟨l, ?_, hpresent, ?_⟩
          · change (s.unsubscribe i).listeners[index]? = some l
            unfold unsubscribe
            split
            · exact (List.getElem?_set_ne hne).trans hl
            · exact hl
          · rw [published_unsubscribe, List.append_nil]
            rfl
      | collect i =>
          rw [published_collect, List.append_nil]
          change ∃ later, (s.collect i).2.listeners[index]? = some later ∧ _ ∧
            (if i = index then (s.collect i).1 else []) ++ later.heard = l.heard
          unfold collect
          by_cases hi : i = index
          · subst hi
            rw [hl]
            refine ⟨{ l with heard := [] }, List.getElem?_set_self hlt, hpresent, ?_⟩
            rw [if_pos rfl, List.append_nil]
          · refine ⟨l, ?_, hpresent, ?_⟩
            · split
              · exact (List.getElem?_set_ne hi).trans hl
              · exact hl
            · rw [if_neg hi, List.nil_append]
      | _ => cases hown

/-- What a listener that does not leave has heard in the end is what it had heard before and all
that is published. -/
theorem heardOver_eq {s : Session α} {index : Nat} {l : Listener α} {ops : List Operation}
    (hl : s.listeners[index]? = some l) (hpresent : l.present = true)
    (hstays : .unsubscribe index ∉ ops) :
    s.heardOver index ops = l.heard ++ (s.history ops).flatMap Entry.published := by
  induction ops generalizing s l with
  | nil =>
      simp only [heardOver, history, performAll, List.flatMap_nil, hl, Option.elim_some,
        List.nil_append, List.append_nil]
  | cons op rest ih =>
      rw [List.mem_cons, not_or] at hstays
      obtain ⟨later, hlater, hthere, hheard⟩ := listener_perform hl hpresent (Ne.symm hstays.1)
      have hrest := ih hlater hthere hstays.2
      rw [heardOver] at hrest ⊢
      simp only [history, performAll, List.flatMap_cons, List.append_assoc]
      rw [hrest, ← List.append_assoc, hheard, List.append_assoc]
      rfl

end Playscript.Session
