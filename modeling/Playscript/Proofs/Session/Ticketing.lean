import Mathlib.Data.List.Nodup
import Playscript.Proofs.Session.Attempt
import Playscript.Proofs.Session.History
/-! The tickets of a session. Every run has a ticket of its own, which is good for as long as the
run lasts; a ticket that is good no more is refused, and what is refused changes nothing. -/
namespace Playscript.Session

variable {α : Type}

/-! ## Refusals -/

/-- What a session refuses: a further run while one is active, to go on with a run that is not the
active one, and to cancel when there is no run. -/
def Operation.isRefused (s : Session α) : Operation → Bool
  | .begin _ | .run _ => s.active.isSome
  | .resume t => s.active.map ActiveRun.ticket != some t
  | .cancel => s.active.isNone
  | .reset | .advanceClock _ _ | .subscribe | .unsubscribe _ | .collect _ => false

/-- The answer to an operation that is refused. -/
def Operation.refusal? : Operation → Option (Reply α)
  | .begin _ => some (.begun (.error .runInProgress))
  | .run _ => some (.ran (.error .runInProgress))
  | .resume _ => some (.resumed .cancelled)
  | .cancel => some (.cancelled false)
  | .reset | .advanceClock _ _ | .subscribe | .unsubscribe _ | .collect _ => none

variable [Coordinate α] {s : Session α}

theorem resume_of_active_ne {t : Ticket} (h : s.active.map ActiveRun.ticket ≠ some t) :
    s.resume t = (.cancelled, s) := by
  apply resume_of_stale
  intro run hactive hname
  apply h
  rw [hactive, Option.map_some, hname]

/-- An operation that is refused is answered so and leaves the whole session as it is. -/
theorem perform_of_refused {op : Operation} (h : op.isRefused s = true) :
    op.refusal? = some (s.perform op).1 ∧ (s.perform op).2 = s := by
  cases op with
  | begin source =>
      obtain ⟨run, hactive⟩ := Option.isSome_iff_exists.mp h
      rw [perform, begin_of_active hactive]
      exact ⟨rfl, rfl⟩
  | run source =>
      obtain ⟨run, hactive⟩ := Option.isSome_iff_exists.mp h
      rw [perform, run_of_active hactive]
      exact ⟨rfl, rfl⟩
  | resume t =>
      rw [perform, resume_of_active_ne (bne_iff_ne.mp h)]
      exact ⟨rfl, rfl⟩
  | cancel =>
      have hidle := Option.isNone_iff_eq_none.mp h
      cases s
      subst hidle
      exact ⟨rfl, rfl⟩
  | reset | advanceClock | subscribe | unsubscribe | collect => cases h

/-- Nothing else is refused. -/
theorem isRefused_of_refusal {op : Operation} (h : op.refusal? = some (s.perform op).1) :
    op.isRefused s = true := by
  cases op with
  | begin source =>
      cases hactive : s.active with
      | some run => rw [Operation.isRefused, hactive, Option.isSome_some]
      | none =>
          rw [perform, begin_of_idle hactive] at h
          cases h
  | run source =>
      cases hactive : s.active with
      | some run => rw [Operation.isRefused, hactive, Option.isSome_some]
      | none =>
          obtain ⟨events, last, final, -, -, -, -, hend⟩ := run_ends hactive source
          rw [perform, hend] at h
          cases h
  | resume t =>
      have hout := resumption s t
      rw [perform] at h
      generalize s.resume t = out at hout h
      cases hout with
      | stale hstale =>
          apply bne_iff_ne.mpr
          intro hmap
          obtain ⟨run, hactive, hname⟩ := Option.map_eq_some_iff.mp hmap
          exact hstale run hactive hname
      | paused _ _ _ => cases h
      | finished _ _ _ => cases h
  | cancel =>
      cases hactive : s.active with
      | none => rw [Operation.isRefused, hactive, Option.isNone_none]
      | some run =>
          simp only [perform, cancel, hactive, Option.isSome_some] at h
          cases h
  | reset | advanceClock | subscribe | unsubscribe | collect => cases h

/-! ## The ledger of a session -/

/-- The ticket of the run that an operation begins. -/
def Entry.issued? (e : Entry α) : Option Ticket :=
  match e.operation, e.reply with
  | .begin _, .begun (.ok ticket) => some ticket
  | .run source, _ => (e.before.begin source).1.toOption
  | _, _ => none

/-- The ticket of the run that an operation brings to its end: the run is finished, cancelled, or
reset away. -/
def Entry.retired? (e : Entry α) : Option Ticket :=
  match e.operation, e.reply with
  | .resume ticket, .resumed (.finished _) => some ticket
  | .run source, .ran (.ok _) => (e.before.begin source).1.toOption
  | .cancel, _ | .reset, _ => e.before.active.map ActiveRun.ticket
  | _, _ => none

def issued (entries : List (Entry α)) : List Ticket :=
  entries.flatMap fun e => e.issued?.toList

def retired (entries : List (Entry α)) : List Ticket :=
  entries.flatMap fun e => e.retired?.toList

/-- The tickets are numbered from one on. -/
def Numbered (tickets : List Ticket) : Prop :=
  tickets.map Ticket.number = List.range' 1 tickets.length

namespace Numbered

variable {tickets : List Ticket}

theorem number_eq (h : Numbered tickets) {i : Nat} {t : Ticket} (ht : tickets[i]? = some t) :
    t.number = i + 1 := by
  have hnumber : (tickets.map Ticket.number)[i]? = some t.number := by
    rw [List.getElem?_map, ht, Option.map_some]
  obtain ⟨hlt, -⟩ := List.getElem?_eq_some_iff.mp ht
  rw [h, List.getElem?_range' hlt, Option.some.injEq] at hnumber
  omega

theorem number_le (h : Numbered tickets) {t : Ticket} (ht : t ∈ tickets) :
    0 < t.number ∧ t.number ≤ tickets.length := by
  obtain ⟨i, hlt, hi⟩ := List.mem_iff_getElem.mp ht
  have hnumber := h.number_eq (List.getElem?_eq_some_iff.mpr ⟨hlt, hi⟩)
  omega

theorem nodup (h : Numbered tickets) : tickets.Nodup := by
  apply List.Nodup.of_map Ticket.number
  rw [h]
  exact List.nodup_range'

theorem concat (h : Numbered tickets) : Numbered (tickets ++ [⟨tickets.length + 1⟩]) := by
  rw [Numbered, List.map_append, h, List.length_append, List.length_singleton,
    ← List.range'_append_1, Nat.add_comm]
  rfl

end Numbered

/-- The tickets that a session has issued are numbered in order, and only that of the active run is
not retired. -/
structure Ledger (issued retired : List Ticket) (s : Session α) : Prop where
  numbers : Numbered issued
  nextTicket : s.nextTicket = issued.length + 1
  subset : ∀ t ∈ retired, t ∈ issued
  active_iff : ∀ t, s.active.map ActiveRun.ticket = some t ↔ t ∈ issued ∧ t ∉ retired

namespace Ledger

variable {issued retired : List Ticket} {u : Session α}

omit [Coordinate α] in
/-- Nothing happens to the run. -/
theorem keep (h : Ledger issued retired s) (hnumber : u.nextTicket = s.nextTicket)
    (hactive : u.active.map ActiveRun.ticket = s.active.map ActiveRun.ticket) :
    Ledger issued retired u where
  numbers := h.numbers
  nextTicket := hnumber.trans h.nextTicket
  subset := h.subset
  active_iff := by
    intro t
    rw [hactive]
    exact h.active_iff t

omit [Coordinate α] in
/-- A run is begun. -/
theorem issue (h : Ledger issued retired s) (hidle : s.active = none)
    (hnumber : u.nextTicket = s.nextTicket + 1)
    (hactive : u.active.map ActiveRun.ticket = some ⟨s.nextTicket⟩) :
    Ledger (issued ++ [⟨s.nextTicket⟩]) retired u where
  numbers := by
    rw [h.nextTicket]
    exact h.numbers.concat
  nextTicket := by
    rw [hnumber, h.nextTicket, List.length_append, List.length_singleton]
  subset := by
    intro t ht
    exact List.mem_append_left _ (h.subset t ht)
  active_iff := by
    intro t
    have hnew : (⟨s.nextTicket⟩ : Ticket) ∉ retired := by
      intro hold
      have hle := (h.numbers.number_le (h.subset _ hold)).2
      rw [h.nextTicket] at hle
      exact Nat.not_succ_le_self _ hle
    have hover : ¬ (t ∈ issued ∧ t ∉ retired) := by
      rw [← h.active_iff t, hidle]
      nofun
    rw [hactive, Option.some.injEq, List.mem_append, List.mem_singleton]
    constructor
    · rintro rfl
      exact ⟨.inr rfl, hnew⟩
    · rintro ⟨hold | rfl, hlasts⟩
      · exact absurd ⟨hold, hlasts⟩ hover
      · rfl

omit [Coordinate α] in
/-- The active run comes to its end. -/
theorem retire (h : Ledger issued retired s) {t : Ticket}
    (ht : s.active.map ActiveRun.ticket = some t) (hnumber : u.nextTicket = s.nextTicket)
    (hidle : u.active = none) : Ledger issued (retired ++ [t]) u where
  numbers := h.numbers
  nextTicket := hnumber.trans h.nextTicket
  subset := by
    intro other hother
    rcases List.mem_append.mp hother with hold | hlast
    · exact h.subset other hold
    · rw [List.mem_singleton.mp hlast]
      exact ((h.active_iff t).mp ht).1
  active_iff := by
    intro other
    rw [hidle, List.mem_append, List.mem_singleton]
    constructor
    · nofun
    · rintro ⟨hissued, hlasts⟩
      rw [not_or] at hlasts
      have hactive := (h.active_iff other).mpr ⟨hissued, hlasts.1⟩
      rw [ht, Option.some.injEq] at hactive
      exact absurd hactive.symm hlasts.2

end Ledger

omit [Coordinate α] in
theorem ledger_start (stage : Stage α) (settings : Settings) :
    Ledger [] [] (start stage settings) where
  numbers := rfl
  nextTicket := rfl
  subset := nofun
  active_iff := by
    intro t
    constructor <;> nofun

theorem nextTicket_of_pauses {t : Ticket} {last : Session α} {events : List (Event α)}
    (hway : Pauses t s events last) : last.nextTicket = s.nextTicket := by
  induction hway with
  | none s => rfl
  | more _ _ _ _ ih => exact ih

omit [Coordinate α] in
/-- To give up the active run, if there is one, retires its ticket. -/
theorem Ledger.giveUp {issued retired : List Ticket} {u : Session α}
    (h : Ledger issued retired s) (hnumber : u.nextTicket = s.nextTicket)
    (hidle : u.active = none) :
    Ledger issued (retired ++ (s.active.map ActiveRun.ticket).toList) u := by
  cases hactive : s.active with
  | none =>
      rw [Option.map_none, Option.toList_none, List.append_nil]
      apply h.keep hnumber
      rw [hidle, hactive]
  | some run =>
      apply h.retire _ hnumber hidle
      rw [hactive]
      rfl

/-- An operation issues at most one ticket and retires at most one. -/
theorem ledger_perform {issued retired : List Ticket} (h : Ledger issued retired s)
    (op : Operation) :
    let e : Entry α := ⟨s, op, (s.perform op).1, (s.perform op).2⟩
    Ledger (issued ++ e.issued?.toList) (retired ++ e.retired?.toList) (s.perform op).2 := by
  have hkeep {u : Session α} (hnumber : u.nextTicket = s.nextTicket)
      (hactive : u.active.map ActiveRun.ticket = s.active.map ActiveRun.ticket) :
      Ledger (issued ++ []) (retired ++ []) u := by
    rw [List.append_nil, List.append_nil]
    exact h.keep hnumber hactive
  have hover {u : Session α} (hnumber : u.nextTicket = s.nextTicket) (hidle : u.active = none) :
      Ledger (issued ++ []) (retired ++ (s.active.map ActiveRun.ticket).toList) u := by
    rw [List.append_nil]
    exact h.giveUp hnumber hidle
  cases op with
  | begin source =>
      cases hactive : s.active with
      | some run =>
          rw [perform, begin_of_active hactive]
          exact hkeep rfl rfl
      | none =>
          rw [perform, begin_of_idle hactive]
          have hnew := h.issue hactive (u := s.begun source) rfl rfl
          rw [← List.append_nil retired] at hnew
          exact hnew
  | resume t =>
      have hout := resumption s t
      rw [perform]
      generalize s.resume t = out at hout ⊢
      cases hout with
      | stale _ => exact hkeep rfl rfl
      | @paused run d hactive hname hstatus =>
          apply hkeep
          · rfl
          · rw [hactive]
            rfl
      | @finished run hactive hname hstatus =>
          have hname' : s.active.map ActiveRun.ticket = some t := by
            rw [hactive, Option.map_some, hname]
          rw [hname'] at hover
          exact hover rfl rfl
  | run source =>
      cases hactive : s.active with
      | some run =>
          rw [perform, run_of_active hactive]
          dsimp only [Entry.issued?, Entry.retired?, Prod.map]
          rw [begin_of_active hactive]
          exact hkeep rfl rfl
      | none =>
          obtain ⟨events, last, final, hway, -, -, -, hend⟩ := run_ends hactive source
          rw [perform, hend]
          dsimp only [Entry.issued?, Entry.retired?, Prod.map]
          rw [begin_of_idle hactive]
          -- the ticket is issued and retired by one operation, and the pauses between keep the count
          have hnew := h.issue hactive (u := s.begun source) rfl rfl
          have hnumber := nextTicket_of_pauses hway
          exact hnew.retire rfl (u := (last.ended final).2) hnumber rfl
  | cancel | reset => exact hover rfl rfl
  | advanceClock elapsed coin =>
      rw [perform]
      cases hschedule : s.schedule with
      | none =>
          rw [advanceClock_of_none hschedule]
          exact hkeep rfl rfl
      | some schedule =>
          rw [advanceClock_of_schedule hschedule]
          exact hkeep rfl rfl
  | subscribe => exact hkeep rfl rfl
  | unsubscribe index =>
      rw [perform]
      obtain ⟨listeners, hlisteners⟩ := exists_unsubscribe_eq s index
      rw [hlisteners]
      exact hkeep rfl rfl
  | collect index =>
      change Ledger (issued ++ []) (retired ++ []) (s.collect index).2
      obtain ⟨listeners, hlisteners⟩ := exists_collect_eq s index
      rw [hlisteners]
      exact hkeep rfl rfl

theorem Ledger.history {former spent : List Ticket} (h : Ledger former spent s)
    (ops : List Operation) :
    Ledger (former ++ issued (s.history ops)) (spent ++ retired (s.history ops))
      (s.performAll ops).2 := by
  induction ops generalizing s former spent with
  | nil =>
      rw [Session.history, issued, retired, List.flatMap_nil, List.flatMap_nil, List.append_nil,
        List.append_nil]
      exact h
  | cons op rest ih =>
      have hrest := ih (ledger_perform h op)
      rw [List.append_assoc, List.append_assoc] at hrest
      exact hrest

theorem ledger_history (stage : Stage α) (settings : Settings) (ops : List Operation) :
    Ledger (issued ((start stage settings).history ops))
      (retired ((start stage settings).history ops)) ((start stage settings).performAll ops).2 :=
  (ledger_start stage settings).history ops

omit [Coordinate α] in
theorem Ledger.active_ne_of_retired {former spent : List Ticket} (h : Ledger former spent s)
    {t : Ticket} (ht : t ∈ spent) : s.active.map ActiveRun.ticket ≠ some t := by
  intro hactive
  exact ((h.active_iff t).mp hactive).2 ht

theorem Ledger.resume_iff {former spent : List Ticket} (h : Ledger former spent s) (t : Ticket) :
    (s.resume t).1 = .cancelled ↔ ¬ (t ∈ former ∧ t ∉ spent) := by
  rw [← h.active_iff t]
  constructor
  · intro hresume
    have hrefused : Operation.isRefused s (.resume t) = true := by
      apply isRefused_of_refusal
      rw [perform, Prod.map_fst, hresume]
      rfl
    exact bne_iff_ne.mp hrefused
  · intro hother
    rw [resume_of_active_ne hother]

/-- In a session no two runs have the same ticket, and the tickets are numbered from one on, so that
fewer than `2 ^ 64` runs need no number beyond 64 bits. A ticket is good from the begin of its run to
the end of it: until the run is finished, cancelled or reset away. From then on it is refused,
whatever is done later and whatever run is then active. A refused operation is answered as such and
leaves the session as it is, its listeners included. -/
theorem ticket_lifetime (stage : Stage α) (settings : Settings) (ops : List Operation) :
    let s := ((start stage settings).performAll ops).2
    let entries := (start stage settings).history ops
    (issued entries).Nodup ∧
      (∀ t ∈ issued entries, 0 < t.number ∧ t.number ≤ (issued entries).length) ∧
      (∀ t, (s.resume t).1 = .cancelled ↔ ¬ (t ∈ issued entries ∧ t ∉ retired entries)) ∧
      (∀ t ∈ retired entries, ∀ later,
        let reached := (s.performAll later).2
        reached.resume t = (.cancelled, reached)) ∧
      ∀ op : Operation,
        (op.isRefused s = true ↔ op.refusal? = some (s.perform op).1) ∧
          (op.isRefused s = true → (s.perform op).2 = s) := by
  intro s entries
  have h : Ledger (issued entries) (retired entries) s := ledger_history stage settings ops
  refine ⟨h.numbers.nodup, ?_, ?_, ?_, ?_⟩
  · intro t ht
    exact h.numbers.number_le ht
  · exact h.resume_iff
  · intro t ht later reached
    apply resume_of_active_ne
    apply (h.history later).active_ne_of_retired
    exact List.mem_append_left _ ht
  · intro op
    constructor
    · constructor
      · intro hrefused
        exact (perform_of_refused hrefused).1
      · exact isRefused_of_refusal
    · intro hrefused
      exact (perform_of_refused hrefused).2

end Playscript.Session
