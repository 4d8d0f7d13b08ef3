import Playscript.Catalog.Builtin
import Playscript.Proofs.Campaign.Entering
import Playscript.Proofs.Session.Ticketing
/-! The journey of a campaign through its levels. Whenever a level is entered, an attempt is left
and a new one begins, with a session of its own that numbers its tickets from one on. So tickets are
good within their attempt only, and those of different attempts are easily confused. -/
namespace Playscript.Campaign

variable {α : Type}

/-! ## Attempts -/

/-- An operation with its answer, and the campaign before and after it. -/
structure Entry (α : Type) where
  before : Campaign α
  operation : Operation
  reply : Reply α
  after : Campaign α

def history [Coordinate α] (c : Campaign α) : List Operation → List (Entry α)
  | [] => []
  | op :: rest =>
      let done := c.perform op
      ⟨c, op, done.1, done.2⟩ :: done.2.history rest

theorem history_append [Coordinate α] (c : Campaign α) (first later : List Operation) :
    c.history (first ++ later) = c.history first ++ (c.performAll first).2.history later := by
  induction first generalizing c with
  | nil => rfl
  | cons op rest ih =>
      rw [List.cons_append, history, history, ih, List.cons_append]
      rfl

theorem performAll_append [Coordinate α] (c : Campaign α) (first later : List Operation) :
    (c.performAll (first ++ later)).2 = ((c.performAll first).2.performAll later).2 := by
  induction first generalizing c with
  | nil => rfl
  | cons op rest ih => exact ih (c.perform op).2

/-- Whether a level is entered. -/
def Entry.enters (e : Entry α) : Bool :=
  match e.reply with
  | .selected (.ok _) | .restarted (.ok _) | .advanced (.ok (.level _)) => true
  | _ => false

/-- What is asked of the session on the current level. -/
def Entry.played? (e : Entry α) : Option (Session.Entry α) :=
  match e.operation, e.reply with
  | .play op, .played reply => some ⟨e.before.session, op, reply, e.after.session⟩
  | _, _ => none

/-- The attempts at levels: those that were left, and the current one. Each is given by what was
asked of its session. -/
structure Journey (α : Type) where
  left : List (List (Session.Entry α))
  current : List (Session.Entry α)

def Journey.add (j : Journey α) (e : Entry α) : Journey α :=
  if e.enters then ⟨j.left ++ [j.current], []⟩
  else { j with current := j.current ++ e.played?.toList }

def journey (entries : List (Entry α)) : Journey α :=
  entries.foldl Journey.add ⟨[], []⟩

/-! ## The tickets of the attempts -/

/-- The tickets of every attempt are numbered in order. Those of the current one are the tickets of
the session. -/
structure Journey.Recorded (j : Journey α) (c : Campaign α) : Prop where
  current : Session.Ledger (Session.issued j.current) (Session.retired j.current) c.session
  left : ∀ attempt ∈ j.left, Session.Numbered (Session.issued attempt)

namespace Journey.Recorded

variable {j : Journey α} {c : Campaign α}

/-- A level is entered. -/
theorem enter (h : j.Recorded c) (index : Nat) (stage : Stage α) :
    Journey.Recorded ⟨j.left ++ [j.current], []⟩ (c.entered index stage) where
  current := Session.ledger_start stage c.settings
  left := by
    intro attempt hattempt
    rcases List.mem_append.mp hattempt with hearlier | hlast
    · exact h.left attempt hearlier
    · rw [List.mem_singleton.mp hlast]
      exact h.current.numbers

/-- The session is left alone. -/
theorem keep (h : j.Recorded c) {next : Campaign α} (hsession : next.session = c.session) :
    Journey.Recorded { j with current := j.current ++ [] } next where
  current := by
    rw [List.append_nil, hsession]
    exact h.current
  left := h.left

variable [Coordinate α]

/-- The level is played. -/
theorem play (h : j.Recorded c) (op : Session.Operation) :
    Journey.Recorded
      { j with current := j.current ++
          [⟨c.session, op, (c.session.perform op).1, (c.session.perform op).2⟩] }
      { c with session := (c.session.perform op).2 } where
  current := by
    have hnext := Session.ledger_perform h.current op
    rw [Session.issued, Session.retired, List.flatMap_append, List.flatMap_append,
      List.flatMap_singleton, List.flatMap_singleton]
    exact hnext
  left := h.left

theorem add (h : j.Recorded c) (hcatalog : OnCatalog c) (op : Operation) :
    (j.add ⟨c, op, (c.perform op).1, (c.perform op).2⟩).Recorded (c.perform op).2 := by
  have hstep := hcatalog.step op
  generalize (c.perform op).1 = reply at hstep ⊢
  generalize (c.perform op).2 = next at hstep ⊢
  cases hstep with
  | select | advance | restart => exact h.enter _ _
  | selectUnknown | advanceLast | advanceEarly => exact h.keep rfl
  | play op => exact h.play op

theorem history (h : j.Recorded c) (hcatalog : OnCatalog c) (ops : List Operation) :
    ((c.history ops).foldl Journey.add j).Recorded (c.performAll ops).2 := by
  induction ops generalizing c j with
  | nil => exact h
  | cons op rest ih => exact ih (h.add hcatalog op) (hcatalog.perform op)

end Journey.Recorded

theorem recorded_journey [Coordinate α] {catalog : Catalog α} {settings : Settings}
    {c : Campaign α} (h : start catalog settings = .ok c) (ops : List Operation) :
    (journey (c.history ops)).Recorded (c.performAll ops).2 := by
  have hcatalog := onCatalog_start h
  obtain ⟨kind, stage, -, -, rfl⟩ := start_eq h
  have hfirst : Journey.Recorded ⟨[], []⟩
      (⟨catalog, settings, catalog.ordered.map Level.kind, 0, .start stage settings, false⟩ :
        Campaign α) :=
    ⟨Session.ledger_start stage settings, nofun⟩
  exact hfirst.history hcatalog ops

/-- Every attempt numbers its tickets from one on, so those of an attempt that was left are not told
from those of the current one. The ticket of a run that was left is refused exactly when the run of
that number in the current attempt is over or has not begun; while that run is active, the old ticket
goes on with it. -/
theorem left_ticket_refused_iff [Coordinate α] {catalog : Catalog α} {settings : Settings}
    {c : Campaign α} (h : start catalog settings = .ok c) (ops : List Operation) :
    let session := (c.performAll ops).2.session
    let j := journey (c.history ops)
    ∀ attempt ∈ j.left, ∀ (i : Nat) (t : Ticket), (Session.issued attempt)[i]? = some t →
      (session.resume t = (.cancelled, session) ↔
        ∀ current, (Session.issued j.current)[i]? = some current →
          current ∈ Session.retired j.current) := by
  intro session j attempt hattempt i t ht
  have hrecorded : j.Recorded (c.performAll ops).2 := recorded_journey h ops
  have hledger := hrecorded.current
  have hnumber := (hrecorded.left attempt hattempt).number_eq ht
  constructor
  · intro hrefused current hcurrent
    have hother := (hledger.resume_iff t).mp (congrArg Prod.fst hrefused)
    have hsame : current.number = t.number := by
      rw [hledger.numbers.number_eq hcurrent, hnumber]
    cases current
    cases t
    cases hsame
    by_contra hlasts
    exact hother ⟨List.mem_of_getElem? hcurrent, hlasts⟩
  · intro hover
    apply Session.resume_of_active_ne
    intro hactive
    obtain ⟨hissued, hlasts⟩ := (hledger.active_iff t).mp hactive
    obtain ⟨k, hk⟩ := List.mem_iff_getElem?.mp hissued
    have hplace : k = i := by
      have hagain := hledger.numbers.number_eq hk
      omega
    subst hplace
    exact hlasts (hover t hk)

/-! ## The game as it comes -/

theorem ordered_builtin : (Catalog.builtin : Catalog Float).ordered = Catalog.builtin.levels := by
  apply List.mergeSort_of_pairwise
  decide

/-- The campaign on the levels that come with the game, at its start. -/
def builtinCampaign : Campaign Float :=
  { catalog := Catalog.builtin
    settings := .standard
    order := [.commands, .variables, .conditionals, .loops, .freeRoam]
    current := 0
    session := .start ⟨Catalog.Builtin.commandsLevel, .standard⟩ .standard
    finished := false }

theorem start_builtin : start Catalog.builtin .standard = .ok builtinCampaign := by
  rw [start, ordered_builtin]
  rfl

/-- A run is left in the middle. -/
def runLeft : List Operation :=
  [.play (.begin "moveLeft();"), .restart]

/-- After that, a run of the new attempt is over and another one is active. -/
def runOver : List Operation :=
  runLeft ++ [.play (.begin "jump();"), .play (.resume ⟨1⟩), .play (.begin "moveRight();")]

theorem left_ticket_refused_runOver :
    let session := (builtinCampaign.performAll runOver).2.session
    let j := journey (builtinCampaign.history runOver)
    start Catalog.builtin .standard = .ok builtinCampaign ∧
      (∃ attempt ∈ j.left, (Session.issued attempt)[0]? = some ⟨1⟩) ∧
      Session.issued j.current = [⟨1⟩, ⟨2⟩] ∧ Session.retired j.current = [⟨1⟩] ∧
      session.resume ⟨1⟩ = (.cancelled, session) := by
  intro session j
  have hissued : Session.issued j.current = [⟨1⟩, ⟨2⟩] := by decide +kernel
  have hretired : Session.retired j.current = [⟨1⟩] := by decide +kernel
  have hrefused := left_ticket_refused_iff start_builtin runOver _ List.mem_cons_self 0 ⟨1⟩ rfl
  refine ⟨start_builtin, ⟨_, List.mem_cons_self, rfl⟩, hissued, hretired, hrefused.mpr ?_⟩
  intro current hcurrent
  rw [hissued] at hcurrent
  cases hcurrent
  rw [hretired]
  exact List.mem_cons_self

/-- Once another run is begun, the ticket of the run that was left goes on with that one. -/
theorem left_ticket_goes_on :
    let ops := runLeft ++ [.play (.begin "jump();")]
    let session := (builtinCampaign.performAll ops).2.session
    start Catalog.builtin .standard = .ok builtinCampaign ∧
      (∃ attempt ∈ (journey (builtinCampaign.history ops)).left,
        ⟨1⟩ ∈ Session.issued attempt) ∧
      (session.resume ⟨1⟩).1 ≠ .cancelled := by
  intro ops session
  have hledger := (recorded_journey start_builtin ops).current
  refine ⟨start_builtin, ⟨_, List.mem_cons_self, ?_⟩, ?_⟩
  · exact List.mem_singleton.mpr rfl
  · intro hrefused
    have hover := (hledger.resume_iff ⟨1⟩).mp hrefused
    exact hover ⟨List.mem_singleton.mpr rfl, List.not_mem_nil⟩

end Playscript.Campaign
