import Playscript.Catalog.Builtin
import Playscript.Proofs.Run.Stepping
import Playscript.Proofs.Script.Shape
import Playscript.Proofs.Session.Attempt
import Playscript.Proofs.Session.History
/-! How often a run pauses. The rounds after which it pauses are fixed by its script alone; nothing
that is done in the session in between changes them, unless the run is given up. -/
namespace Playscript

/-! ## The pauses of a script -/

namespace Script

/-- The rounds of a loop at the top level that have a further round after them. -/
def Statement.earlierRounds : Statement → List Int64
  | .loop _ first stop _ => (Loop.span first stop).dropLast
  | _ => []

/-- The number of pauses in a statement at the top level: one between any two rounds of a loop. -/
def Statement.waits : Statement → Nat
  | .loop _ first stop _ => if first < stop then (stop.toInt - first.toInt - 1).toNat else 0
  | _ => 0

/-- The number of pauses in a script. -/
def waits (script : List Statement) : Nat :=
  (script.map Statement.waits).sum

theorem length_earlierRounds (s : Statement) : s.earlierRounds.length = s.waits := by
  cases s with
  | loop counter first stop body =>
      have hspan : (Loop.span first stop).length = (stop.toInt - first.toInt).toNat := by
        rw [Loop.span, List.length_map, List.length_range]
      rw [Statement.earlierRounds, Statement.waits, List.length_dropLast, hspan]
      split
      · omega
      · rename_i hempty
        have hle := Int64.le_iff_toInt_le.mp (Int64.not_lt.mp hempty)
        omega
  | _ => rfl

theorem length_flatMap_earlierRounds (script : List Statement) :
    (script.flatMap Statement.earlierRounds).length = waits script := by
  rw [List.length_flatMap, waits]
  simp only [length_earlierRounds]

/-- No loop that is recognized is too long to be entered. -/
theorem Statement.Outer.pausedRounds_eq {allowed : ActionSet} {s : Statement}
    (h : s.Outer allowed) : s.pausedRounds = s.earlierRounds := by
  cases h with
  | inner hinner =>
      cases hinner with
      | flat hflat => cases hflat <;> rfl
      | unrecognized text line reason => rfl
  | branch hcondition hbody => rfl
  | malformedLoop header line reason => rfl
  | @loop counter first stop body _ _ _ hlength _ =>
      rw [Statement.pausedRounds, Statement.earlierRounds]
      split
      · rfl
      · rename_i hentry
        have hempty : stop ≤ first := by
          have hlimit := Loop.entry_ne_tooLong hlength
          unfold Loop.entry at hentry hlimit
          split at hlimit
          · exact absurd rfl hlimit
          · rename_i hshort
            rw [if_neg hshort] at hentry
            by_contra hmore
            exact hentry (if_neg hmore)
        rw [Loop.span_eq_nil hempty]
        rfl

theorem pausedRounds_recognize (source : String) (allowed : ActionSet) :
    (Execution.start (recognize source allowed)).pausedRounds =
      (recognize source allowed).flatMap Statement.earlierRounds :=
  List.flatMap_congr fun _ hs => (outer_of_mem_recognize hs).pausedRounds_eq

end Script

/-! ## A run with its pauses -/

namespace Session

variable {α : Type}

def Operation.givesUp : Operation → Bool
  | .cancel | .reset => true
  | _ => false

/-- To go on with the run of this ticket. -/
def Operation.goesOn (t : Ticket) : Operation → Bool
  | .resume u => u = t
  | _ => false

/-- The active run has this ticket, and it has still to pause after these rounds. -/
def Underway (t : Ticket) (rounds : List Int64) (s : Session α) : Prop :=
  ∃ run, s.active = some run ∧ run.ticket = t ∧ run.execution.pausedRounds = rounds

variable [Coordinate α] {s : Session α} {t : Ticket}

/-- Only to go on with a run or to give it up makes a difference to it. -/
theorem active_perform {run : ActiveRun α} (hactive : s.active = some run) {op : Operation}
    (hkeeps : op.givesUp = false) (hother : op.goesOn run.ticket = false) :
    (s.perform op).2.active = some run := by
  cases op with
  | cancel | reset => cases hkeeps
  | begin source =>
      change (s.begin source).2.active = some run
      rwa [begin_of_active hactive]
  | run source =>
      change (s.run source).2.active = some run
      rwa [run_of_active hactive]
  | resume t =>
      have hstale : ∀ other, s.active = some other → other.ticket ≠ t := by
        intro other hsame ht
        cases hactive.symm.trans hsame
        exact of_decide_eq_false hother ht.symm
      change (s.resume t).2.active = some run
      rwa [resume_of_stale hstale]
  | advanceClock elapsed coin =>
      change (s.advanceClock elapsed coin).2.active = some run
      cases hschedule : s.schedule with
      | none => rwa [advanceClock_of_none hschedule]
      | some schedule =>
          rw [advanceClock_of_schedule hschedule]
          exact hactive
  | subscribe => exact hactive
  | unsubscribe index =>
      change (s.unsubscribe index).active = some run
      obtain ⟨listeners, hlisteners⟩ := exists_unsubscribe_eq s index
      rwa [hlisteners]
  | collect index =>
      change (s.collect index).2.active = some run
      obtain ⟨listeners, hlisteners⟩ := exists_collect_eq s index
      rwa [hlisteners]

theorem Underway.perform {rounds : List Int64} (h : s.Underway t rounds) {op : Operation}
    (hkeeps : op.givesUp = false) (hother : op.goesOn t = false) :
    (s.perform op).2.Underway t rounds := by
  obtain ⟨run, hactive, rfl, hrounds⟩ := h
  exact ⟨run, active_perform hactive hkeeps hother, rfl, hrounds⟩

/-- A run that has still to pause does so after the next round with a pause, and tells of that
round last. -/
theorem Underway.pause {round : Int64} {later : List Int64} (h : s.Underway t (round :: later)) :
    (s.resume t).1 = .paused t s.settings.pacing ∧
      (∃ deeds, s.published (.resume t) = deeds ++ [.pacing round s.settings.pacing] ∧
        ∀ e ∈ deeds, e.isDeed = true) ∧
      (s.resume t).2.Underway t later := by
  obtain ⟨run, hactive, rfl, hrounds⟩ := h
  have hpaces : Script.Paces s.settings.pacing (s.stepped run) run.execution.pausedRounds :=
    Script.paces_step run.execution s.stage.level.retreat s.settings.pacing s.scene
  rw [hrounds] at hpaces
  generalize hleft : (s.stepped run).execution.pausedRounds = left at hpaces
  cases hpaces with
  | paused hstatus hevents hdeeds =>
      rw [resume_of_paused hactive hstatus, published_resume_paused hactive hstatus]
      exact ⟨rfl, ⟨_, hevents, hdeeds⟩, _, rfl, rfl, rfl⟩

theorem not_isPacing_ending (s : Session α) : ∀ e ∈ s.ending.events, e.isPacing = false := by
  intro e he
  rcases mem_ending he with ⟨index, rfl⟩ | rfl | ⟨done, rfl⟩ <;> rfl

/-- A run that has no pause left finishes, without a word of a pause. -/
theorem Underway.finish (h : s.Underway t []) :
    (∃ report, (s.resume t).1 = .finished report) ∧
      ∀ e ∈ s.published (.resume t), e.isPacing = false := by
  obtain ⟨run, hactive, rfl, hrounds⟩ := h
  have hpaces : Script.Paces s.settings.pacing (s.stepped run) run.execution.pausedRounds :=
    Script.paces_step run.execution s.stage.level.retreat s.settings.pacing s.scene
  rw [hrounds] at hpaces
  cases hpaces with
  | finished hstatus hdeeds =>
      rw [resume_of_finished hactive hstatus, published_resume_finished hactive hstatus]
      refine ⟨⟨_, rfl⟩, ?_⟩
      intro e he
      rcases List.mem_append.mp he with hstep | hend
      · have hdeed := hdeeds e hstep
        cases e with
        | pacing iteration delay => cases hdeed
        | _ => rfl
      · exact not_isPacing_ending (s.stepOn run) e hend

theorem Underway.performAll {rounds : List Int64} (h : s.Underway t rounds) {ops : List Operation}
    (hkeeps : ∀ op ∈ ops, op.givesUp = false)
    (hcount : ops.countP (·.goesOn t) ≤ rounds.length) :
    (s.performAll ops).2.Underway t (rounds.drop (ops.countP (·.goesOn t))) := by
  induction ops generalizing s rounds with
  | nil => exact h
  | cons op rest ih =>
      rw [List.forall_mem_cons] at hkeeps
      cases hgoes : op.goesOn t with
      | false =>
          rw [List.countP_cons_of_neg (by simp [hgoes])] at hcount ⊢
          exact ih (h.perform hkeeps.1 hgoes) hkeeps.2 hcount
      | true =>
          rw [List.countP_cons_of_pos hgoes] at hcount ⊢
          cases rounds with
          | nil => exact absurd hcount (Nat.not_succ_le_zero _)
          | cons round later =>
              cases op with
              | resume u =>
                  have hu : u = t := of_decide_eq_true hgoes
                  subst hu
                  exact ih h.pause.2.2 hkeeps.2 (Nat.le_of_succ_le_succ hcount)
              | _ => cases hgoes

omit [Coordinate α] in
theorem underway_begun (hidle : s.active = none) (source : String) :
    (s.begin source).2.Underway ⟨s.nextTicket⟩
      ((s.stage.recognize source).flatMap Script.Statement.earlierRounds) := by
  rw [begin_of_idle hidle]
  exact ⟨s.newRun source, rfl, rfl, Script.pausedRounds_recognize source _⟩

/-- A run that is not given up has as many pauses behind it as it has been gone on with. -/
theorem underway_performAll (hidle : s.active = none) (source : String) {ops : List Operation}
    (hkeeps : ∀ op ∈ ops, op.givesUp = false)
    (hdone : ops.countP (·.goesOn ⟨s.nextTicket⟩) ≤ Script.waits (s.stage.recognize source)) :
    ((s.begin source).2.performAll ops).2.Underway ⟨s.nextTicket⟩
      (((s.stage.recognize source).flatMap Script.Statement.earlierRounds).drop
        (ops.countP (·.goesOn ⟨s.nextTicket⟩))) := by
  apply (underway_begun hidle source).performAll hkeeps
  rwa [Script.length_flatMap_earlierRounds]

theorem finish_of_waits (hidle : s.active = none) (source : String) {ops : List Operation}
    (hkeeps : ∀ op ∈ ops, op.givesUp = false)
    (hall : ops.countP (·.goesOn ⟨s.nextTicket⟩) = Script.waits (s.stage.recognize source)) :
    let reached := ((s.begin source).2.performAll ops).2
    (∃ report, (reached.resume ⟨s.nextTicket⟩).1 = .finished report) ∧
      ∀ e ∈ reached.published (.resume ⟨s.nextTicket⟩), e.isPacing = false := by
  have hreached := underway_performAll hidle source hkeeps (Nat.le_of_eq hall)
  rw [List.drop_eq_nil_of_le] at hreached
  · exact hreached.finish
  · rw [Script.length_flatMap_earlierRounds, hall]

/-- A run pauses as often as its script has pauses, each time after the round that comes next, and
then it finishes; so to run a source text always comes to an end. -/
theorem pauses_fixed_by_script (hidle : s.active = none) (source : String) :
    let script := s.stage.recognize source
    let ticket : Ticket := ⟨s.nextTicket⟩
    (s.begin source).1 = .ok ticket ∧
      (∀ ops : List Operation, (∀ op ∈ ops, op.givesUp = false) →
        let reached := ((s.begin source).2.performAll ops).2
        let done := ops.countP (·.goesOn ticket)
        (done < Script.waits script →
          ∃ round deeds, (script.flatMap Script.Statement.earlierRounds)[done]? = some round ∧
            (reached.resume ticket).1 = .paused ticket s.settings.pacing ∧
            reached.published (.resume ticket) = deeds ++ [.pacing round s.settings.pacing] ∧
            ∀ e ∈ deeds, e.isDeed = true) ∧
          (done = Script.waits script →
            (∃ report, (reached.resume ticket).1 = .finished report) ∧
              ∀ e ∈ reached.published (.resume ticket), e.isPacing = false)) ∧
      ∃ report, (s.run source).1 = .ok report := by
  intro script ticket
  have hlength := Script.length_flatMap_earlierRounds script
  refine ⟨by rw [begin_of_idle hidle], ?_, ?_⟩
  · intro ops hkeeps reached done
    have hsettings : reached.settings = s.settings := by
      have hbegun : (s.begin source).2.settings = s.settings := by rw [begin_of_idle hidle]; rfl
      exact ((setup_law _ s.settings).performAll ops ⟨rfl, hbegun⟩).2
    constructor
    · intro hless
      have hreached : reached.Underway ticket _ :=
        underway_performAll hidle source hkeeps (Nat.le_of_lt hless)
      have hlt : done < (script.flatMap Script.Statement.earlierRounds).length := hlength ▸ hless
      rw [List.drop_eq_getElem_cons hlt] at hreached
      obtain ⟨hpaused, ⟨deeds, hpublished, hdeeds⟩, -⟩ := hreached.pause
      rw [hsettings] at hpaused hpublished
      exact ⟨_, deeds, List.getElem?_eq_getElem hlt, hpaused, hpublished, hdeeds⟩
    · intro hall
      exact finish_of_waits hidle source hkeeps hall
  · obtain ⟨events, last, final, -, -, -, -, hend⟩ := run_ends hidle source
    rw [hend]
    exact ⟨_, rfl⟩

/-- The level of loops on its own. -/
def loopStage : Stage Float :=
  ⟨Catalog.Builtin.loopsLevel, .standard⟩

/-- A loop with two pauses, a loop with one round, and a loop with one pause. -/
def threeLoops : String :=
  "for (int i = 0; i < 3; i++) { moveLeft(); }\nfor (int j = 7; j < 8; j++) { }\n" ++
    "for (int k = 1; k < 3; k++) { nonsense }"

/-- To go on twice, with other things in between that do not count. -/
def twoPauses : List Operation :=
  [.resume ⟨1⟩, .subscribe, .begin "jump();", .resume ⟨4⟩,
    .advanceClock (.ofMillis 9000) fun _ => true, .resume ⟨1⟩, .run "jump();", .collect 0]

set_option maxRecDepth 6000 in
theorem pauses_fixed_by_script_threeLoops :
    (start loopStage .standard).active = none ∧
      (let reached := (((start loopStage .standard).begin threeLoops).2.performAll twoPauses).2
      ∃ deeds, (reached.resume ⟨1⟩).1 = .paused ⟨1⟩ (.ofMillis 500) ∧
        reached.published (.resume ⟨1⟩) = deeds ++ [.pacing 1 (.ofMillis 500)] ∧
        ∀ e ∈ deeds, e.isDeed = true) ∧
      ∃ report, ((start loopStage .standard).run threeLoops).1 = .ok report := by
  have hidle : (start loopStage .standard).active = none := rfl
  have hkeeps : ∀ op ∈ twoPauses, op.givesUp = false := by
    simp [twoPauses, Operation.givesUp]
  have hrounds : (loopStage.recognize threeLoops).flatMap Script.Statement.earlierRounds =
      [0, 1, 1] := by
    have hallowed : loopStage.level.allowed =
        .ofList [.moveLeft, .moveRight, .shoot, .setSpeed] := rfl
    rw [Stage.recognize, hallowed]
    cbv
  have hwaits : Script.waits (loopStage.recognize threeLoops) = 3 := by
    rw [← Script.length_flatMap_earlierRounds, hrounds]
    rfl
  obtain ⟨-, hpauses, hrun⟩ := pauses_fixed_by_script hidle threeLoops
  have hdone : twoPauses.countP (·.goesOn ⟨1⟩) < Script.waits (loopStage.recognize threeLoops) := by
    rw [hwaits]
    decide
  obtain ⟨round, deeds, hround, hpaused, hpublished, hdeeds⟩ := (hpauses twoPauses hkeeps).1 hdone
  have hnow : round = 1 := by
    have hthird := Option.some.inj (hround.symm.trans (congrArg (·[2]?) hrounds))
    exact hthird
  subst hnow
  exact ⟨hidle, ⟨deeds, hpaused, hpublished, hdeeds⟩, hrun⟩

end Session

end Playscript
