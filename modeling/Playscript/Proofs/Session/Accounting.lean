import Playscript.Catalog.Builtin
import Playscript.Proofs.Run.Accounting
import Playscript.Proofs.Session.Attempt
/-! The report of a run names the problems that recognition found in its script, and no others. -/
namespace Playscript.Session

open Script (Accounts Accounted Statement)

variable {α : Type}

/-- A run that has reported, with whatever is left of it, what its script leads to. -/
structure RunAccounts (allowed : ActionSet) (script : List Statement) (run : ActiveRun α) :
    Prop where
  recognized : run.execution.IsRecognized allowed
  issues : ∀ left, run.execution.Leaves left → Accounts script (run.output.issues ++ left)

/-- The run of a ticket accounts for this script, as long as it is active. No other run gets its
ticket. -/
structure Accounting (t : Ticket) (allowed : ActionSet) (script : List Statement)
    (s : Session α) : Prop where
  issued : t.number < s.nextTicket
  active : ∀ run, s.active = some run → run.ticket = t → RunAccounts allowed script run

variable [Coordinate α] {t : Ticket} {allowed : ActionSet} {script : List Statement}

theorem RunAccounts.stepped {s : Session α} {run : ActiveRun α}
    (h : RunAccounts allowed script run) : RunAccounts allowed script (s.runAfter run) := by
  obtain ⟨hrecognized, hleaves⟩ := Script.leaves_of_advances s.stage.level.retreat
    (Script.advances_step run.execution _ s.settings.pacing s.scene) h.recognized
  refine ⟨hrecognized, ?_⟩
  intro left hleft
  rw [runAfter_output, outputAfter, Output.issues_append, List.append_assoc]
  exact h.issues _ (hleaves left hleft)

theorem accounting_law (t : Ticket) (allowed : ActionSet) (script : List Statement) :
    SessionLaw (α := α) (Accounting t allowed script) where
  begin := by
    intro s source _ h
    refine ⟨Nat.lt_succ_of_lt h.issued, ?_⟩
    intro run hrun hticket
    cases hrun
    have hnew : s.nextTicket = t.number := congrArg Ticket.number hticket
    exact absurd h.issued (Nat.not_lt_of_le (Nat.le_of_eq hnew))
  pause := by
    intro s run d hactive _ h
    refine ⟨h.issued, ?_⟩
    intro later hlater hticket
    cases hlater
    exact (h.active run hactive hticket).stepped
  finish := fun _ _ h => ⟨h.issued, nofun⟩
  cancel := fun h => ⟨h.issued, nofun⟩
  reset := fun h => ⟨h.issued, nofun⟩
  clock := by
    intro s schedule elapsed coin hschedule h
    rw [advanceClock_of_schedule hschedule]
    exact ⟨h.issued, h.active⟩
  listeners := fun _ h => ⟨h.issued, h.active⟩

theorem issues_ending (s : Session α) : s.ending.issues = [] := by
  have hpenalty : (penalty s.scene).2.issues = [] := by
    unfold penalty
    split <;> rfl
  rw [ending, Output.issues_append, Output.issues_append, hpenalty]
  split <;> rfl

/-- The report at the end of a run has the issues of its script. -/
theorem Accounting.ended {s : Session α} (h : Accounting t allowed script s) {run : ActiveRun α}
    (hactive : s.active = some run) (hticket : run.ticket = t)
    (hstatus : (s.stepped run).status = .finished) :
    Accounts script (s.ended run).1.issues := by
  have hrun := (h.active run hactive hticket).stepped (s := s)
  have hissues : (s.ended run).1.issues = (s.outputAfter run).issues ++ [] :=
    congrArg ((s.outputAfter run).issues ++ ·) (issues_ending (s.stepOn run))
  rw [hissues]
  exact hrun.issues [] (runAfter_of_finished hstatus ▸ .between .nil)

omit [Coordinate α] in
theorem accounting_begun {s : Session α} (source : String) :
    Accounting ⟨s.nextTicket⟩ s.stage.level.allowed (s.stage.recognize source)
      (s.begun source) where
  issued := Nat.lt_succ_self _
  active := by
    intro run hrun _
    cases hrun
    refine ⟨⟨fun _ hs => Script.outer_of_mem_recognize hs, nofun⟩, ?_⟩
    intro left hleft
    exact Script.accounts_of_leaves hleft

/-- The report of a run, whether it is run at once or with other things in between, accounts for
the problems of its script. -/
theorem report_accounted {s : Session α} (hidle : s.active = none) (source : String) :
    (∃ report, (s.run source).1 = .ok report ∧
      Accounted (s.stage.recognize source) report.issues) ∧
      ∀ (ops : List Operation) (report : Report α),
        (((s.begin source).2.performAll ops).2.resume ⟨s.nextTicket⟩).1 = .finished report →
          Accounted (s.stage.recognize source) report.issues := by
  have law := accounting_law (α := α) ⟨s.nextTicket⟩ s.stage.level.allowed
    (s.stage.recognize source)
  have hbegun := accounting_begun (s := s) source
  constructor
  · obtain ⟨events, last, final, hway, hfinal, hticket, hstatus, hend⟩ := run_ends hidle source
    rw [hend]
    exact ⟨_, rfl, ((law.pauses hway hbegun).ended hfinal hticket hstatus).accounted⟩
  · intro ops report hreport
    rw [begin_of_idle hidle] at hreport
    have hreached := law.performAll ops hbegun
    generalize ((s.begun source).performAll ops).2 = reached at hreached hreport
    have hout := resumption reached ⟨s.nextTicket⟩
    generalize reached.resume ⟨s.nextTicket⟩ = out at hout hreport
    cases hout with
    | stale _ => cases hreport
    | paused _ _ _ => cases hreport
    | finished hactive hticket hstatus =>
        cases hreport
        exact (hreached.ended hactive hticket hstatus).accounted

/-- The level of simple commands on its own, where nobody shoots. -/
def commandStage : Stage Float :=
  ⟨Catalog.Builtin.commandsLevel, .standard⟩

/-- A command that is not allowed, on its own and in a loop. -/
def twoProblems : String :=
  "shoot();\nfor (int i = 0; i < 2; i++) \x7b jump(); shoot(); \x7d"

set_option maxRecDepth 6000 in
theorem report_accounted_twoProblems :
    (start commandStage .standard).active = none ∧
      ∃ report inside, ((start commandStage .standard).run twoProblems).1 = .ok report ∧
        report.issues = .unrecognized "shoot();" 1 :: inside ∧
        ∀ i ∈ inside, i.isOfState = true ∨ i = .unrecognized "shoot();" 2 := by
  have hidle : (start commandStage .standard).active = none := rfl
  obtain ⟨⟨report, hreport, haccounted⟩, -⟩ := report_accounted hidle twoProblems
  have hscript : commandStage.recognize twoProblems =
      [.unrecognized "shoot();" 1 "'shoot' is not a command available in this level",
        .loop "i" 0 2 [.act .jump none,
          .unrecognized "shoot();" 2 "'shoot' is not a command available in this level"]] := by
    have hallowed : commandStage.level.allowed = .ofList [.moveLeft, .jump] := rfl
    rw [Stage.recognize, hallowed]
    cbv
  have hissues : Accounts (commandStage.recognize twoProblems) report.issues := haccounted.inOrder
  rw [hscript] at hissues
  obtain ⟨inside, hinside, hloop⟩ := hissues.of_problem rfl
  refine ⟨hidle, report, inside, hreport, hinside, ?_⟩
  cases hloop with
  | cons hown hnil =>
      cases hnil
      cases hown with
      | problem hissue => cases hissue
      | sound _ harises =>
          intro i hi
          rw [List.append_nil] at hi
          rcases harises i hi with hstate | ⟨p, hp, hissue⟩
          · exact .inl hstate
          · simp only [Statement.body, List.mem_cons, List.not_mem_nil, or_false] at hp
            rcases hp with rfl | rfl
            · cases hissue
            · exact .inr (Option.some.inj hissue).symm

end Playscript.Session
