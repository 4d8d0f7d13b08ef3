import Playscript.Proofs.Run.Licence
import Playscript.Proofs.Session.Pausing
import Playscript.Proofs.Session.Replay
import Playscript.Proofs.Session.Ticketing
/-! How far the clock reaches into a run. All that a run sees of the enemy is whether it is near
when the run goes on, and a script that does not ask about that does not see the enemy at all. So
the report of a run depends on the clock through these answers only. -/
namespace Playscript

variable {α : Type}

def Scene.withNear (scene : Scene α) (near : Bool) : Scene α :=
  { scene with world := Picture.withNear scene.world near }

theorem Picture.withNear_enemyNear (w : World α) : withNear w w.enemyNear = w := by
  unfold withNear World.enemyNear
  cases henemy : w.enemy with
  | none =>
      rw [Option.map_none, ← henemy]
  | some e =>
      rw [Option.map_some, Option.any_some, ← henemy]

theorem Scene.withNear_withNear (scene : Scene α) (near later : Bool) :
    (scene.withNear near).withNear later = scene.withNear later :=
  congrArg (fun world => { scene with world }) (Picture.withNear_withNear scene.world near later)

theorem Scene.withNear_enemyNear (scene : Scene α) :
    scene.withNear scene.world.enemyNear = scene :=
  congrArg (fun world => { scene with world }) (Picture.withNear_enemyNear scene.world)

/-! ## Effects that do not see the enemy -/

namespace Script

/-- An effect that does the same wherever the enemy is. -/
def Indifferent (a : Effect α) : Prop :=
  ∀ scene near, a (scene.withNear near) = ((a scene).1.withNear near, (a scene).2)

theorem Indifferent.andThen {a b : Effect α} (ha : Indifferent a) (hb : Indifferent b) :
    Indifferent (a.andThen b) := by
  intro scene near
  simp only [Effect.andThen, ha scene near, hb (a scene).1 near]

theorem indifferent_shoot : Indifferent (shoot : Effect α) := by
  intro scene near
  have htargets : (Picture.withNear scene.world near).targets = scene.world.targets := rfl
  cases hfound : World.hitFirst scene.world.targets with
  | none =>
      simp only [shoot, World.shoot, Scene.withNear, htargets, hfound]
      rfl
  | some found =>
      simp only [shoot, World.shoot, Scene.withNear, htargets, hfound]
      rfl

theorem indifferent_setSpeed (argument : Option Argument) :
    Indifferent (setSpeed argument : Effect α) := by
  intro scene near
  have hbindings : (scene.withNear near).bindings = scene.bindings := rfl
  unfold setSpeed
  rw [hbindings]
  split
  · rfl
  · split
    · split <;> rfl
    · rfl

theorem indifferent_perform [Coordinate α] (action : Action) (argument : Option Argument) :
    Indifferent (perform action argument : Effect α) := by
  cases action with
  | setSpeed => exact indifferent_setSpeed argument
  | shoot => exact indifferent_shoot
  | moveLeft | moveRight | moveBack | jump => exact fun _ _ => rfl

/-- The only condition that has a value is that of the enemy. -/
theorem indifferent_branch (retreat : Option Action) {condition : String}
    (hother : condition ≠ World.enemyNearWord) (body : List Statement) (block : Effect α) :
    Indifferent (branch retreat condition body block) := by
  intro scene near
  have hnone (w : World α) : w.condition? condition = none := by
    rw [World.condition?, if_neg hother]
  simp only [branch, hnone]

/-- Not to ask whether the enemy is near. -/
def Licence.unseeing : Licence :=
  ⟨fun _ => True, fun condition => condition ≠ World.enemyNearWord⟩

variable [Coordinate α]

theorem indifferent_law (retreat : Option Action) :
    LicensedLaw (α := α) .unseeing retreat Indifferent where
  skip := fun _ _ => rfl
  andThen := .andThen
  line := fun _ _ _ => rfl
  issue := fun _ _ _ => rfl
  assign := fun _ _ _ _ => rfl
  perform := fun argument _ => indifferent_perform _ argument
  branch := fun hother _ _ => indifferent_branch retreat hother _ _
  openLoop := fun _ _ _ _ _ _ _ => rfl

/-! ## Where a step ends -/

theorem sameEnd_turn (c : Cursor) (retreat : Option Action) (delay : Duration)
    (rest : List Statement) {goOn : Scene α → Stepped α} {a b : Scene α}
    (hgo : ∀ a b, (goOn a).status = (goOn b).status ∧ (goOn a).execution = (goOn b).execution) :
    (c.turn retreat delay rest goOn a).status = (c.turn retreat delay rest goOn b).status ∧
      (c.turn retreat delay rest goOn a).execution =
        (c.turn retreat delay rest goOn b).execution := by
  unfold Cursor.turn
  cases c.advance? with
  | some next => exact ⟨rfl, rfl⟩
  | none => exact hgo _ _

theorem sameEnd_stepAll (retreat : Option Action) (delay : Duration) (script : List Statement) :
    ∀ a b : Scene α,
      (stepAll retreat delay script a).status = (stepAll retreat delay script b).status ∧
        (stepAll retreat delay script a).execution =
          (stepAll retreat delay script b).execution := by
  induction script with
  | nil => exact fun _ _ => ⟨rfl, rfl⟩
  | cons s rest ih =>
      intro a b
      cases s with
      | loop counter first stop body =>
          simp only [stepAll]
          split
          · exact sameEnd_turn _ retreat delay rest ih
          · exact ih _ _
      | assign | act | branch | unrecognized | malformedLoop => exact ih _ _

/-- Where a step ends is up to the script alone. -/
theorem sameEnd_step (e : Execution) (retreat : Option Action) (delay : Duration)
    (a b : Scene α) :
    (e.step retreat delay a).status = (e.step retreat delay b).status ∧
      (e.step retreat delay a).execution = (e.step retreat delay b).execution := by
  obtain ⟨active, rest⟩ := e
  cases active with
  | some c => exact sameEnd_turn c retreat delay rest (sameEnd_stepAll retreat delay rest)
  | none => exact sameEnd_stepAll retreat delay rest a b

/-- A step of a script that does not ask about the enemy does the same wherever the enemy is. -/
theorem step_withNear {e : Execution} (he : e.Keeps .unseeing) (retreat : Option Action)
    (delay : Duration) (scene : Scene α) (near : Bool) :
    e.step retreat delay (scene.withNear near) =
      { e.step retreat delay scene with
        scene := (e.step retreat delay scene).scene.withNear near } := by
  have hpacing (i : Int64) : Indifferent (.tell (.event (.pacing i delay)) : Effect α) :=
    fun _ _ => rfl
  have heffect := (indifferent_law retreat).step hpacing he scene near
  obtain ⟨hstatus, hexecution⟩ := sameEnd_step e retreat delay (scene.withNear near) scene
  obtain ⟨hscene, houtput⟩ := Prod.mk.inj heffect
  generalize e.step retreat delay (scene.withNear near) = seen at *
  obtain ⟨status, execution, scene', output⟩ := seen
  subst hstatus hexecution hscene houtput
  rfl

end Script

/-! ## Sessions -/

namespace Session

def withNear (s : Session α) (near : Bool) : Session α :=
  { s with scene := s.scene.withNear near }

/-- The session without all that a run has no business with: where the enemy is and will be, and who
listens. -/
def core (s : Session α) : Session α :=
  { s.withNear false with schedule := none, listeners := [] }

theorem core_withNear (s : Session α) (near : Bool) : (s.withNear near).core = s.core :=
  congrArg (fun scene => ({ s with scene, schedule := none, listeners := [] } : Session α))
    (Scene.withNear_withNear s.scene near false)

theorem withNear_core (s : Session α) :
    s.core.withNear s.scene.world.enemyNear = { s with schedule := none, listeners := [] } := by
  have hscene : (s.scene.withNear false).withNear s.scene.world.enemyNear = s.scene := by
    rw [Scene.withNear_withNear, Scene.withNear_enemyNear]
  exact congrArg
    (fun scene => ({ s with scene, schedule := none, listeners := [] } : Session α)) hscene

variable [Coordinate α] {s : Session α} {t : Ticket}

/-- To go on with a run depends on the core of the session and on whether the enemy is near. -/
theorem resume_core (s : Session α) (t : Ticket) :
    ((s.core.withNear s.scene.world.enemyNear).resume t).1 = (s.resume t).1 ∧
      ((s.core.withNear s.scene.world.enemyNear).resume t).2.core = (s.resume t).2.core := by
  rw [withNear_core]
  generalize hbare : ({ s with schedule := none, listeners := [] } : Session α) = bare
  have hactive {run : ActiveRun α} (h : s.active = some run) : bare.active = some run := by
    rwa [← hbare]
  have hstepped (run : ActiveRun α) : bare.stepped run = s.stepped run := by
    rw [← hbare]
    rfl
  have hout := resumption s t
  generalize s.resume t = out at hout ⊢
  cases hout with
  | stale hstale =>
      have hother : ∀ run, bare.active = some run → run.ticket ≠ t := by
        rwa [← hbare]
      rw [resume_of_stale hother, ← hbare]
      exact ⟨rfl, rfl⟩
  | @paused run d hrun hname hstatus =>
      subst hname
      rw [← hstepped run] at hstatus
      rw [resume_of_paused (hactive hrun) hstatus, ← hbare]
      exact ⟨rfl, rfl⟩
  | @finished run hrun hname hstatus =>
      subst hname
      rw [← hstepped run] at hstatus
      rw [resume_of_finished (hactive hrun) hstatus, ← hbare]
      exact ⟨rfl, rfl⟩

/-- What neither goes on with the active run nor gives it up leaves the core as it is. -/
theorem core_perform {run : ActiveRun α} (hactive : s.active = some run) {op : Operation}
    (hkeeps : op.givesUp = false) (hother : op.goesOn run.ticket = false) :
    (s.perform op).2.core = s.core := by
  cases op with
  | cancel | reset => cases hkeeps
  | begin source =>
      change (s.begin source).2.core = s.core
      rw [begin_of_active hactive]
  | run source =>
      change (s.run source).2.core = s.core
      rw [run_of_active hactive]
  | resume u =>
      have hrefused : Operation.isRefused s (.resume u) = true := by
        apply bne_iff_ne.mpr
        rw [hactive, Option.map_some]
        intro hsame
        exact of_decide_eq_false hother (Option.some.inj hsame).symm
      rw [(perform_of_refused hrefused).2]
  | advanceClock elapsed coin =>
      change (s.advanceClock elapsed coin).2.core = s.core
      cases hschedule : s.schedule with
      | none => rw [advanceClock_of_none hschedule]
      | some schedule =>
          rw [advanceClock_of_schedule hschedule]
          have hworld := withNear_enemyMoves s.scene.world (schedule.advance elapsed coin).1 false
          exact congrArg (fun world =>
            ({ s with scene := { s.scene with world }, schedule := none, listeners := [] } :
              Session α)) hworld
  | subscribe => rfl
  | unsubscribe index =>
      change (s.unsubscribe index).core = s.core
      obtain ⟨listeners, hlisteners⟩ := exists_unsubscribe_eq s index
      rw [hlisteners]
      rfl
  | collect index =>
      change (s.collect index).2.core = s.core
      obtain ⟨listeners, hlisteners⟩ := exists_collect_eq s index
      rw [hlisteners]
      rfl

/-! ## The course of a run -/

/-- Whether the enemy was near, each time that the run of a ticket was gone on with. -/
def seen (t : Ticket) (entries : List (Entry α)) : List Bool :=
  (entries.filter fun e => e.operation.goesOn t).map fun e => e.before.scene.world.enemyNear

theorem seen_cons_of_other {op : Operation} (h : op.goesOn t = false) {rest : List Operation} :
    seen t (s.history (op :: rest)) = seen t ((s.perform op).2.history rest) := by
  have hskip : (s.entry op).operation.goesOn t = false := h
  rw [seen, history_cons, List.filter_cons, hskip]
  rfl

theorem seen_cons {rest : List Operation} :
    seen t (s.history (.resume t :: rest)) =
      s.scene.world.enemyNear :: seen t ((s.resume t).2.history rest) := by
  have hkeep : (s.entry (.resume t)).operation.goesOn t = true := decide_eq_true rfl
  rw [seen, history_cons, List.filter_cons, hkeep]
  rfl

/-- The core after the run has been gone on with several times, the enemy being near or not. -/
def goneOn (t : Ticket) (c : Session α) : List Bool → Session α
  | [] => c
  | near :: rest => goneOn t ((c.withNear near).resume t).2.core rest

theorem core_performAll {rounds : List Int64} (h : s.Underway t rounds) {ops : List Operation}
    (hkeeps : ∀ op ∈ ops, op.givesUp = false)
    (hcount : ops.countP (·.goesOn t) ≤ rounds.length) :
    (s.performAll ops).2.core = goneOn t s.core (seen t (s.history ops)) := by
  induction ops generalizing s rounds with
  | nil => rfl
  | cons op rest ih =>
      rw [List.forall_mem_cons] at hkeeps
      cases hgoes : op.goesOn t with
      | false =>
          have hnext := h.perform hkeeps.1 hgoes
          obtain ⟨run, hactive, hname, -⟩ := h
          have hseen : seen t (s.history (op :: rest)) =
              seen t ((s.perform op).2.history rest) := seen_cons_of_other hgoes
          rw [List.countP_cons_of_neg (by simp [hgoes])] at hcount
          rw [hseen, ← core_perform hactive hkeeps.1 (hname ▸ hgoes)]
          exact ih hnext hkeeps.2 hcount
      | true =>
          rw [List.countP_cons_of_pos hgoes] at hcount
          cases rounds with
          | nil => exact absurd hcount (Nat.not_succ_le_zero _)
          | cons round later =>
              cases op with
              | resume u =>
                  have hu : u = t := of_decide_eq_true hgoes
                  subst hu
                  have hafter := ih h.pause.2.2 hkeeps.2 (Nat.le_of_succ_le_succ hcount)
                  rw [← (resume_core s u).2] at hafter
                  rw [seen_cons]
                  exact hafter
              | _ => cases hgoes

theorem length_seen (s : Session α) (ops : List Operation) :
    (seen t (s.history ops)).length = ops.countP (·.goesOn t) := by
  induction ops generalizing s with
  | nil => rfl
  | cons op rest ih =>
      cases hgoes : op.goesOn t with
      | false =>
          rw [seen_cons_of_other hgoes, ih]
          exact (List.countP_cons_of_neg (by simp [hgoes])).symm
      | true =>
          cases op with
          | resume u =>
              have hu : u = t := of_decide_eq_true hgoes
              subst hu
              rw [seen_cons, List.length_cons, ih]
              exact (List.countP_cons_of_pos hgoes).symm
          | _ => cases hgoes

theorem seen_append (s : Session α) (ops : List Operation) :
    seen t (s.history (ops ++ [.resume t])) =
      seen t (s.history ops) ++ [(s.performAll ops).2.scene.world.enemyNear] := by
  have hlast : seen t ((s.performAll ops).2.history [.resume t]) =
      [(s.performAll ops).2.scene.world.enemyNear] := seen_cons
  rw [← hlast, history_append]
  simp only [seen, List.filter_append, List.map_append]

/-! ## Runs that do not ask about the enemy -/

/-- What is left of the active run does not ask about the enemy. -/
def Unseeing (s : Session α) : Prop :=
  ∀ run, s.active = some run → run.execution.Keeps .unseeing

theorem Unseeing.resume (h : s.Unseeing) (t : Ticket) : (s.resume t).2.Unseeing := by
  have hout := resumption s t
  generalize s.resume t = out at hout ⊢
  cases hout with
  | stale _ => exact h
  | @paused run d hactive _ _ =>
      intro later hlater
      cases hlater
      exact Script.keeps_of_advances
        (Script.advances_step run.execution s.stage.level.retreat s.settings.pacing s.scene)
        (h run hactive)
  | finished _ _ _ => exact nofun

theorem indifferent_penalty : Script.Indifferent (penalty : Effect α) := by
  intro scene near
  have hcollision : (scene.withNear near).world.collision? = scene.world.collision? := rfl
  unfold penalty
  rw [hcollision]
  split <;> rfl

theorem isComplete_withNear (stage : Stage α) (w : World α) (t : Techniques) (near : Bool) :
    stage.isComplete (Picture.withNear w near) t = stage.isComplete w t := by
  have hmet (r : Level.Requirement α) : r.isMet (Picture.withNear w near) t = r.isMet w t := by
    cases r <;> rfl
  simp only [Stage.isComplete, Level.allMet, hmet]

end Session

/-- The report without its word about the enemy. -/
def Report.withoutEnemy (r : Report α) : Report α :=
  { r with snapshot := { r.snapshot with enemy := none } }

def Resumed.withoutEnemy : Resumed α → Resumed α
  | .finished report => .finished report.withoutEnemy
  | answer => answer

namespace Session

variable [Coordinate α] {s : Session α} {t : Ticket}

theorem finish_withNear (s : Session α) (run : ActiveRun α) (near : Bool) :
    ((s.withNear near).finish run).1.withoutEnemy = (s.finish run).1.withoutEnemy ∧
      ((s.withNear near).finish run).2 = (s.finish run).2.withNear near := by
  have hpenalty : penalty (s.withNear near).scene =
      ((penalty s.scene).1.withNear near, (penalty s.scene).2) := indifferent_penalty s.scene near
  have hcomplete := isComplete_withNear s.stage (penalty s.scene).1.world
    (penalty s.scene).1.techniques near
  have hnow : (s.withNear near).completesNow = s.completesNow := by
    rw [completesNow, hpenalty]
    exact congrArg (!s.completed && ·) hcomplete
  have hending : (s.withNear near).ending = s.ending := by
    rw [ending, hpenalty, hnow]
    rfl
  have hsettled : (s.withNear near).settled = s.settled.withNear near := by
    rw [settled, hpenalty, hnow]
    rfl
  rw [finish_eq, finish_eq, hnow, hending, hsettled]
  exact ⟨rfl, rfl⟩

theorem resume_withNear (h : s.Unseeing) (near : Bool) :
    ((s.withNear near).resume t).1.withoutEnemy = (s.resume t).1.withoutEnemy ∧
      ((s.withNear near).resume t).2 = (s.resume t).2.withNear near := by
  have hstepped {run : ActiveRun α} (hactive : s.active = some run) :
      (s.withNear near).stepped run =
        { s.stepped run with scene := (s.stepped run).scene.withNear near } :=
    Script.step_withNear (h run hactive) s.stage.level.retreat s.settings.pacing s.scene near
  have hstepOn {run : ActiveRun α} (hactive : s.active = some run) :
      (s.withNear near).stepOn run = (s.stepOn run).withNear near := by
    simp only [stepOn, runAfter, outputAfter, hstepped hactive]
    rfl
  have hout := resumption s t
  generalize s.resume t = out at hout ⊢
  cases hout with
  | stale hstale =>
      have hother : ∀ run, (s.withNear near).active = some run → run.ticket ≠ t := hstale
      rw [resume_of_stale hother]
      exact ⟨rfl, rfl⟩
  | @paused run d hactive hname hstatus =>
      subst hname
      have hthere : (s.withNear near).active = some run := hactive
      have hpaused : ((s.withNear near).stepped run).status = .paused d := by
        rw [hstepped hactive]
        exact hstatus
      rw [resume_of_paused hthere hpaused, hstepOn hactive]
      exact ⟨rfl, rfl⟩
  | @finished run hactive hname hstatus =>
      subst hname
      have hthere : (s.withNear near).active = some run := hactive
      have hfinished : ((s.withNear near).stepped run).status = .finished := by
        rw [hstepped hactive]
        exact hstatus
      have hafter : (s.withNear near).runAfter run = s.runAfter run := by
        simp only [runAfter, outputAfter, hstepped hactive]
      obtain ⟨hreport, hnext⟩ := finish_withNear (s.stepOn run) (s.runAfter run) near
      rw [resume_of_finished hthere hfinished, ended, hstepOn hactive, hafter]
      exact ⟨congrArg Resumed.finished hreport, hnext⟩

/-- A run that does not ask about the enemy goes the same way wherever the enemy is. -/
theorem goneOn_unseeing {flags flags' : List Bool} (hlength : flags.length = flags'.length)
    {c : Session α} (h : c.Unseeing) :
    goneOn t c flags = goneOn t c flags' ∧ (goneOn t c flags).Unseeing := by
  induction flags generalizing c flags' with
  | nil =>
      cases flags' with
      | nil => exact ⟨rfl, h⟩
      | cons near' rest' => cases hlength
  | cons near rest ih =>
      cases flags' with
      | nil => cases hlength
      | cons near' rest' =>
          have hsame : ((c.withNear near).resume t).2.core = ((c.withNear near').resume t).2.core := by
            rw [(resume_withNear h near).2, (resume_withNear h near').2, core_withNear,
              core_withNear]
          have hnext : ((c.withNear near).resume t).2.core.Unseeing :=
            Unseeing.resume (s := c.withNear near) h t
          have hlater := ih (Nat.succ.inj hlength) hnext
          simp only [goneOn]
          rw [← hsame]
          exact hlater

omit [Coordinate α] in
theorem unseeing_begun (source : String)
    (hunasked : World.enemyNearWord ∉ Script.conditions (s.stage.recognize source)) :
    (s.begun source).Unseeing := by
  intro run hrun
  cases hrun
  apply Script.AllKeep.start
  apply Script.allKeep_recognize
  · exact fun _ _ => trivial
  · intro c hc heq
    exact hunasked (heq ▸ hc)

/-- What a session answers in the end to going on with a run, in terms of its core. -/
theorem resume_goneOn (hidle : s.active = none) (source : String) {ops : List Operation}
    (hkeeps : ∀ op ∈ ops, op.givesUp = false)
    (hcount : ops.countP (·.goesOn ⟨s.nextTicket⟩) = Script.waits (s.stage.recognize source)) :
    let reached := ((s.begin source).2.performAll ops).2
    let flags := seen ⟨s.nextTicket⟩ ((s.begin source).2.history ops)
    (reached.resume ⟨s.nextTicket⟩).1 =
      (((goneOn ⟨s.nextTicket⟩ (s.begun source).core flags).withNear
        reached.scene.world.enemyNear).resume ⟨s.nextTicket⟩).1 := by
  intro reached flags
  have hbegun : (s.begin source).2 = s.begun source := by rw [begin_of_idle hidle]
  have hlength : ops.countP (·.goesOn ⟨s.nextTicket⟩) ≤
      ((s.stage.recognize source).flatMap Script.Statement.earlierRounds).length := by
    rw [Script.length_flatMap_earlierRounds, hcount]
  have hcore : reached.core = goneOn _ (s.begin source).2.core flags :=
    core_performAll (underway_begun hidle source) hkeeps hlength
  rw [← hbegun, ← hcore]
  exact (resume_core reached ⟨s.nextTicket⟩).1.symm

/-- Two runs of the same script in the same session, with other things done in between, such as to
let time pass. If the enemy is near or not alike each time that they are gone on with, their reports
are the same. If the script does not ask about the enemy, their reports differ in nothing but what
they say of the enemy. -/
theorem report_fixed_by_nearness (hidle : s.active = none) (source : String)
    {ops ops' : List Operation}
    (hkeeps : ∀ op ∈ ops, op.givesUp = false) (hkeeps' : ∀ op ∈ ops', op.givesUp = false)
    (hcount : ops.countP (·.goesOn ⟨s.nextTicket⟩) = Script.waits (s.stage.recognize source))
    (hcount' : ops'.countP (·.goesOn ⟨s.nextTicket⟩) =
      Script.waits (s.stage.recognize source)) :
    let ticket : Ticket := ⟨s.nextTicket⟩
    let run := (s.begin source).2
    ∃ report report',
      ((run.performAll ops).2.resume ticket).1 = .finished report ∧
      ((run.performAll ops').2.resume ticket).1 = .finished report' ∧
      (seen ticket (run.history (ops ++ [.resume ticket])) =
        seen ticket (run.history (ops' ++ [.resume ticket])) → report = report') ∧
      (World.enemyNearWord ∉ Script.conditions (s.stage.recognize source) →
        report.withoutEnemy = report'.withoutEnemy) := by
  intro ticket run
  obtain ⟨report, hreport⟩ := (finish_of_waits hidle source hkeeps hcount).1
  obtain ⟨report', hreport'⟩ := (finish_of_waits hidle source hkeeps' hcount').1
  refine ⟨report, report', hreport, hreport', ?_, ?_⟩
  · intro hseen
    rw [seen_append, seen_append] at hseen
    obtain ⟨hflags, hlast⟩ := List.append_inj' hseen rfl
    have hsame := (resume_goneOn hidle source hkeeps hcount).symm
    rw [hflags, List.singleton_inj.mp hlast, ← resume_goneOn hidle source hkeeps' hcount',
      hreport, hreport'] at hsame
    exact (Resumed.finished.inj hsame).symm
  · intro hunasked
    have hlength : (seen ticket (run.history ops)).length =
        (seen ticket (run.history ops')).length := by
      rw [length_seen, length_seen, hcount, hcount']
    obtain ⟨hsame, hunseeing⟩ := goneOn_unseeing (t := ticket) hlength
      (c := (s.begun source).core) (unseeing_begun source hunasked)
    rw [resume_goneOn hidle source hkeeps hcount] at hreport
    rw [resume_goneOn hidle source hkeeps' hcount', ← hsame] at hreport'
    have hblurred := (resume_withNear (t := ticket) hunseeing
      (run.performAll ops).2.scene.world.enemyNear).1.trans
      (resume_withNear hunseeing (run.performAll ops').2.scene.world.enemyNear).1.symm
    rw [hreport, hreport'] at hblurred
    exact Resumed.finished.inj hblurred

/-- A loop with a pause, and nothing that asks about the enemy. -/
def twoRounds : String :=
  "for (int i = 0; i < 2; i++) \x7b moveLeft(); \x7d"

/-- To go on at once, and then to let the enemy come near. -/
def promptly : List Operation :=
  [.resume ⟨1⟩, .advanceClock (.ofMillis 4000) fun _ => true]

/-- To let the enemy come near, and to go on only then. -/
def belatedly : List Operation :=
  [.advanceClock (.ofMillis 4000) fun _ => true, .subscribe, .resume ⟨1⟩]

set_option maxRecDepth 6000 in
theorem report_fixed_by_nearness_twoRounds :
    let run := ((start freeRoam .standard).begin twoRounds).2
    ∃ report report',
      ((run.performAll promptly).2.resume ⟨1⟩).1 = .finished report ∧
        ((run.performAll belatedly).2.resume ⟨1⟩).1 = .finished report' ∧
        report.withoutEnemy = report'.withoutEnemy := by
  intro run
  have hidle : (start freeRoam .standard).active = none := rfl
  have hscript : freeRoam.recognize twoRounds = [.loop "i" 0 2 [.act .moveLeft none]] := by
    have hallowed : freeRoam.level.allowed =
        .ofList [.moveLeft, .moveRight, .jump, .shoot, .moveBack, .setSpeed] := rfl
    rw [Stage.recognize, hallowed]
    cbv
  have hwaits : Script.waits (freeRoam.recognize twoRounds) = 1 := by
    rw [hscript]
    rfl
  have hunasked : World.enemyNearWord ∉ Script.conditions (freeRoam.recognize twoRounds) := by
    rw [hscript]
    exact List.not_mem_nil
  have hkeeps : ∀ op ∈ promptly, op.givesUp = false := by
    simp [promptly, Operation.givesUp]
  have hkeeps' : ∀ op ∈ belatedly, op.givesUp = false := by
    simp [belatedly, Operation.givesUp]
  obtain ⟨report, report', hreport, hreport', -, hsame⟩ :=
    report_fixed_by_nearness hidle twoRounds hkeeps hkeeps' hwaits.symm hwaits.symm
  exact ⟨report, report', hreport, hreport', hsame hunasked⟩

end Session

end Playscript
