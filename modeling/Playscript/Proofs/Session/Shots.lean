import Playscript.Proofs.Run.Shots
import Playscript.Proofs.Session.Techniques
/-! The shots of a session, over all its runs, and the targets that they have felled since the last
reset. How often an operation shoots is read off the script that it runs; what is heard of the shots
is compared with that. -/
namespace Playscript

variable {α : Type}

theorem Event.shot?_of_action? {e : Event α} (h : e.action? = none) : e.shot? = none := by
  cases e with
  | shot x y target => cases h
  | _ => rfl

theorem hits_unpaced (o : Output α) : hits o.unpaced.events = hits o.events := by
  rw [hits, Output.unpaced, List.filterMap_filter]
  apply List.filterMap_congr
  intro e _
  cases e <;> rfl

namespace Session

variable [Coordinate α] {s : Session α}

/-- How often an operation shoots. -/
def shots (s : Session α) : Operation → Nat
  | .resume t =>
      (s.active.filter fun run => run.ticket = t).elim 0 fun run =>
        run.execution.shots s.scene.world.condition?
  | .run source =>
      if s.active.isNone then
        Script.totalShots s.scene.world.condition? (s.stage.recognize source)
      else 0
  | _ => 0

def Entry.shots (e : Entry α) : Nat :=
  e.before.shots e.operation

/-! ## Every shot is heard -/

theorem hits_ending (s : Session α) : hits s.ending.events = [] :=
  hits_of_other fun e he => Event.shot?_of_action? (action_ending s e he)

omit [Coordinate α] in
theorem hits_enemyMoves (w : World α) (places : List Proximity) :
    hits (enemyMoves w places).1 = [] :=
  hits_of_other fun e he => Event.shot?_of_action? (action_enemyMoves w places e he)

theorem hits_endEvents (s : Session α) (run : ActiveRun α) :
    hits (s.endEvents run) = hits (s.stepped run).output.events := by
  rw [endEvents, hits_append, hits_ending, List.append_nil]

theorem length_hits_stepped (s : Session α) (run : ActiveRun α) :
    (hits (s.stepped run).output.events).length =
      run.execution.shots s.scene.world.condition? :=
  Script.length_hits_step run.execution _ _ s.scene

/-- What is left of a run. -/
def remaining (s : Session α) (run : ActiveRun α) : Output α :=
  (run.execution.remaining s.stage.level.retreat s.scene).2

/-- A step tells the first of the shots that are left. -/
theorem hits_stepOn (s : Session α) (run : ActiveRun α) :
    hits (s.stepped run).output.events ++
        hits ((s.stepOn run).remaining (s.runAfter run)).events =
      hits (s.remaining run).events := by
  have hstep := Script.completed_step run.execution s.stage.level.retreat s.settings.pacing s.scene
  rw [← hits_unpaced (s.stepped run).output, ← hits_append]
  exact congrArg (fun done => hits done.2.events) hstep

theorem hits_finished {run : ActiveRun α} (h : (s.stepped run).status = .finished) :
    hits (s.stepped run).output.events = hits (s.remaining run).events := by
  have hnone : ((s.stepOn run).remaining (s.runAfter run)).events = [] := by
    rw [remaining, runAfter_of_finished h]
    rfl
  rw [← hits_stepOn, hnone]
  exact (List.append_nil _).symm

theorem hits_pauses {t : Ticket} {last : Session α} {events : List (Event α)}
    (hway : Pauses t s events last) {run final : ActiveRun α} (hactive : s.active = some run)
    (hfinal : last.active = some final) :
    hits events ++ hits (last.remaining final).events = hits (s.remaining run).events := by
  induction hway generalizing run with
  | none s =>
      cases hactive.symm.trans hfinal
      rfl
  | @more s last own d events hown _ _ _ ih =>
      cases hown.symm.trans hactive
      rw [hits_append, List.append_assoc, ih rfl hfinal, hits_stepOn]

theorem length_hits_run (hidle : s.active = none) (source : String) :
    (hits (s.published (.run source))).length =
      Script.totalShots s.scene.world.condition? (s.stage.recognize source) := by
  obtain ⟨events, last, final, hway, hfinal, hname, hstatus, -⟩ := run_ends hidle source
  have hbegun : (s.begun source).active = some (s.newRun source) := rfl
  have hall := hits_pauses hway hbegun hfinal
  rw [← hits_finished hstatus] at hall
  rw [published_run hidle hway hfinal hname hstatus, List.append_assoc, hits_append, hits_append,
    hits_endEvents, hall]
  exact (Script.shoots_runAll s.stage.level.retreat (s.stage.recognize source)).tells s.scene

/-- An operation is heard to shoot as often as it does. -/
theorem length_hits_published (s : Session α) (op : Operation) :
    (hits (s.published op)).length = s.shots op := by
  cases op with
  | begin source =>
      cases hactive : s.active with
      | some run =>
          rw [published_begin_refused hactive]
          rfl
      | none =>
          rw [published_begin hactive]
          rfl
  | resume t =>
      have hout := resumption s t
      generalize s.resume t = out at hout
      cases hout with
      | stale hstale =>
          have hnone : (s.active.filter fun run => run.ticket = t) = none := by
            rw [Option.filter_eq_none_iff]
            intro run hactive
            simpa using hstale run hactive
          rw [published_resume_stale hstale, shots, hnone]
          rfl
      | @paused run d hactive hname hstatus =>
          subst hname
          rw [published_resume_paused hactive hstatus, length_hits_stepped, shots, hactive,
            Option.filter_some, if_pos (decide_eq_true rfl)]
          rfl
      | @finished run hactive hname hstatus =>
          subst hname
          rw [published_resume_finished hactive hstatus, hits_endEvents, length_hits_stepped, shots,
            hactive, Option.filter_some, if_pos (decide_eq_true rfl)]
          rfl
  | run source =>
      cases hactive : s.active with
      | some run =>
          rw [published_run_refused hactive, shots, hactive]
          rfl
      | none =>
          rw [length_hits_run hactive, shots, hactive]
          rfl
  | cancel =>
      rw [published_cancel]
      rfl
  | reset =>
      rw [published_reset]
      rfl
  | advanceClock elapsed coin =>
      cases hschedule : s.schedule with
      | none =>
          rw [published_clock_none hschedule]
          rfl
      | some schedule =>
          rw [published_clock hschedule, hits_enemyMoves]
          rfl
  | subscribe =>
      rw [published_subscribe]
      rfl
  | unsubscribe index =>
      rw [published_unsubscribe]
      rfl
  | collect index =>
      rw [published_collect]
      rfl

theorem length_hits_entries (entries : List (Entry α)) :
    (hits (entries.flatMap Entry.published)).length = (entries.map Entry.shots).sum := by
  induction entries with
  | nil => rfl
  | cons e rest ih =>
      have hfirst : (hits e.published).length = e.shots := length_hits_published e.before e.operation
      rw [List.flatMap_cons, hits_append, List.length_append, ih, hfirst, List.map_cons,
        List.sum_cons]

/-! ## What the shots have hit -/

/-- The stage stays, and its targets are felled in their order by the shots that are heard. -/
def FellsHeard (s : Session α) (events : List (Event α)) (after : Session α) : Prop :=
  after.stage = s.stage ∧ Felled s.scene.world.targets events after.scene.world.targets

theorem fellsHeard_law : StoryLaw (α := α) FellsHeard where
  rest := fun _ => ⟨rfl, .of_other _ rfl⟩
  andThen := fun hfirst hsecond => ⟨hsecond.1.trans hfirst.1, hfirst.2.trans hsecond.2⟩
  begin := fun _ _ => ⟨rfl, .of_other _ rfl⟩
  step := by
    intro s run _
    have hpacing (i : Int64) :
        Script.Fells (.tell (.event (.pacing i s.settings.pacing)) : Effect α) :=
      .of_other (fun _ => rfl) fun _ => rfl
    exact ⟨rfl, (Script.fells_law s.stage.level.retreat).step hpacing run.execution s.scene⟩
  settle := by
    intro s run _
    have htargets : s.settled.scene.world.targets = s.scene.world.targets :=
      (penalty_scene s.scene).2.1
    refine ⟨rfl, ?_⟩
    change Felled _ _ s.settled.scene.world.targets
    rw [htargets]
    exact .of_other _ (hits_ending s)
  cancel := fun _ => ⟨rfl, .of_other _ rfl⟩
  clock := by
    intro s schedule elapsed coin hschedule
    rw [advanceClock_of_schedule hschedule]
    refine ⟨rfl, ?_⟩
    change Felled _ _ (enemyMoves s.scene.world _).2.targets
    rw [(enemyMoves_world s.scene.world _).1]
    exact .of_other _ (hits_enemyMoves s.scene.world _)
  listeners := fun _ _ => ⟨rfl, .of_other _ rfl⟩

/-- No target has been shot at. -/
def Unshot (s : Session α) : Prop :=
  s.scene.world.targets = Target.row 0 s.stage.level.targets

omit [Coordinate α] in
theorem targets_initialScene (stage : Stage α) :
    (initialScene stage).world.targets = Target.row 0 stage.level.targets :=
  (Target.row_zero stage.level.targets).symm

/-- Whatever is done in a session, the targets fall in the order in which the level lists them. Of the
shots fired since the last reset, over all runs, each has hit the next target as long as there was
one, and was told as having hit just that one; nothing else has touched a target. -/
theorem shots_fell_targets_in_order (stage : Stage α) (settings : Settings)
    (ops : List Operation) :
    let s := ((start stage settings).performAll ops).2
    let entries := sinceReset ((start stage settings).history ops)
    let fired := (entries.map Entry.shots).sum
    let areas := stage.level.targets
    s.scene.world.targets =
        areas.mapIdx (fun i area => ⟨area, !decide (i < fired), decide (i < fired)⟩) ∧
      s.scene.world.targetsHit = min fired areas.length ∧
      hits (entries.flatMap Entry.published) =
        (List.range fired).map fun j => if j < areas.length then some j else none := by
  intro s entries fired areas
  have hsilent : FellsHeard (start stage settings)
      ((sinceReset ([] : List (Entry α))).flatMap Entry.published) (start stage settings) :=
    fellsHeard_law.rest _
  have hunshot : Unshot (start stage settings) := targets_initialScene stage
  obtain ⟨fresh, hfresh, hstage, hfelled⟩ := fellsHeard_law.sinceReset Unshot
    (fun u => targets_initialScene u.stage) hunshot hsilent ops
  have hsame : s.stage = stage := ((setup_law stage settings).performAll ops ⟨rfl, rfl⟩).1
  have hareas : fresh.stage.level.targets = areas := by rw [← hstage, hsame]
  rw [List.nil_append] at hfelled
  obtain ⟨htargets, hhits⟩ := hfelled _ 0 hfresh
  have hcount : (hits (entries.flatMap Entry.published)).length = fired :=
    length_hits_entries entries
  rw [hareas, hcount] at htargets hhits
  rw [Nat.zero_add] at htargets
  refine ⟨htargets, ?_, ?_⟩
  · rw [World.targetsHit, htargets, Target.countP_row]
  · rw [List.range_eq_range']
    exact hhits

end Session

end Playscript
