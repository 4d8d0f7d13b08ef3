import Mathlib.Algebra.Order.Ring.Rat
import Playscript.Proofs.Run.Scenery
import Playscript.Proofs.Session.Bounds
import Playscript.Proofs.Session.Completion
import Playscript.Proofs.Session.Delivery
import Playscript.Proofs.Session.Techniques
/-! No run ends on an obstacle. The obstacles of a session are always those of its level, and only the
end of a run tells of them. A character that a script leaves near one goes back to the start, and
there a level without faults has it clear of obstacles if it was so in the beginning. -/
namespace Playscript

variable {α : Type}

def Event.isObstacleHit : Event α → Bool
  | .obstacleHit _ => true
  | _ => false

/-- The events of obstacles that were run into. -/
def obstacleHits (events : List (Event α)) : List (Event α) :=
  events.filter Event.isObstacleHit

theorem obstacleHits_append (a b : List (Event α)) :
    obstacleHits (a ++ b) = obstacleHits a ++ obstacleHits b :=
  List.filter_append ..

theorem obstacleHits_of_other {events : List (Event α)}
    (h : ∀ e ∈ events, e.isObstacleHit = false) : obstacleHits events = [] := by
  refine List.filter_eq_nil_iff.mpr ?_
  intro e he
  rw [h e he]
  exact Bool.false_ne_true

namespace Script

variable [Coordinate α]

theorem keepsScenery_remaining (e : Execution) (retreat : Option Action) :
    KeepsScenery (e.remaining retreat : Effect α) :=
  (keepsScenery_law retreat).remaining e

end Script

namespace Session

/-! ## Obstacles stay -/

/-- The obstacles of a level as they are laid out at the start. -/
def laidOut (l : Level α) : List (Obstacle α) :=
  l.obstacles.map fun area => ⟨area, true⟩

theorem obstacles_enemyMoves (w : World α) (places : List Proximity) :
    (enemyMoves w places).2.obstacles = w.obstacles := by
  have hsame := withNear_enemyMoves w places false
  have hobstacles := congrArg World.obstacles hsame
  exact hobstacles

section

variable [Coordinate α]

/-- A session whose obstacles are those of its level, and whose active run has told of none. -/
structure Laid (stage : Stage α) (s : Session α) : Prop where
  stage_eq : s.stage = stage
  obstacles : s.scene.world.obstacles = laidOut stage.level
  untold : ∀ run, s.active = some run → ∀ e ∈ run.output.events, e.isObstacleHit = false

variable {stage : Stage α} {s : Session α}

theorem obstacles_penalty (scene : Scene α) :
    (penalty scene).1.world.obstacles = scene.world.obstacles := by
  obtain ⟨x, hscene⟩ := penalty_eq scene
  rw [hscene]
  rfl

theorem obstacles_stepped (s : Session α) (run : ActiveRun α) :
    (s.stepped run).scene.world.obstacles = s.scene.world.obstacles :=
  (Script.keepsScenery_step run.execution s.stage.level.retreat s.settings.pacing s.scene).obstacles

theorem untold_stepped (s : Session α) (run : ActiveRun α) :
    ∀ e ∈ (s.stepped run).output.events, e.isObstacleHit = false := by
  intro e he
  have hkind := Script.events_step run.execution s.stage.level.retreat s.settings.pacing s.scene e he
  cases e with
  | obstacleHit index => rcases hkind with h | h <;> cases h
  | _ => rfl

theorem laid_law (stage : Stage α) : SessionLaw (Laid stage) where
  begin := by
    intro s source _ h
    refine ⟨h.stage_eq, h.obstacles, ?_⟩
    intro run hrun
    cases hrun
    exact List.forall_mem_singleton.mpr rfl
  pause := by
    intro s run d hactive _ h
    refine ⟨h.stage_eq, (obstacles_stepped s run).trans h.obstacles, ?_⟩
    intro later hlater
    cases hlater
    exact List.forall_mem_append.mpr ⟨h.untold run hactive, untold_stepped s run⟩
  finish := by
    intro s run _ _ h
    have hpenalty : (s.ended run).2.scene.world.obstacles = s.scene.world.obstacles :=
      (obstacles_penalty _).trans (obstacles_stepped s run)
    exact ⟨h.stage_eq, hpenalty.trans h.obstacles, nofun⟩
  cancel := fun h => ⟨h.stage_eq, h.obstacles, nofun⟩
  reset := by
    rintro s ⟨rfl, -, -⟩
    exact ⟨rfl, rfl, nofun⟩
  clock := by
    intro s schedule elapsed coin hschedule h
    rw [advanceClock_of_schedule hschedule]
    exact ⟨h.stage_eq, (obstacles_enemyMoves _ _).trans h.obstacles, h.untold⟩
  listeners := fun _ h => ⟨h.stage_eq, h.obstacles, h.untold⟩

omit [Coordinate α] in
theorem laid_start (stage : Stage α) (settings : Settings) : Laid stage (start stage settings) :=
  ⟨rfl, rfl, nofun⟩

/-! ## What the end of a run tells -/

/-- What the end of a run tells of obstacles, and what the report shows of the last scene. -/
structure Landing (s : Session α) (run : ActiveRun α) (published : List (Event α))
    (report : Report α) (after : Session α) : Prop where
  snapshot : report.snapshot = after.scene.world.snapshot
  reported : obstacleHits report.events = (penalty (s.scriptEnd run)).2.events
  published : obstacleHits published = (penalty (s.scriptEnd run)).2.events

theorem obstacleHits_penalty (scene : Scene α) :
    obstacleHits (penalty scene).2.events = (penalty scene).2.events := by
  unfold penalty
  split <;> rfl

theorem obstacleHits_ending (s : Session α) :
    obstacleHits s.ending.events = (penalty s.scene).2.events := by
  have hpraise : obstacleHits
      (if s.completesNow then .line completedMessage ++ .event .completed else
        .empty : Output α).events = [] := by
    split <;> rfl
  rw [ending, Output.events_append, Output.events_append, obstacleHits_append, obstacleHits_append,
    obstacleHits_penalty, hpraise, List.append_nil]
  exact List.append_nil _

theorem obstacleHits_endEvents {run : ActiveRun α} (h : (s.stepped run).status = .finished) :
    obstacleHits (s.endEvents run) = (penalty (s.scriptEnd run)).2.events := by
  have hscene : (s.stepOn run).scene = s.scriptEnd run := scene_of_finished h
  rw [endEvents, obstacleHits_append, obstacleHits_of_other (untold_stepped s run),
    obstacleHits_ending, hscene]
  rfl

theorem landing_resume (h : Laid stage s) {run : ActiveRun α} (hactive : s.active = some run)
    (hstatus : (s.stepped run).status = .finished) :
    Landing s run (s.endEvents run) (s.ended run).1 (s.ended run).2 where
  snapshot := rfl
  published := obstacleHits_endEvents hstatus
  reported := by
    have hevents : (s.ended run).1.events = run.output.events ++ s.endEvents run :=
      List.append_assoc ..
    rw [hevents, obstacleHits_append, obstacleHits_of_other (h.untold run hactive),
      obstacleHits_endEvents hstatus]
    rfl

theorem landing_run {source : String} {report : Report α} (h : (s.run source).1 = .ok report) :
    s.active = none ∧
      Landing s (s.newRun source) (s.published (.run source)) report (s.run source).2 := by
  have hpublished := published_run_of_report h
  cases hactive : s.active with
  | some run =>
      rw [run_of_active hactive] at h
      cases h
  | none =>
      obtain ⟨events, last, final, hway, hfinal, hname, hstatus, hend⟩ := run_ends hactive source
      have hbegun : (s.begun source).active = some (s.newRun source) := rfl
      have hlast : last.scriptEnd final = s.scriptEnd (s.newRun source) :=
        (pauses_undecided hway hbegun hfinal).scriptEnd
      have htold : obstacleHits (s.published (.run source)) =
          (penalty (s.scriptEnd (s.newRun source))).2.events := by
        rw [published_run hactive hway hfinal hname hstatus, obstacleHits_append,
          obstacleHits_append, obstacleHits_of_other (forall_mem_pauses untold_stepped hway),
          obstacleHits_endEvents hstatus, hlast]
        rfl
      refine ⟨rfl, ?_, ?_, htold⟩
      · rw [hend] at h ⊢
        cases h
        rfl
      · rw [← hpublished]
        exact htold

/-- Every operation that ends a run lands like that. -/
theorem perform_landing (h : Laid stage s) {op : Operation} {report : Report α}
    (hreport : (s.perform op).1.report? = some report) :
    ∃ run, s.runOf? op = some run ∧
      Landing s run (s.published op) report (s.perform op).2 := by
  cases endsRun_of_report hreport with
  | @resume run hactive hstatus =>
      refine ⟨run, runOf?_resume hactive, ?_⟩
      change Landing s run _ _ (s.resume run.ticket).2
      rw [resume_of_finished hactive hstatus, published_resume_finished hactive hstatus]
      exact landing_resume h hactive hstatus
  | @run source _ hran =>
      obtain ⟨hidle, landing⟩ := landing_run hran
      exact ⟨s.newRun source, runOf?_run hidle source, landing⟩

theorem penalty_of_clear {scene : Scene α} (h : scene.world.collision? = none) :
    penalty scene = (scene, .empty) := by
  rw [penalty, h]

theorem penalty_of_collision {scene : Scene α} {index : Nat}
    (h : scene.world.collision? = some index) :
    penalty scene = ({ scene with world := scene.world.moveBack },
      .line obstacleMessage ++ .event (.obstacleHit index)) := by
  rw [penalty, h]

theorem collision?_laidOut {w : World α} {l : Level α} (h : w.obstacles = laidOut l) :
    w.collision? = l.obstacles.findIdx? fun o =>
      Coordinate.abs (w.character.x - o.x) < w.playfield.collisionMargin := by
  rw [World.collision?, h, laidOut, List.findIdx?_map]
  rfl

end

/-! ## Clear of obstacles -/

open Exact

variable [Ring α] [LinearOrder α] [IsStrictOrderedRing α]

/-- The obstacle is nearer to a place, sideways, than the margin. -/
def Near (margin x : α) (o : Area α) : Prop :=
  |x - o.x| < margin

/-- The obstacle of this index is near a place, and none of those before it is. -/
structure FirstNear (obstacles : List (Area α)) (margin x : α) (index : Nat) : Prop where
  near : ∃ o, obstacles[index]? = some o ∧ Near margin x o
  first : ∀ j < index, ∀ o, obstacles[j]? = some o → ¬ Near margin x o

theorem collision?_eq_none {w : World α} {l : Level α} (h : w.obstacles = laidOut l)
    (hnone : w.collision? = none) :
    ∀ o ∈ l.obstacles, ¬ Near w.playfield.collisionMargin w.character.x o := by
  rw [collision?_laidOut h, List.findIdx?_eq_none_iff] at hnone
  intro o ho
  have hfar := of_decide_eq_false (hnone o ho)
  exact hfar

theorem collision?_eq_some {w : World α} {l : Level α} (h : w.obstacles = laidOut l) {index : Nat}
    (hsome : w.collision? = some index) :
    FirstNear l.obstacles w.playfield.collisionMargin w.character.x index := by
  rw [collision?_laidOut h, List.findIdx?_eq_some_iff_getElem] at hsome
  obtain ⟨hindex, hnear, hearlier⟩ := hsome
  have hclose := of_decide_eq_true hnear
  refine ⟨⟨_, List.getElem?_eq_getElem hindex, hclose⟩, ?_⟩
  intro j hj o ho
  obtain ⟨hlisted, rfl⟩ := List.getElem?_eq_some_iff.mp ho
  intro hnearer
  exact hearlier j hj (decide_eq_true hnearer)

/-- What becomes of a character that a script leaves somewhere: it stays where it is near no obstacle,
and otherwise goes to the start, which is told once with the first obstacle that is near. -/
inductive Settles (l : Level α) (margin x : α) : α → List (Event α) → Prop
  | clear : (∀ o ∈ l.obstacles, ¬ Near margin x o) → Settles l margin x x []
  | sentBack {index : Nat} : FirstNear l.obstacles margin x index →
      Settles l margin x l.start.x [.obstacleHit index]

theorem settles_penalty {stage : Stage α} (hstage : stage.Proper) {scene : Scene α}
    (hinside : scene.world.Inside stage) (hlaid : scene.world.obstacles = laidOut stage.level) :
    Settles stage.level stage.playfield.collisionMargin scene.world.character.x
      (penalty scene).1.world.character.x (penalty scene).2.events := by
  rw [← hinside.playfield_eq]
  cases hcollision : scene.world.collision? with
  | none =>
      rw [penalty_of_clear hcollision]
      exact .clear (collision?_eq_none hlaid hcollision)
  | some index =>
      rw [penalty_of_collision hcollision]
      -- The way back would be cut off at the edges of the playfield, but the start lies inside.
      have hback : scene.world.moveBack.character.x = stage.level.start.x :=
        hinside.moveBack_x hstage
      dsimp only
      rw [hback]
      exact .sentBack (collision?_eq_some hlaid hcollision)

/-- Where the start is clear of obstacles, so is every place where a character settles. -/
theorem Settles.clear_of_start {l : Level α} {margin x last : α} {events : List (Event α)}
    (h : Settles l margin x last events) (hstart : ∀ o ∈ l.obstacles, ¬ Near margin l.start.x o) :
    ∀ o ∈ l.obstacles, ¬ Near margin last o := by
  cases h with
  | clear hclear => exact hclear
  | sentBack _ => exact hstart

/-- On a level of a catalog without faults whose start is clear of obstacles, no run ends near one,
whatever was done in the session before. Where the script leaves the character near an obstacle it is
back at the start, and the report and the listeners are told once, with the first such obstacle; where
not, it stays where it is and they are told of no obstacle. The level is completed, if it is, in the
place where the character is then. -/
theorem finished_run_is_clear {c : Catalog α} (hvalid : c.faults = []) {l : Level α}
    (hl : l ∈ c.levels)
    (hstart : ∀ o ∈ l.obstacles, c.playfield.collisionMargin ≤ |l.start.x - o.x|)
    (settings : Settings) (ops : List Operation) {op : Operation} {report : Report α}
    (hreport : (((start ⟨l, c.playfield⟩ settings).performAll ops).2.perform op).1.report? =
      some report) :
    let s := ((start ⟨l, c.playfield⟩ settings).performAll ops).2
    let after := (s.perform op).2
    let margin := c.playfield.collisionMargin
    let x := after.scene.world.character.x
    (∀ o ∈ l.obstacles, ¬ |x - o.x| < margin) ∧
      report.snapshot.x = x ∧
      ∃ run, s.runOf? op = some run ∧
        let left := s.scriptEnd run
        after.scene = { left with world := left.world.withX x } ∧
        Settles l margin left.world.character.x x (obstacleHits report.events) ∧
        obstacleHits (s.published op) = obstacleHits report.events ∧
        (report.newlyCompleted = true ↔
          s.completed = false ∧ Stage.Achieved ⟨l, c.playfield⟩ after.scene) ∧
        after.completed = (s.completed || report.newlyCompleted) := by
  intro s after margin x
  have hstage : Stage.Proper ⟨l, c.playfield⟩ := Catalog.proper_stage hvalid hl
  obtain ⟨hconfined, -⟩ := (confines_law hstage).history ops (confined_start hstage settings)
  have hlaid : Laid ⟨l, c.playfield⟩ s := (laid_law _).performAll ops (laid_start _ settings)
  obtain ⟨run, hrun, verdict⟩ := perform_verdict hreport
  obtain ⟨same, hsame, landing⟩ := perform_landing hlaid hreport
  cases hsame.symm.trans hrun
  have hkept := Script.keepsScenery_remaining run.execution s.stage.level.retreat s.scene
  have hinside : (s.scriptEnd run).world.Inside ⟨l, c.playfield⟩ :=
    ((Script.confines_law hstage s.stage.level.retreat).remaining run.execution s.scene
      hconfined.inside).1
  have hsettles := settles_penalty hstage hinside (hkept.obstacles.trans hlaid.obstacles)
  have hscene : after.scene = (penalty (s.scriptEnd run)).1 := verdict.scene
  rw [← landing.reported, ← hscene] at hsettles
  have hnewly := verdict.newly
  rw [← verdict.scene, hlaid.stage_eq] at hnewly
  refine ⟨hsettles.clear_of_start ?_, congrArg Snapshot.x landing.snapshot, run, hrun, ?_, hsettles,
    landing.published.trans landing.reported.symm, hnewly, verdict.completed⟩
  · intro o ho
    exact not_lt.mpr (hstart o ho)
  · obtain ⟨last, hlast⟩ := penalty_eq (s.scriptEnd run)
    have hplace : x = last := by
      change after.scene.world.character.x = last
      rw [hscene, hlast]
      rfl
    rw [hplace, hscene, hlast]

/-- A run is given up on the first obstacle, and the next one, which does nothing, begins there. -/
def leftOnObstacle : List Operation :=
  [.begin "for (int i = 0; i < 2; i++) \x7b moveRight(); \x7d", .resume ⟨1⟩, .cancel, .begin ""]

theorem finished_run_is_clear_leftOnObstacle :
    let c : Catalog ℚ := Catalog.builtin
    let l : Level ℚ := Catalog.Builtin.freeRoamLevel
    let s := ((start ⟨l, c.playfield⟩ .standard).performAll leftOnObstacle).2
    let after := (s.perform (.resume ⟨2⟩)).2
    c.faults = [] ∧ l ∈ c.levels ∧
      (∀ o ∈ l.obstacles, c.playfield.collisionMargin ≤ |l.start.x - o.x|) ∧
      s.scene.world.character.x = 100 ∧ after.scene.world.character.x = 50 ∧
      (s.perform (.resume ⟨2⟩)).1.report?.map (fun r => (obstacleHits r.events).length) = some 1 ∧
      ∃ report, (s.perform (.resume ⟨2⟩)).1.report? = some report ∧
        (∀ o ∈ l.obstacles, ¬ |after.scene.world.character.x - o.x| < 30) ∧
        obstacleHits (s.published (.resume ⟨2⟩)) = obstacleHits report.events := by
  intro c l s after
  have hvalid : (Catalog.builtin : Catalog ℚ).faults = [] := by decide +kernel
  have hl : (Catalog.Builtin.freeRoamLevel : Level ℚ) ∈ Catalog.builtin.levels := by
    simp [Catalog.builtin]
  have hstart : ∀ o ∈ l.obstacles, c.playfield.collisionMargin ≤ |l.start.x - o.x| := by
    decide +kernel
  have hended : (s.perform (.resume ⟨2⟩)).1.report?.isSome = true := by decide +kernel
  obtain ⟨report, hreport⟩ := Option.isSome_iff_exists.mp hended
  obtain ⟨hclear, -, run, -, -, -, htold, -⟩ :=
    finished_run_is_clear hvalid hl hstart .standard leftOnObstacle hreport
  exact ⟨hvalid, hl, hstart, by decide +kernel, by decide +kernel, by decide +kernel, report,
    hreport, hclear, htold⟩

end Session

end Playscript
