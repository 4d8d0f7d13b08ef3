import Playscript.Catalog.Builtin
import Playscript.Proofs.Run.Licence
import Playscript.Proofs.Session.Attempt
import Playscript.Proofs.Session.Hearing
import Playscript.Proofs.Session.Story
/-! The events of a session tell its state. A listener that has heard everything from the start can
replay it on the initial layout, and then has the world, the variables and the completion of the
session. Every change of these is told by one event, and nothing is told that has not happened. -/
namespace Playscript

variable {α : Type}

/-- What the events of a level tell about it. -/
structure Picture (α : Type) where
  world : World α
  bindings : Variables
  completed : Bool

namespace Picture

def initial (stage : Stage α) : Picture α :=
  ⟨stage.initialWorld, .empty, false⟩

/-- The world with a target hit, which then stands no longer. -/
def withHit (w : World α) (index : Nat) : World α :=
  { w with targets := w.targets.modify index fun t => { t with hit := true, active := false } }

def withNear (w : World α) (near : Bool) : World α :=
  { w with enemy := w.enemy.map fun e => { e with near } }

theorem eq_withNear {w moved : World α} {near : Bool} (h : w.withEnemyNear? near = some moved) :
    moved = withNear w near := by
  unfold World.withEnemyNear? at h
  split at h
  · rename_i e henemy
    split at h
    · cases h
      simp only [withNear, henemy, Option.map_some]
    · cases h
  · cases h

theorem withNear_withNear (w : World α) (near later : Bool) :
    withNear (withNear w near) later = withNear w later := by
  simp only [withNear, Option.map_map, Function.comp_def]

variable [Coordinate α]

/-- The world with the character at the start, as near to it as the playfield allows. -/
def atStart (w : World α) : World α :=
  w.withX (Coordinate.clamp (Coordinate.ofInt 0) w.playfield.maxX w.start.x)

/-- The picture after an event. -/
def after (stage : Stage α) (p : Picture α) : Event α → Picture α
  | .moved _ _ x => { p with world := p.world.withX x }
  | .speedChanged speed => { p with world := p.world.withSpeed speed }
  | .shot _ _ (some index) => { p with world := withHit p.world index }
  | .variableSet name value => { p with bindings := p.bindings.set name value }
  | .enemyMoved near => { p with world := withNear p.world near }
  | .obstacleHit _ => { p with world := atStart p.world }
  | .completed => { p with completed := true }
  | .reset => initial stage
  | .shot _ _ none | .jumped _ _ | .runStarted | .pacing _ _ | .runFinished _ => p

def replay (stage : Stage α) (p : Picture α) (events : List (Event α)) : Picture α :=
  events.foldl (after stage) p

@[simp] theorem replay_nil (stage : Stage α) (p : Picture α) : p.replay stage [] = p := rfl

@[simp] theorem replay_cons (stage : Stage α) (p : Picture α) (e : Event α)
    (rest : List (Event α)) : p.replay stage (e :: rest) = (p.after stage e).replay stage rest :=
  rfl

theorem replay_append (stage : Stage α) (p : Picture α) (a b : List (Event α)) :
    p.replay stage (a ++ b) = (p.replay stage a).replay stage b :=
  List.foldl_append

end Picture

/-- The picture of a scene. -/
def Scene.picture (scene : Scene α) (completed : Bool) : Picture α :=
  ⟨scene.world, scene.bindings, completed⟩

/-! ## Deeds of statements -/

namespace Script

variable [Coordinate α] {stage : Stage α}

/-- An effect whose events tell all that it does to a picture. -/
def Told (stage : Stage α) (a : Effect α) : Prop :=
  ∀ scene completed, (scene.picture completed).replay stage (a scene).2.events =
    (a scene).1.picture completed

theorem Told.andThen {a b : Effect α} (ha : Told stage a) (hb : Told stage b) :
    Told stage (a.andThen b) := by
  intro scene completed
  show (scene.picture completed).replay stage ((a scene).2.events ++ (b (a scene).1).2.events) = _
  rw [Picture.replay_append, ha scene completed, hb (a scene).1 completed]
  rfl

/-- An effect that tells nothing and touches neither the world nor the variables. -/
theorem Told.of_silent {a : Effect α} (hevents : ∀ scene, (a scene).2.events = [])
    (hscene : ∀ scene completed, (a scene).1.picture completed = scene.picture completed) :
    Told stage a := by
  intro scene completed
  rw [hevents, Picture.replay_nil, hscene]

omit [Coordinate α] in
theorem eq_modify_of_hitFirst {targets hit : List (Target α)} {index : Nat}
    (h : World.hitFirst targets = some (index, hit)) :
    hit = targets.modify index fun t => { t with hit := true, active := false } := by
  induction targets generalizing hit index with
  | nil => cases h
  | cons t rest ih =>
      simp only [World.hitFirst] at h
      split at h
      · cases h
        rfl
      · obtain ⟨⟨i, later⟩, hlater, hboth⟩ := Option.map_eq_some_iff.mp h
        cases hboth
        rw [List.modify_succ_cons, ← ih hlater]

theorem told_shoot : Told stage (shoot : Effect α) := by
  intro scene completed
  cases hfound : World.hitFirst scene.world.targets with
  | none =>
      have hshot : scene.world.shoot = (none, scene.world) := by
        simp only [World.shoot, hfound]
      simp only [shoot, hshot]
      rfl
  | some found =>
      obtain ⟨index, targets⟩ := found
      have hshot : scene.world.shoot = (some index, Picture.withHit scene.world index) := by
        simp only [World.shoot, hfound, Picture.withHit, eq_modify_of_hitFirst hfound]
      simp only [shoot, hshot]
      rfl

theorem told_setSpeed (argument : Option Argument) :
    Told stage (setSpeed argument : Effect α) := by
  intro scene completed
  unfold setSpeed
  split
  · rfl
  · rename_i value _
    split
    · dsimp only
      split <;> rfl
    · rfl

theorem told_perform (action : Action) (argument : Option Argument) :
    Told stage (perform action argument : Effect α) := by
  cases action with
  | setSpeed => exact told_setSpeed argument
  | shoot => exact told_shoot
  | moveLeft | moveRight | moveBack | jump =>
      intro scene completed
      rfl

theorem told_branch (retreat : Option Action) (condition : String) (body : List Statement)
    {block : Effect α} (hblock : Told stage block) :
    Told stage (branch retreat condition body block) := by
  intro scene completed
  unfold branch
  split
  · rfl
  · rfl
  · exact Told.andThen (.of_silent (fun _ => rfl) fun _ _ => rfl) hblock scene completed

theorem told_law (stage : Stage α) (retreat : Option Action) :
    StatementLaw retreat (Told stage) where
  skip := .of_silent (fun _ => rfl) fun _ _ => rfl
  andThen := .andThen
  line := fun _ => .of_silent (fun _ => rfl) fun _ _ => rfl
  issue := fun _ => .of_silent (fun _ => rfl) fun _ _ => rfl
  assign := fun _ _ _ _ => rfl
  perform := told_perform
  branch := fun condition body _ => told_branch retreat condition body
  openLoop := fun _ _ _ _ => .of_silent (fun _ => rfl) fun _ _ => rfl

end Script

/-! ## Operations -/

namespace Session

def picture (s : Session α) : Picture α :=
  s.scene.picture s.completed

/-- The clock changes nothing in the world but whether the enemy is near. -/
theorem withNear_enemyMoves (w : World α) (places : List Proximity) (near : Bool) :
    Picture.withNear (enemyMoves w places).2 near = Picture.withNear w near := by
  induction places generalizing w with
  | nil => rfl
  | cons p rest ih =>
      unfold enemyMoves
      split
      · rename_i moved hmoved
        dsimp only
        rw [ih moved, Picture.eq_withNear hmoved, Picture.withNear_withNear]
      · exact ih w

variable [Coordinate α] {stage : Stage α}

theorem replay_ending (s : Session α) :
    s.picture.replay stage s.ending.events = s.settled.picture := by
  have hpenalty : (s.scene.picture s.completed).replay stage (penalty s.scene).2.events =
      (penalty s.scene).1.picture s.completed := by
    unfold penalty
    split <;> rfl
  rw [ending, Output.events_append, Output.events_append, Picture.replay_append,
    Picture.replay_append, picture, hpenalty]
  cases hnow : s.completesNow with
  | true =>
      simp only [settled, hnow, picture, Scene.picture, Bool.or_true]
      rfl
  | false =>
      simp only [settled, hnow, picture, Scene.picture, Bool.or_false]
      rfl

/-- A step tells all that it does. -/
theorem replay_stepped (s : Session α) (run : ActiveRun α) :
    s.picture.replay stage (s.stepped run).output.events = (s.stepOn run).picture := by
  have hpacing (i : Int64) :
      Script.Told stage (.tell (.event (.pacing i s.settings.pacing)) : Effect α) :=
    fun _ _ => rfl
  exact (Script.told_law stage s.stage.level.retreat).step hpacing run.execution s.scene
    s.completed

theorem replay_enemyMoves (w : World α) (bindings : Variables) (completed : Bool)
    (places : List Proximity) :
    Picture.replay stage ⟨w, bindings, completed⟩ (enemyMoves w places).1 =
      ⟨(enemyMoves w places).2, bindings, completed⟩ := by
  induction places generalizing w with
  | nil => rfl
  | cons p rest ih =>
      unfold enemyMoves
      split
      · rename_i moved hmoved
        rw [Picture.replay_cons, Picture.after, ← Picture.eq_withNear hmoved, ih]
      · exact ih w

/-- What is heard tells all that is done, as long as there is no reset. -/
theorem replay_law (stage : Stage α) :
    StoryLaw fun s events after => s.picture.replay stage events = after.picture where
  rest := fun _ => rfl
  andThen := by
    intro s middle last a b hfirst hsecond
    rw [Picture.replay_append, hfirst, hsecond]
  begin := fun _ _ => rfl
  step := fun _ => replay_stepped _ _
  settle := fun _ => replay_ending _
  cancel := fun _ => rfl
  clock := by
    intro s schedule elapsed coin hschedule
    rw [advanceClock_of_schedule hschedule]
    exact replay_enemyMoves s.scene.world s.scene.bindings s.completed _
  listeners := fun _ _ => rfl

/-- What is heard of an operation tells all that it does. -/
theorem replay_published {s : Session α} (hstage : s.stage = stage) (op : Operation) :
    s.picture.replay stage (s.published op) = (s.perform op).2.picture := by
  cases hreset : op.isReset with
  | false => exact (replay_law stage).perform hreset
  | true =>
      cases op with
      | reset =>
          rw [published_reset, ← hstage]
          rfl
      | _ => cases hreset

/-! ## Histories -/

theorem replay_history {s : Session α} (hstage : s.stage = stage) (ops : List Operation) :
    s.picture.replay stage ((s.history ops).flatMap Entry.published) =
      (s.performAll ops).2.picture := by
  induction ops generalizing s with
  | nil => rfl
  | cons op rest ih =>
      have hnext : (s.perform op).2.stage = stage :=
        ((setup_law stage s.settings).perform op ⟨hstage, rfl⟩).1
      simp only [history, performAll, List.flatMap_cons]
      rw [Picture.replay_append, Entry.published, replay_published hstage op, ih hnext]

/-- Whatever is done in a session, a listener that is there from the start and does not leave can
tell the world, the variables and the completion of the level from what it has heard. -/
theorem replay_heardOver (stage : Stage α) (settings : Settings) (ops : List Operation)
    (hstays : .unsubscribe 0 ∉ ops) :
    let s := (start stage settings).subscribe.2
    let heard := s.heardOver 0 ops
    let last := (s.performAll ops).2
    (Picture.initial stage).replay stage heard =
      ⟨last.scene.world, last.scene.bindings, last.completed⟩ := by
  intro s heard last
  have hheard : heard = (s.history ops).flatMap Entry.published :=
    heardOver_eq (l := ⟨[], true⟩) rfl rfl hstays
  rw [hheard]
  exact replay_history (s := s) rfl ops

/-- The level where all actions are allowed and an enemy moves. -/
def freeRoam : Stage Float :=
  ⟨Catalog.Builtin.freeRoamLevel, .standard⟩

/-- A run with a pause in which the enemy moves, another run that is given up, and a reset; the
first listener takes what it has heard in between. -/
def interruptions : List Operation :=
  [.begin "v = 7; setSpeed(v); for (int i = 0; i < 2; i++) \x7b shoot(); moveLeft(); \x7d",
    .resume ⟨1⟩, .advanceClock (.ofMillis 4000) fun _ => true, .collect 0, .resume ⟨1⟩,
    .begin "if (enemyNear) \x7b moveBack(); \x7d", .cancel, .reset, .unsubscribe 1,
    .run "w = 3;"]

theorem replay_heardOver_interruptions :
    .unsubscribe 0 ∉ interruptions ∧
      (let s := (start freeRoam .standard).subscribe.2
      let heard := s.heardOver 0 interruptions
      let last := (s.performAll interruptions).2
      (Picture.initial freeRoam).replay freeRoam heard =
        ⟨last.scene.world, last.scene.bindings, last.completed⟩) := by
  have hstays : .unsubscribe 0 ∉ interruptions := by simp [interruptions]
  exact ⟨hstays, replay_heardOver freeRoam .standard interruptions hstays⟩

end Session

end Playscript
