import Playscript.Enemy.Schedule
import Playscript.Run.Execution
import Playscript.Session.Error
import Playscript.Settings
import Playscript.Stage
import Playscript.World.Snapshot
/-! A session: one attempt at a level, from the initial layout to its completion and beyond. The
session runs scripts, pauses between the rounds of their loops, lets the enemy move when it is told
that time has passed, and tells its listeners every event. A completed level stays completed until
the session is reset. -/
namespace Playscript

/-- The name of a run. No two runs of a session have the same. -/
structure Ticket where
  number : Nat
deriving DecidableEq, Repr

/-- A listener with the events that it has heard and not yet taken. A listener that has left hears
nothing more. -/
structure Listener (α : Type) where
  heard : List (Event α)
  present : Bool

def Listener.tell {α : Type} (events : List (Event α)) (l : Listener α) : Listener α :=
  if l.present then { l with heard := l.heard ++ events } else l

/-- A run in progress with its output so far. -/
structure ActiveRun (α : Type) where
  ticket : Ticket
  execution : Script.Execution
  output : Output α
  /-- How many events of the output have been published. -/
  published : Nat
  /-- Between two operations of the session, no event of the run waits to be published. -/
  published_eq : published = output.events.length

namespace ActiveRun

variable {α : Type}

/-- A run whose output has been published up to here. -/
def upTo (ticket : Ticket) (execution : Script.Execution) (output : Output α) : ActiveRun α :=
  ⟨ticket, execution, output, output.events.length, rfl⟩

/-- The events of a longer output that are still to be published. -/
def unpublished (run : ActiveRun α) (output : Output α) : List (Event α) :=
  output.events.drop run.published

/-- What is still to be published is just what has been added. -/
theorem unpublished_append (run : ActiveRun α) (more : Output α) :
    run.unpublished (run.output ++ more) = more.events := by
  rw [unpublished, run.published_eq, Output.events_append, List.drop_left]

end ActiveRun

structure Session (α : Type) where
  stage : Stage α
  settings : Settings
  scene : Scene α
  completed : Bool
  schedule : Option Schedule
  active : Option (ActiveRun α)
  nextTicket : Nat
  listeners : List (Listener α)

structure Report (α : Type) where
  log : List String
  completed : Bool
  /-- This run is the one that completed the level. -/
  newlyCompleted : Bool
  issues : List Issue
  events : List (Event α)
  techniques : Techniques
  snapshot : Snapshot α

/-- The answer to going on with a run. -/
inductive Resumed (α : Type)
  | paused (ticket : Ticket) (delay : Duration)
  | finished (report : Report α)
  /-- The ticket is not that of the active run. -/
  | cancelled

namespace Session

inductive Status
  | idle
  | running
  | completed
deriving DecidableEq, Repr

def runHeader : String := "--- Running your code ---"

def completedMessage : String := "Congratulations! Level completed!"

def resetMessage : String := "Level reset. Let's try again!"

def obstacleMessage : String := "Ouch! You hit an obstacle."

variable {α : Type}

def initialScene (stage : Stage α) : Scene α :=
  ⟨stage.initialWorld, .empty, .none⟩

/-- A new attempt. Only a level with an enemy has a schedule. -/
def start (stage : Stage α) (settings : Settings) : Session α :=
  { stage
    settings
    scene := initialScene stage
    completed := false
    schedule := stage.level.enemy.map fun _ => settings.enemy.schedule
    active := none
    nextTicket := 1
    listeners := [] }

def status (s : Session α) : Status :=
  if s.active.isSome then .running else if s.completed then .completed else .idle

/-! ## Listeners -/

def publish (s : Session α) (events : List (Event α)) : Session α :=
  { s with listeners := s.listeners.map (Listener.tell events) }

/-- A further listener, who hears what happens from now on; its index is its name. -/
def subscribe (s : Session α) : Nat × Session α :=
  (s.listeners.length, { s with listeners := s.listeners ++ [⟨[], true⟩] })

def collect (s : Session α) (index : Nat) : List (Event α) × Session α :=
  match s.listeners[index]? with
  | some l => (l.heard, { s with listeners := s.listeners.set index { l with heard := [] } })
  | none => ([], s)

def unsubscribe (s : Session α) (index : Nat) : Session α :=
  match s.listeners[index]? with
  | some _ => { s with listeners := s.listeners.set index ⟨[], false⟩ }
  | none => s

/-! ## Runs -/

/-- Starts to run a source text, unless another run is still active. -/
def begin (s : Session α) (source : String) : Except SessionError Ticket × Session α :=
  match s.active with
  | some _ => (.error .runInProgress, s)
  | none =>
      let ticket : Ticket := ⟨s.nextTicket⟩
      let output : Output α := .line runHeader ++ .event .runStarted
      let run : ActiveRun α := .upTo ticket (.start (s.stage.recognize source)) output
      (.ok ticket,
        { s with active := some run, nextTicket := s.nextTicket + 1 }.publish output.events)

/-- Gives up the active run and keeps what it has changed. Answers whether there was one. -/
def cancel (s : Session α) : Bool × Session α :=
  (s.active.isSome, { s with active := none })

/-- Puts the level back to its start and answers the starter code. -/
def reset (s : Session α) : String × Session α :=
  let fresh : Session α :=
    { s with
      scene := initialScene s.stage
      completed := false
      schedule := s.schedule.map Schedule.restart
      active := none }
  (s.stage.level.starterCode, fresh.publish [.reset])

/-- The enemy moves that a list of places makes, and the world after them. A place where the enemy
already is makes no move. -/
def enemyMoves (w : World α) : List Proximity → List (Event α) × World α
  | [] => ([], w)
  | p :: rest =>
      match w.withEnemyNear? p.isNear with
      | some moved =>
          let later := enemyMoves moved rest
          (.enemyMoved p.isNear :: later.1, later.2)
      | none => enemyMoves w rest

/-- Lets time pass for the enemy and answers its moves. -/
def advanceClock (s : Session α) (elapsed : Duration) (coin : Nat → Bool) :
    List (Event α) × Session α :=
  match s.schedule with
  | none => ([], s)
  | some schedule =>
      let places := schedule.advance elapsed coin
      let moves := enemyMoves s.scene.world places.1
      let next := { s with
        schedule := some places.2
        scene := { s.scene with world := moves.2 } }
      (moves.1, next.publish moves.1)

variable [Coordinate α]

/-- A character that has run into an obstacle goes back to the start. -/
def penalty : Effect α := fun scene =>
  match scene.world.collision? with
  | some index =>
      ({ scene with world := scene.world.moveBack },
        .line obstacleMessage ++ .event (.obstacleHit index))
  | none => (scene, .empty)

/-- Ends a run whose script is done: the obstacles are checked, then the requirements. -/
def finish (s : Session α) (run : ActiveRun α) : Report α × Session α :=
  let settled := penalty s.scene
  let scene := settled.1
  let newly := !s.completed && s.stage.isComplete scene.world scene.techniques
  let completed := s.completed || newly
  let praise : Output α :=
    if newly then .line completedMessage ++ .event .completed else .empty
  let ending := settled.2 ++ praise ++ .event (.runFinished completed)
  let all := run.output ++ ending
  let next := { s with
    scene
    completed
    schedule := if newly then s.schedule.map Schedule.stop else s.schedule
    active := none }
  ({ log := all.trace
     completed
     newlyCompleted := newly
     issues := all.issues
     events := all.events
     techniques := scene.techniques
     snapshot := scene.world.snapshot },
    next.publish (run.unpublished all))

/-- Goes on with the run of a ticket to its next pause or its end. -/
def resume (s : Session α) (ticket : Ticket) : Resumed α × Session α :=
  match s.active with
  | none => (.cancelled, s)
  | some run =>
      if run.ticket = ticket then
        let stepped := run.execution.step s.stage.level.retreat s.settings.pacing s.scene
        let output := run.output ++ stepped.output
        let later : ActiveRun α := .upTo ticket stepped.execution output
        let next := { s with
          scene := stepped.scene
          active := some later }.publish (run.unpublished output)
        match stepped.status with
        | .paused delay => (.paused ticket delay, next)
        | .finished =>
            let finished := next.finish later
            (.finished finished.1, finished.2)
      else
        (.cancelled, s)

/-- The pauses that the active run has still to make. -/
def pauses (s : Session α) : Nat :=
  (s.active.map fun run => run.execution.pauses).getD 0

theorem pauses_resume {s : Session α} {t u : Ticket} {d : Duration}
    (h : (s.resume t).1 = .paused u d) : (s.resume t).2.pauses + 1 = s.pauses := by
  unfold resume at h ⊢
  split at h
  · simp at h
  · rename_i run hrun
    split at h
    · rename_i ht
      simp only at h
      split at h
      · rename_i delay hstatus
        have := run.execution.pauses_step _ _ _ _ hstatus
        simpa [ht, hstatus, pauses, publish, hrun, ActiveRun.upTo] using this
      · simp at h
    · simp at h

/-- Goes on with a run until it ends, without waiting at its pauses. -/
def runOn (s : Session α) (ticket : Ticket) : Except SessionError (Report α) × Session α :=
  match _h : s.resume ticket with
  | (.paused _ _, next) => next.runOn ticket
  | (.finished report, next) => (.ok report, next)
  | (.cancelled, next) => (.error .runCancelled, next)
termination_by s.pauses
decreasing_by
  have := pauses_resume (congrArg Prod.fst _h)
  simp only [_h] at this
  omega

theorem runOn_of_paused {s next : Session α} {t u : Ticket} {d : Duration}
    (h : s.resume t = (.paused u d, next)) : s.runOn t = next.runOn t := by
  rw [runOn]
  split
  all_goals
    rename_i hresume
    rw [h] at hresume
    cases hresume
  rfl

theorem runOn_of_finished {s next : Session α} {t : Ticket} {report : Report α}
    (h : s.resume t = (.finished report, next)) : s.runOn t = (.ok report, next) := by
  rw [runOn]
  split
  all_goals
    rename_i hresume
    rw [h] at hresume
    cases hresume
  rfl

/-- Runs a source text from start to end. -/
def run (s : Session α) (source : String) : Except SessionError (Report α) × Session α :=
  match s.begin source with
  | (.ok ticket, s) => s.runOn ticket
  | (.error e, s) => (.error e, s)

end Session

end Playscript
