import Playscript.Proofs.Enemy.Timing
import Playscript.Proofs.Session.Delivery
import Playscript.Proofs.Session.Techniques
/-! The enemy over a whole session. The time that has passed since the last reset, while the level was
not completed, settles where the enemy is and which of its moves have been told; how that time was cut
into pieces, and what else was done in between, does not matter. -/
namespace Playscript

variable {α : Type}

namespace Session

/-- The time that an operation lets pass for the enemy. There is none once the level is completed. -/
def Entry.runningTime (e : Entry α) : Nat :=
  match e.operation with
  | .advanceClock elapsed _ => if !e.before.completed then elapsed.nanos else 0
  | _ => 0

def runningTime (entries : List (Entry α)) : Nat :=
  (entries.map Entry.runningTime).sum

theorem runningTime_append (entries : List (Entry α)) (e : Entry α) :
    runningTime (entries ++ [e]) = runningTime entries + e.runningTime := by
  rw [runningTime, List.map_append, List.sum_append, List.map_singleton, List.sum_singleton]
  rfl

theorem runningTime_of_other {e : Entry α} (h : e.operation.isOfClock = false) :
    e.runningTime = 0 := by
  unfold Entry.runningTime
  split
  · rename_i hclock
    rw [hclock] at h
    cases h
  · rfl

/-- A session whose enemy and schedule are those of its stage and settings after so much running
time. -/
structure OnTime (stage : Stage α) (settings : Settings) (time : Nat) (s : Session α) : Prop where
  stage_eq : s.stage = stage
  schedule : s.schedule = some (settings.enemy.schedule.after time !s.completed)
  enemy : s.scene.world.enemy = stage.level.enemy.map fun e =>
    ⟨e.area, e.nearX, endsNear false (settings.enemy.schedule.placesTaken time), true⟩

variable {stage : Stage α} {settings : Settings} {time : Nat} {s : Session α}

/-- A period lasts as long as the settings say, and at least a millisecond. -/
theorem period_schedule (settings : EnemySettings) :
    settings.schedule.period.nanos =
      (Duration.ofMillis (max settings.periodMillis.toNat 1)).nanos := by
  change max (_ * 1000000) (1 * 1000000) = max _ 1 * 1000000
  exact (Nat.mul_max_mul_right ..)

theorem enemy_initialScene_onTime (stage : Stage α) (settings : Settings) :
    (initialScene stage).world.enemy = stage.level.enemy.map fun e =>
      ⟨e.area, e.nearX, endsNear false (settings.enemy.schedule.placesTaken 0), true⟩ := by
  rw [Schedule.placesTaken_zero]
  rfl

theorem onTime_start (henemy : stage.level.enemy.isSome = true) :
    OnTime stage settings 0 (start stage settings) where
  stage_eq := rfl
  schedule := by
    obtain ⟨e, he⟩ := Option.isSome_iff_exists.mp henemy
    rw [start, he]
    exact congrArg some (Schedule.start_after_zero ..).symm
  enemy := enemy_initialScene_onTime stage settings

theorem OnTime.reset (h : OnTime stage settings time s) : OnTime stage settings 0 s.reset.2 := by
  obtain ⟨rfl, hschedule, -⟩ := h
  refine ⟨rfl, ?_, enemy_initialScene_onTime s.stage settings⟩
  rw [reset_eq]
  change s.schedule.map Schedule.restart = some (settings.enemy.schedule.after 0 true)
  rw [hschedule]
  exact congrArg some (Schedule.start_after_zero ..).symm

/-- The moves of the enemy that so much running time makes. -/
def movesBy (settings : Settings) (time : Nat) : List (Event α) :=
  (turns false (settings.enemy.schedule.placesTaken time)).map .enemyMoved

theorem movesBy_zero (settings : Settings) : (movesBy settings 0 : List (Event α)) = [] := by
  rw [movesBy, Schedule.placesTaken_zero]
  rfl

theorem movesBy_alternates (settings : Settings) (time : Nat) :
    (movesBy settings time : List (Event α)) =
      (List.range (movesBy (α := α) settings time).length).map fun i => .enemyMoved (i % 2 == 0) := by
  have halternate := turns_eq false (settings.enemy.schedule.placesTaken time)
  simp only [Bool.bne_false] at halternate
  have hmoves := congrArg (List.map (Event.enemyMoved (α := α))) halternate
  rw [List.map_map] at hmoves
  rw [movesBy, List.length_map]
  exact hmoves

variable [Coordinate α]

/-- Whatever the time is, it stays, and nothing is told of the enemy. -/
def Timeless (s : Session α) (events : List (Event α)) (after : Session α) : Prop :=
  (∀ stage settings time, OnTime stage settings time s → OnTime stage settings time after) ∧
    events.filter Event.isEnemyMove = []

theorem OnTime.settled (h : OnTime stage settings time s) :
    OnTime stage settings time s.settled := by
  refine ⟨h.stage_eq, ?_, (penalty_scene s.scene).2.2.trans h.enemy⟩
  simp only [Session.settled]
  -- The schedule stops just when the level becomes complete, so it runs as long as it is not.
  cases hnow : s.completesNow with
  | true =>
      rw [if_pos rfl, h.schedule, Bool.or_true]
      rfl
  | false => rw [if_neg Bool.false_ne_true, h.schedule, Bool.or_false]

/-- Nothing but the clock and a reset changes the time. -/
theorem timeless_law : RunLaw (α := α) Timeless where
  rest := fun _ => ⟨fun _ _ _ h => h, rfl⟩
  andThen := by
    intro s middle last a b hfirst hsecond
    refine ⟨fun stage settings time h => hsecond.1 _ _ _ (hfirst.1 _ _ _ h), ?_⟩
    rw [List.filter_append, hfirst.2, hsecond.2]
    rfl
  begin := fun _ _ => ⟨fun _ _ _ h => ⟨h.stage_eq, h.schedule, h.enemy⟩, rfl⟩
  step := by
    intro s run _
    refine ⟨?_, moves_of_run (isOfRun_stepped s run)⟩
    intro stage settings time h
    exact ⟨h.stage_eq, h.schedule, (enemy_stepped s run).trans h.enemy⟩
  settle := by
    intro s run _
    refine ⟨?_, moves_of_run (isOfRun_ending s)⟩
    intro stage settings time h
    exact ⟨h.settled.stage_eq, h.settled.schedule, h.settled.enemy⟩
  cancel := fun _ => ⟨fun _ _ _ h => ⟨h.stage_eq, h.schedule, h.enemy⟩, rfl⟩
  listeners := fun _ _ => ⟨fun _ _ _ h => ⟨h.stage_eq, h.schedule, h.enemy⟩, rfl⟩

section Cycle

variable {phases : List Proximity}

/-- The clock takes the places that are due and tells of the moves that they make. -/
theorem OnTime.clock (h : OnTime stage settings time s)
    (hpattern : settings.enemy.pattern = .cycle phases)
    (henemy : stage.level.enemy.isSome = true) (elapsed : Duration) (coin : Nat → Bool) :
    let later := time + (s.entry (.advanceClock elapsed coin)).runningTime
    OnTime stage settings later (s.advanceClock elapsed coin).2 ∧
      movesBy settings later =
        movesBy settings time ++ s.published (.advanceClock elapsed coin) := by
  intro later
  have hschedule := Schedule.advance_after settings.enemy.schedule time (!s.completed) elapsed coin
  have hplaces := Schedule.placesTaken_advance (s := settings.enemy.schedule) hpattern time
    (!s.completed) elapsed coin
  generalize htaken : (settings.enemy.schedule.after time !s.completed).advance elapsed coin = taken
    at hschedule hplaces
  obtain ⟨e, he⟩ := Option.isSome_iff_exists.mp henemy
  have hworld : s.scene.world.enemy = some ⟨e.area, e.nearX,
      endsNear false (settings.enemy.schedule.placesTaken time), true⟩ := by
    rw [h.enemy, he]
    rfl
  have hmoves := enemyMoves_eq_turns hworld taken.1
  rw [advanceClock_of_schedule h.schedule, published_clock h.schedule, htaken, hmoves]
  refine ⟨⟨h.stage_eq, congrArg some hschedule, ?_⟩, ?_⟩
  · change (enemyMoves s.scene.world taken.1).2.enemy = _
    rw [hmoves, he, ← endsNear_append, ← hplaces]
    rfl
  · rw [movesBy, movesBy, ← List.map_append, ← turns_append, ← hplaces]
    rfl

/-- The enemy of a session is on time by the entries since the last reset, and its moves by then have
been told. -/
structure Clocked (stage : Stage α) (settings : Settings) (since : List (Entry α))
    (s : Session α) : Prop where
  onTime : OnTime stage settings (runningTime since) s
  told : (since.flatMap Entry.published).filter Event.isEnemyMove =
    movesBy settings (runningTime since)

theorem Clocked.entry {since : List (Entry α)} (h : Clocked stage settings since s)
    (hpattern : settings.enemy.pattern = .cycle phases)
    (henemy : stage.level.enemy.isSome = true) {op : Operation} (hreset : op.isReset = false) :
    Clocked stage settings (since ++ [s.entry op]) (s.perform op).2 := by
  have hheard : ((since ++ [s.entry op]).flatMap Entry.published).filter Event.isEnemyMove =
      movesBy settings (runningTime since) ++ (s.published op).filter Event.isEnemyMove := by
    rw [List.flatMap_append, List.flatMap_singleton, List.filter_append, h.told]
    rfl
  -- Only the clock adds to the time, and it tells of nothing but the moves of the enemy.
  cases hclock : op.isOfClock with
  | false =>
      obtain ⟨hkeeps, hsilent⟩ := timeless_law.perform (s := s) hreset hclock
      have hnone : (s.entry op).runningTime = 0 := runningTime_of_other hclock
      rw [hsilent, List.append_nil] at hheard
      constructor
      · rw [runningTime_append, hnone]
        exact hkeeps _ _ _ h.onTime
      · rw [hheard, runningTime_append, hnone]
        rfl
  | true =>
      cases op with
      | advanceClock elapsed coin =>
          obtain ⟨honTime, hmoves⟩ := h.onTime.clock hpattern henemy elapsed coin
          have hall : (s.published (.advanceClock elapsed coin)).filter Event.isEnemyMove =
              s.published (.advanceClock elapsed coin) := by
            rw [published_clock h.onTime.schedule]
            exact List.filter_eq_self.mpr (isEnemyMove_enemyMoves _ _)
          constructor
          · rw [runningTime_append]
            exact honTime
          · rw [hheard, runningTime_append, hmoves, hall]
      | _ => cases hclock

theorem Clocked.reset {since : List (Entry α)} (h : Clocked stage settings since s) :
    Clocked stage settings [] s.reset.2 :=
  ⟨h.onTime.reset, (movesBy_zero settings).symm⟩

theorem clocked_start (henemy : stage.level.enemy.isSome = true) :
    Clocked stage settings [] (start stage settings) :=
  ⟨onTime_start henemy, (movesBy_zero settings).symm⟩

theorem clocked_history (hpattern : settings.enemy.pattern = .cycle phases)
    (henemy : stage.level.enemy.isSome = true) (ops : List Operation) :
    Clocked stage settings (sinceReset ((start stage settings).history ops))
      ((start stage settings).performAll ops).2 := by
  have hfirst : Clocked stage settings (sinceReset []) (start stage settings) :=
    clocked_start henemy
  exact history_since_reset (P := Clocked stage settings) Clocked.reset
    (fun hreset h => h.entry hpattern henemy hreset) hfirst ops

end Cycle

/-- Whatever is done in a session, its enemy is where the time puts it that has passed since the last
reset while the level was not completed. After `m` periods of a cycle the enemy is near if the last of
its first `m` places is; its moves have been told alternately near and far, each once and in the
answer of the clock; and all other histories with the same time have left it in the same state after
the same moves. -/
theorem enemy_follows_clock (stage : Stage α) (settings : Settings) {phases : List Proximity}
    (hpattern : settings.enemy.pattern = .cycle phases)
    (henemy : stage.level.enemy.isSome = true) (ops : List Operation) :
    let s := ((start stage settings).performAll ops).2
    let entries := sinceReset ((start stage settings).history ops)
    let period := (Duration.ofMillis (max settings.enemy.periodMillis.toNat 1)).nanos
    let m := runningTime entries / period
    let told := (entries.flatMap Entry.published).filter Event.isEnemyMove
    (m < 2 ^ 64 →
      s.scene.world.enemyNear =
          (decide (0 < m) && phases[(m - 1) % phases.length]? == some .near) ∧
        told = (turns false ((List.range m).map fun i =>
          (phases[i % phases.length]?).getD .far)).map .enemyMoved) ∧
      told = ((List.range told.length).map fun i => .enemyMoved (i % 2 == 0)) ∧
      (entries.flatMap fun e => e.reply.moves) = told ∧
      ∀ others, runningTime (sinceReset ((start stage settings).history others)) =
          runningTime entries →
        ((start stage settings).performAll others).2.scene.world.enemy = s.scene.world.enemy ∧
          ((sinceReset ((start stage settings).history others)).flatMap
            Entry.published).filter Event.isEnemyMove = told := by
  intro s entries period m told
  have hclocked := clocked_history hpattern henemy ops
  have hperiod : settings.enemy.schedule.period.nanos = period := period_schedule settings.enemy
  have htold : told = movesBy settings (runningTime entries) := hclocked.told
  -- The only use of the bound: so few phases do not come round to zero.
  have hplaces (hm : m < 2 ^ 64) : settings.enemy.schedule.placesTaken (runningTime entries) =
      (List.range m).map fun i => (phases[i % phases.length]?).getD .far := by
    rw [Schedule.placesTaken, hperiod]
    change Schedule.firstPlaces settings.enemy.pattern m = _
    rw [hpattern, Schedule.firstPlaces_cycle phases hm]
  refine ⟨fun hm => ⟨?_, ?_⟩, ?_, ?_, ?_⟩
  · obtain ⟨e, he⟩ := Option.isSome_iff_exists.mp henemy
    rw [World.enemyNear, hclocked.onTime.enemy, he, Option.map_some, Option.any_some, hplaces hm,
      endsNear_cycle]
  · rw [htold, movesBy, hplaces hm]
  · rw [htold]
    exact movesBy_alternates settings (runningTime entries)
  · have hanswered := List.flatMap_congr fun e (he : e ∈ entries) =>
      (voices_history (mem_of_sinceReset he)).moves
    rw [← hanswered, ← List.filter_flatMap]
  · intro others hsame
    have hother := clocked_history hpattern henemy others
    rw [hother.onTime.enemy, hclocked.onTime.enemy, hother.told, hsame]
    exact ⟨rfl, htold.symm⟩

/-- After a reset, ten seconds in three pieces around a run that is then given up. -/
def aroundRun : List Operation :=
  [.advanceClock (.ofMillis 9000) fun _ => true, .reset,
    .begin "for (int i = 0; i < 3; i++) \x7b shoot(); \x7d",
    .advanceClock (.ofMillis 3500) fun _ => true, .resume ⟨1⟩,
    .advanceClock (.ofMillis 4500) fun _ => true, .cancel,
    .advanceClock (.ofMillis 2000) fun _ => true]

theorem enemy_follows_clock_aroundRun :
    Settings.standard.enemy.pattern = .cycle [.far, .near, .far, .far, .near] ∧
      freeRoam.level.enemy.isSome = true ∧
      (let s := ((start freeRoam .standard).performAll aroundRun).2
      let entries := sinceReset ((start freeRoam .standard).history aroundRun)
      runningTime entries / 2000000000 = 5 ∧ s.scene.world.enemyNear = true ∧
        (entries.flatMap Entry.published).filter Event.isEnemyMove =
          [.enemyMoved true, .enemyMoved false, .enemyMoved true]) := by
  have hperiods : runningTime (sinceReset ((start freeRoam .standard).history aroundRun)) /
      2000000000 = 5 := by decide +kernel
  have hperiod : (Duration.ofMillis (max Settings.standard.enemy.periodMillis.toNat 1)).nanos =
      2000000000 := rfl
  have hpattern : Settings.standard.enemy.pattern = .cycle [.far, .near, .far, .far, .near] := rfl
  have hall := enemy_follows_clock freeRoam .standard hpattern rfl aroundRun
  simp only [hperiod, hperiods] at hall
  obtain ⟨hnear, htold⟩ := hall.1 (by decide)
  exact ⟨hpattern, rfl, hperiods, hnear.trans (by decide), htold.trans rfl⟩

end Session

end Playscript
