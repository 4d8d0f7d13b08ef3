import Playscript.Proofs.Run.Pacing
import Playscript.Proofs.Run.Techniques
/-! Shots and what they hit. How often a script shoots can be read off the script once the truth of
its conditions is known, which does not change while a step runs; and every shot is told once. The
shots fell the targets in the order in which the level lists them, as long as there are any. -/
namespace Playscript

variable {α : Type}

/-- The targets of these areas after a number of shots. -/
def Target.row (shots : Nat) (areas : List (Area α)) : List (Target α) :=
  areas.mapIdx fun i area => ⟨area, !decide (i < shots), decide (i < shots)⟩

/-- The targets that shots from one number on carry, where there are so many targets. -/
def Target.aims (total first count : Nat) : List (Option Nat) :=
  (List.range' first count).map fun j => if j < total then some j else none

/-- What a shot has hit. -/
def Event.shot? : Event α → Option (Option Nat)
  | .shot _ _ target => some target
  | _ => none

/-- What the shots that are told of have hit. -/
def hits (events : List (Event α)) : List (Option Nat) :=
  events.filterMap Event.shot?

@[simp] theorem hits_append (a b : List (Event α)) : hits (a ++ b) = hits a ++ hits b :=
  List.filterMap_append

theorem hits_of_other {events : List (Event α)} (h : ∀ e ∈ events, e.shot? = none) :
    hits events = [] :=
  List.filterMap_eq_nil_iff.mpr h

namespace Target

theorem row_cons (shots : Nat) (area : Area α) (rest : List (Area α)) :
    row shots (area :: rest) =
      ⟨area, !decide (0 < shots), decide (0 < shots)⟩ :: row (shots - 1) rest := by
  have hlater (i : Nat) : i + 1 < shots ↔ i < shots - 1 := by omega
  simp only [row, List.mapIdx_cons, hlater]

/-- Before the first shot all targets stand. -/
theorem row_zero (areas : List (Area α)) :
    row 0 areas = areas.map fun area => ⟨area, true, false⟩ := by
  induction areas with
  | nil => rfl
  | cons area rest ih =>
      rw [row_cons, ih]
      rfl

theorem aims_add (total first a b : Nat) :
    aims total first (a + b) = aims total first a ++ aims total (first + a) b := by
  have hrange := List.range'_append_1 (s := first) (m := a) (n := b)
  rw [aims, ← hrange, List.map_append]
  rfl

/-- The next shot hits the first target that the shots before it have left. -/
theorem hitFirst_row (shots : Nat) (areas : List (Area α)) :
    World.hitFirst (row shots areas) =
      if shots < areas.length then some (shots, row (shots + 1) areas) else none := by
  induction areas generalizing shots with
  | nil => rfl
  | cons area rest ih =>
      rw [row_cons, World.hitFirst]
      cases shots with
      | zero =>
          have hleft : 0 < (area :: rest).length := Nat.succ_pos _
          rw [row_cons, if_pos hleft]
          rfl
      | succ shots =>
          rw [ih]
          by_cases hleft : shots < rest.length
          · have hleft' : shots + 1 < (area :: rest).length := Nat.succ_lt_succ hleft
            simp [hleft, row_cons]
          · simp [hleft]

theorem row_of_length_le {shots : Nat} {areas : List (Area α)} (h : areas.length ≤ shots) :
    row (shots + 1) areas = row shots areas := by
  apply List.mapIdx_eq_mapIdx_iff.mpr
  intro i hi
  have hhit : i < shots := Nat.lt_of_lt_of_le hi h
  have hhit' : i < shots + 1 := Nat.lt_succ_of_lt hhit
  simp only [hhit, hhit']

theorem countP_row (shots : Nat) (areas : List (Area α)) :
    (row shots areas).countP Target.hit = min shots areas.length := by
  induction areas generalizing shots with
  | nil => exact (Nat.min_zero shots).symm
  | cons area rest ih =>
      rw [row_cons, List.countP_cons, ih, List.length_cons]
      cases shots with
      | zero => simp
      | succ shots =>
          have hhit : decide (0 < shots + 1) = true := rfl
          rw [if_pos hhit, Nat.add_sub_cancel, Nat.add_min_add_right]

end Target

/-- The events tell of shots that fell the first targets still standing, one after the other, if the
targets were felled so before. -/
def Felled (before : List (Target α)) (events : List (Event α)) (after : List (Target α)) : Prop :=
  ∀ areas shots, before = Target.row shots areas →
    after = Target.row (shots + (hits events).length) areas ∧
      hits events = Target.aims areas.length shots (hits events).length

theorem Felled.of_other (targets : List (Target α)) {events : List (Event α)}
    (h : hits events = []) : Felled targets events targets := by
  intro areas shots hrow
  rw [h]
  exact ⟨hrow, rfl⟩

theorem Felled.trans {before middle after : List (Target α)} {a b : List (Event α)}
    (ha : Felled before a middle) (hb : Felled middle b after) : Felled before (a ++ b) after := by
  intro areas shots hrow
  obtain ⟨hmiddle, hfirst⟩ := ha areas shots hrow
  obtain ⟨hlast, hsecond⟩ := hb areas _ hmiddle
  rw [hits_append, List.length_append, Target.aims_add, ← hfirst, ← hsecond, ← Nat.add_assoc]
  exact ⟨hlast, rfl⟩

namespace Script

/-! ## How often a script shoots -/

mutual

/-- How often a statement shoots where conditions have these values. -/
def Statement.shots (truth : String → Option Bool) : Statement → Nat
  | .act action _ => if action = .shoot then 1 else 0
  | .branch condition body => if truth condition = some true then totalShots truth body else 0
  | .loop _ first stop body =>
      if Loop.entry first stop = .entered then
        (Loop.span first stop).length * totalShots truth body
      else 0
  | .assign .. | .unrecognized .. | .malformedLoop .. => 0

/-- How often statements shoot, one after the other. -/
def totalShots (truth : String → Option Bool) : List Statement → Nat
  | [] => 0
  | s :: rest => s.shots truth + totalShots truth rest

end

/-- How often statements shoot up to the first pause between two rounds of a loop. -/
def shotsToPause (truth : String → Option Bool) : List Statement → Nat
  | [] => 0
  | .loop counter first stop body :: rest =>
      if Loop.entry first stop = .entered then
        totalShots truth body + if first + 1 < stop then 0 else shotsToPause truth rest
      else
        (Statement.loop counter first stop body).shots truth + shotsToPause truth rest
  | s :: rest => s.shots truth + shotsToPause truth rest

/-- How often a script in progress shoots in its next step. -/
def Execution.shots (truth : String → Option Bool) (e : Execution) : Nat :=
  match e.active with
  | some c =>
      totalShots truth c.body + if c.next + 1 < c.stop then 0 else shotsToPause truth e.rest
  | none => shotsToPause truth e.rest

theorem shotsToPause_statement (truth : String → Option Bool) {s : Statement}
    (h : s.entersLoop = false) (rest : List Statement) :
    shotsToPause truth (s :: rest) = s.shots truth + shotsToPause truth rest := by
  cases s with
  | loop counter first stop body =>
      have hentry : Loop.entry first stop ≠ .entered := of_decide_eq_false h
      rw [shotsToPause, if_neg hentry]
  | _ => rfl

theorem shotsToPause_opened (truth : String → Option Bool) {c : Cursor}
    (h : Loop.entry c.next c.stop = .entered) (rest : List Statement) :
    shotsToPause truth (c.statement :: rest) = Execution.shots truth ⟨some c, rest⟩ := by
  rw [Cursor.statement, shotsToPause, if_pos h]
  rfl

theorem next_lt_stop_of_advance? {c next : Cursor} (h : c.advance? = some next) :
    c.next + 1 < c.stop := by
  unfold Cursor.advance? at h
  split at h
  · assumption
  · cases h

theorem not_next_lt_stop_of_last {c : Cursor} (h : c.advance? = none) :
    ¬ c.next + 1 < c.stop := by
  unfold Cursor.advance? at h
  split at h
  · cases h
  · assumption

/-! ## Every shot is told -/

theorem condition?_congr {v w : World α} (h : v.enemy = w.enemy) :
    v.condition? = w.condition? := by
  funext name
  rw [World.condition?, World.condition?, h]

variable [Coordinate α]

/-- Conditions have the same values after an effect, and it tells so many shots. -/
structure Shoots (count : (String → Option Bool) → Nat) (a : Effect α) : Prop where
  spares : SparesEnemy a
  tells : ∀ scene, (hits (a scene).2.events).length = count scene.world.condition?

omit [Coordinate α] in
theorem Shoots.silent {a : Effect α} (hspares : SparesEnemy a)
    (h : ∀ scene, hits (a scene).2.events = []) : Shoots (fun _ => 0) a :=
  ⟨hspares, fun scene => congrArg List.length (h scene)⟩

omit [Coordinate α] in
theorem Shoots.andThen {m n : (String → Option Bool) → Nat} {a b : Effect α} (ha : Shoots m a)
    (hb : Shoots n b) : Shoots (fun truth => m truth + n truth) (a.andThen b) where
  spares := fun scene => (hb.spares _).trans (ha.spares scene)
  tells := by
    intro scene
    have hlater := hb.tells (a scene).1
    rw [condition?_congr (ha.spares scene)] at hlater
    rw [← ha.tells scene, ← hlater, ← List.length_append, ← hits_append]
    rfl

omit [Coordinate α] in
theorem Shoots.congr {m n : (String → Option Bool) → Nat} {a : Effect α} (h : Shoots m a)
    (hcount : ∀ truth, m truth = n truth) : Shoots n a :=
  ⟨h.spares, fun scene => (h.tells scene).trans (hcount _)⟩

omit [Coordinate α] in
/-- The same again and again. -/
theorem Shoots.all {n : (String → Option Bool) → Nat} {effects : List (Effect α)}
    (h : ∀ a ∈ effects, Shoots n a) :
    Shoots (fun truth => effects.length * n truth) (.all effects) := by
  induction effects with
  | nil =>
      have hnone : Shoots (fun _ => 0) (Effect.all [] : Effect α) :=
        .silent (fun _ => rfl) fun _ => rfl
      exact hnone.congr fun truth => (Nat.zero_mul (n truth)).symm
  | cons a rest ih =>
      rw [List.forall_mem_cons] at h
      apply (h.1.andThen (ih h.2)).congr
      intro truth
      rw [List.length_cons, Nat.succ_mul, Nat.add_comm]

theorem shoots_perform (action : Action) (argument : Option Argument) :
    Shoots (fun _ => if action = .shoot then 1 else 0) (perform action argument : Effect α) where
  spares := (enemy_law none).perform action argument
  tells := by
    intro scene
    cases action with
    | setSpeed =>
        rcases setSpeed_cases argument scene with ⟨-, hevents⟩ | ⟨value, named, -, hevents, -⟩
        · rw [perform, hevents]
          rfl
        · rw [perform, hevents]
          rfl
    | moveLeft | moveRight | moveBack | jump | shoot => rfl

theorem shoots_branch (retreat : Option Action) (condition : String) (body : List Statement)
    {n : (String → Option Bool) → Nat} {block : Effect α} (hblock : Shoots n block) :
    Shoots (fun truth => if truth condition = some true then n truth else 0)
      (branch retreat condition body block) where
  spares := (enemy_law retreat).branch condition body hblock.spares
  tells := by
    intro scene
    rw [events_branch]
    split
    · exact hblock.tells (taken retreat body scene)
    · rfl

omit [Coordinate α] in
theorem shoots_line (text : String) : Shoots (fun _ => 0) (.tell (.line text) : Effect α) :=
  .silent (fun _ => rfl) fun _ => rfl

omit [Coordinate α] in
theorem shoots_iterate (counter : String) (i : Int64) {n : (String → Option Bool) → Nat}
    {block : Effect α} (hblock : Shoots n block) : Shoots n (iterate counter i block) :=
  ((shoots_line _).andThen hblock).congr fun _ => Nat.zero_add _

omit [Coordinate α] in
theorem shoots_openLoop (counter : String) (first stop : Int64) (body : List Statement) :
    Shoots (fun _ => 0) (openLoop counter first stop body : Effect α) :=
  .silent (fun _ => rfl) fun _ => rfl

mutual

/-- A statement tells just the shots that can be read off it. -/
theorem shoots_run (retreat : Option Action) :
    ∀ s : Statement, Shoots s.shots (s.run retreat : Effect α)
  | .assign name value => .silent (fun _ => rfl) fun _ => rfl
  | .act action argument => shoots_perform action argument
  | .branch condition body => shoots_branch retreat condition body (shoots_runAll retreat body)
  | .loop counter first stop body => by
      have hbody := shoots_runAll retreat body
      unfold Statement.shots Statement.run
      cases Loop.entry first stop with
      | tooLong | empty => exact .silent (fun _ => rfl) fun _ => rfl
      | entered =>
          have hround (a : Effect α) (ha : a ∈ (Loop.span first stop).map fun i =>
              iterate counter i (runAll retreat body)) : Shoots (totalShots · body) a := by
            obtain ⟨i, -, rfl⟩ := List.mem_map.mp ha
            exact shoots_iterate counter i hbody
          apply ((shoots_openLoop counter first stop body).andThen (.all hround)).congr
          intro truth
          rw [Nat.zero_add, List.length_map, if_pos rfl]
  | .unrecognized text line _ => .silent (fun _ => rfl) fun _ => rfl
  | .malformedLoop header _ reason => .silent (fun _ => rfl) fun _ => rfl

theorem shoots_runAll (retreat : Option Action) :
    ∀ script : List Statement, Shoots (totalShots · script) (runAll retreat script : Effect α)
  | [] => .silent (fun _ => rfl) fun _ => rfl
  | s :: rest => (shoots_run retreat s).andThen (shoots_runAll retreat rest)

end

theorem shoots_round (retreat : Option Action) (c : Cursor) :
    Shoots (totalShots · c.body) (c.round retreat : Effect α) :=
  shoots_iterate c.counter c.next (shoots_runAll retreat c.body)

omit [Coordinate α] in
/-- A first part and what comes after it tell all the shots of both. -/
theorem Shoots.after {m n : (String → Option Bool) → Nat} {a : Effect α} (h : Shoots m a)
    {scene : Scene α} {later : Stepped α}
    (hlater : (hits later.output.events).length = n (a scene).1.world.condition?) :
    (hits (later.after (a scene).2).output.events).length =
      m scene.world.condition? + n scene.world.condition? := by
  rw [condition?_congr (h.spares scene)] at hlater
  rw [← h.tells scene, ← hlater, ← List.length_append, ← hits_append]
  rfl

theorem hits_of_advances {retreat : Option Action} {delay : Duration} {e : Execution}
    {scene : Scene α} {stepped : Stepped α} (h : Advances retreat delay e scene stepped) :
    (hits stepped.output.events).length = e.shots scene.world.condition? := by
  induction h with
  | done scene => rfl
  | @statement s rest scene later hs _ ih =>
      have hshots := shotsToPause_statement scene.world.condition? hs rest
      exact ((shoots_run retreat s).after (n := (shotsToPause · rest)) ih).trans hshots.symm
  | @opened c rest scene later hentry _ ih =>
      have hshots := shotsToPause_opened scene.world.condition? hentry rest
      refine ((shoots_openLoop c.counter c.next c.stop c.body).after
        (n := fun truth => Execution.shots truth ⟨some c, rest⟩) ih).trans ?_
      rw [Nat.zero_add]
      exact hshots.symm
  | @lastRound c rest scene later hlast _ ih =>
      refine ((shoots_round retreat c).after (n := (shotsToPause · rest)) ih).trans ?_
      exact congrArg (_ + ·) (if_neg (not_next_lt_stop_of_last hlast)).symm
  | @paused c next rest scene hnext =>
      have hround := (shoots_round retreat c).tells scene
      rw [Output.events_append, hits_append, List.length_append, hround]
      exact congrArg (_ + ·) (if_pos (next_lt_stop_of_advance? hnext)).symm

/-- A step tells just the shots that can be read off its script. -/
theorem length_hits_step (e : Execution) (retreat : Option Action) (delay : Duration)
    (scene : Scene α) :
    (hits (e.step retreat delay scene).output.events).length = e.shots scene.world.condition? :=
  hits_of_advances (advances_step e retreat delay scene)

/-! ## What shots hit -/

/-- An effect whose shots fell the targets in their order. -/
def Fells (a : Effect α) : Prop :=
  ∀ scene, Felled scene.world.targets (a scene).2.events (a scene).1.world.targets

omit [Coordinate α] in
theorem Fells.of_other {a : Effect α}
    (htargets : ∀ scene, (a scene).1.world.targets = scene.world.targets)
    (h : ∀ scene, hits (a scene).2.events = []) : Fells a := by
  intro scene
  rw [htargets scene]
  exact .of_other _ (h scene)

omit [Coordinate α] in
theorem fells_shoot : Fells (shoot : Effect α) := by
  intro scene areas k hrow
  have hfound := Target.hitFirst_row k areas
  by_cases hleft : k < areas.length
  · have hshot : scene.world.shoot =
        (some k, { scene.world with targets := Target.row (k + 1) areas }) := by
      rw [World.shoot, hrow, hfound, if_pos hleft]
    rw [shoot, hshot]
    refine ⟨rfl, ?_⟩
    change [some k] = [if k < areas.length then some k else none]
    rw [if_pos hleft]
  · have hshot : scene.world.shoot = (none, scene.world) := by
      rw [World.shoot, hrow, hfound, if_neg hleft]
    rw [shoot, hshot]
    refine ⟨?_, ?_⟩
    · exact hrow.trans (Target.row_of_length_le (Nat.le_of_not_lt hleft)).symm
    · change [none] = [if k < areas.length then some k else none]
      rw [if_neg hleft]

theorem fells_perform (action : Action) (argument : Option Argument) :
    Fells (perform action argument : Effect α) := by
  cases action with
  | shoot => exact fells_shoot
  | moveLeft | moveRight | moveBack | jump => exact .of_other (fun _ => rfl) fun _ => rfl
  | setSpeed =>
      refine .of_other ?_ ?_ <;> intro scene <;>
        rcases setSpeed_cases argument scene with
          ⟨hscene, hevents⟩ | ⟨value, named, hscene, hevents, -⟩
      · rw [perform, hscene]
      · rw [perform, hscene]
        rfl
      · rw [perform, hevents]
        rfl
      · rw [perform, hevents]
        rfl

theorem fells_law (retreat : Option Action) : StatementLaw (α := α) retreat Fells where
  skip := .of_other (fun _ => rfl) fun _ => rfl
  andThen := fun ha hb scene => (ha scene).trans (hb _)
  line := fun _ => .of_other (fun _ => rfl) fun _ => rfl
  issue := fun _ => .of_other (fun _ => rfl) fun _ => rfl
  assign := fun _ _ => .of_other (fun _ => rfl) fun _ => rfl
  perform := fells_perform
  branch := by
    intro condition body block hblock scene
    rw [branch_scene, events_branch]
    split
    · exact hblock (taken retreat body scene)
    · exact .of_other _ rfl
  openLoop := fun _ _ _ _ => .of_other (fun _ => rfl) fun _ => rfl

end Script

end Playscript
