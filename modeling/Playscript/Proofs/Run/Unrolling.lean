import Playscript.Catalog.Builtin
import Playscript.Proofs.Run.Stepping
/-! A loop means its body, written out as often as the loop has rounds. What the loop adds are the
lines of the trace that announce it and its rounds, and the note that its body calls actions. -/
namespace Playscript

variable {α : Type}

/-- The scene in which it is noted that a loop calls these actions. -/
def Scene.noteLoop (scene : Scene α) (called : List Action) : Scene α :=
  { scene with techniques :=
      { scene.techniques with
        usedLoop := scene.techniques.usedLoop || !called.isEmpty
        loopedActions := scene.techniques.loopedActions.union (.ofList called) } }

theorem Scene.noteLoop_comm (scene : Scene α) (called other : List Action) :
    (scene.noteLoop called).noteLoop other = (scene.noteLoop other).noteLoop called := by
  have hactions : (scene.techniques.loopedActions.union (.ofList called)).union (.ofList other) =
      (scene.techniques.loopedActions.union (.ofList other)).union (.ofList called) := by
    apply ActionSet.ext
    intro action
    rw [ActionSet.mem_union, ActionSet.mem_union, ActionSet.mem_union, ActionSet.mem_union,
      or_right_comm]
  simp only [noteLoop, hactions, Bool.or_right_comm]

namespace Script

/-! ## Effects that do not see what is noted of loops -/

/-- An effect that does the same whatever is noted of loops. -/
def Oblivious (a : Effect α) : Prop :=
  ∀ scene called, a (scene.noteLoop called) = ((a scene).1.noteLoop called, (a scene).2)

theorem Oblivious.andThen {a b : Effect α} (ha : Oblivious a) (hb : Oblivious b) :
    Oblivious (a.andThen b) := by
  intro scene called
  simp only [Effect.andThen, ha scene called, hb (a scene).1 called]

theorem oblivious_setSpeed (argument : Option Argument) :
    Oblivious (setSpeed argument : Effect α) := by
  intro scene called
  have hbindings : (scene.noteLoop called).bindings = scene.bindings := rfl
  unfold setSpeed
  rw [hbindings]
  split
  · rfl
  · split
    · split <;> rfl
    · rfl

theorem oblivious_branch (retreat : Option Action) (condition : String) (body : List Statement)
    {block : Effect α} (hblock : Oblivious block) :
    Oblivious (branch retreat condition body block) := by
  intro scene called
  have hworld : (scene.noteLoop called).world = scene.world := rfl
  unfold branch
  rw [hworld]
  split
  · rfl
  · rfl
  · apply Oblivious.andThen _ hblock
    exact fun _ _ => rfl

theorem openLoop_eq (counter : String) (first stop : Int64) (body : List Statement)
    (scene : Scene α) :
    openLoop counter first stop body scene =
      (scene.noteLoop (body.filterMap Statement.called?),
        .line ("Executing for loop with " ++ counter ++ " from " ++ toString first ++ " to " ++
          toString (stop - 1))) := rfl

theorem oblivious_openLoop (counter : String) (first stop : Int64) (body : List Statement) :
    Oblivious (openLoop counter first stop body : Effect α) := by
  intro scene called
  rw [openLoop_eq, openLoop_eq, Scene.noteLoop_comm]

variable [Coordinate α] {retreat : Option Action}

theorem oblivious_perform (action : Action) (argument : Option Argument) :
    Oblivious (perform action argument : Effect α) := by
  cases action with
  | setSpeed => exact oblivious_setSpeed argument
  | moveLeft | moveRight | moveBack | jump | shoot => exact fun _ _ => rfl

theorem oblivious_law (retreat : Option Action) :
    StatementLaw (α := α) retreat Oblivious where
  skip := fun _ _ => rfl
  andThen := .andThen
  line := fun _ _ _ => rfl
  issue := fun _ _ _ => rfl
  assign := fun _ _ _ _ => rfl
  perform := oblivious_perform
  branch := fun condition body _ => oblivious_branch retreat condition body
  openLoop := oblivious_openLoop

/-! ## Rounds -/

/-- The body of a loop, written out so many times. -/
def unrolled (body : List Statement) (n : Nat) : List Statement :=
  (List.replicate n body).flatten

theorem runAll_append (retreat : Option Action) (script more : List Statement) :
    (runAll retreat (script ++ more) : Effect α) =
      (runAll retreat script).andThen (runAll retreat more) := by
  induction script with
  | nil => rfl
  | cons s rest ih => rw [List.cons_append, runAll, ih, runAll, Effect.andThen_assoc]

theorem runAll_unrolled_succ (retreat : Option Action) (body : List Statement) (n : Nat) :
    (runAll retreat (unrolled body (n + 1)) : Effect α) =
      (runAll retreat body).andThen (runAll retreat (unrolled body n)) := by
  rw [unrolled, List.replicate_succ, List.flatten_cons, runAll_append, unrolled]

/-- The trace of one copy of a body after so many others. -/
def copyTrace (retreat : Option Action) (body : List Statement) (scene : Scene α) (k : Nat) :
    List String :=
  (runAll retreat body (runAll retreat (unrolled body k) scene).1).2.trace

/-- Rounds that are each announced by a line do what the copies of their block do, and the lines
stand between the traces of the copies. -/
theorem all_rounds (retreat : Option Action) (body : List Statement) (label : Nat → String)
    (n : Nat) (scene : Scene α) :
    Effect.all ((List.range n).map fun k =>
        (Effect.tell (.line (label k))).andThen (runAll retreat body)) scene =
      ((runAll retreat (unrolled body n) scene).1,
        { (runAll retreat (unrolled body n) scene).2 with
          trace :=
            (List.range n).flatMap fun k => label k :: copyTrace retreat body scene k }) := by
  induction n generalizing label scene with
  | zero => rfl
  | succ n ih =>
      have hlater (k : Nat) : copyTrace retreat body scene (k + 1) =
          copyTrace retreat body (runAll retreat body scene).1 k := by
        rw [copyTrace, runAll_unrolled_succ]
        rfl
      have hrounds := ih (fun k => label (k + 1)) (runAll retreat body scene).1
      rw [List.range_succ_eq_map, List.map_cons, List.map_map, Effect.all, runAll_unrolled_succ,
        List.flatMap_cons, List.flatMap_map]
      simp only [Effect.andThen, Effect.tell, Function.comp_def, hlater] at hrounds ⊢
      rw [hrounds]
      rfl

theorem copyTrace_noteLoop (retreat : Option Action) (body : List Statement) (scene : Scene α)
    (called : List Action) (k : Nat) :
    copyTrace retreat body (scene.noteLoop called) k = copyTrace retreat body scene k := by
  have hlaw := oblivious_law (α := α) retreat
  rw [copyTrace, hlaw.runAll (unrolled body k), hlaw.runAll body, copyTrace]

/-! ## Loops -/

/-- The line that announces a round of a loop. -/
def roundLine (counter : String) (iteration : Int) : String :=
  "Loop iteration: " ++ counter ++ " = " ++ toString iteration

omit [Coordinate α] in
theorem iterate_eq (counter : String) (iteration : Int64) (block : Effect α) :
    iterate counter iteration block =
      (Effect.tell (.line (roundLine counter iteration.toInt))).andThen block := rfl

/-- No round of a loop leaves the range of words. -/
theorem toInt_iteration {first stop : Int64} {k : Nat}
    (hk : k < (stop.toInt - first.toInt).toNat) :
    (Int64.ofInt (first.toInt + Int.ofNat k)).toInt = first.toInt + k := by
  have hmin := Int64.le_toInt first
  have hmax := Int64.toInt_lt stop
  rw [Int.ofNat_eq_natCast, Int64.toInt_ofInt_of_le (by omega) (by omega)]

/-- A loop with rounds, in terms of the copies of its body. -/
theorem run_loop_of_entered {counter : String} {first stop : Int64} (body : List Statement)
    (hentry : Loop.entry first stop = .entered) (scene : Scene α) :
    let rounds := (stop.toInt - first.toInt).toNat
    let plain := runAll retreat (unrolled body rounds) scene
    (Statement.loop counter first stop body).run retreat scene =
      (plain.1.noteLoop (body.filterMap Statement.called?),
        { plain.2 with
          trace :=
            ("Executing for loop with " ++ counter ++ " from " ++ toString first ++ " to " ++
                toString (stop - 1)) ::
              (List.range rounds).flatMap fun (k : Nat) =>
                roundLine counter (first.toInt + k) :: copyTrace retreat body scene k }) := by
  intro rounds plain
  have hlabels : (Loop.span first stop).map (fun i => iterate counter i (runAll retreat body)) =
      (List.range rounds).map fun (k : Nat) =>
        (Effect.tell (.line (roundLine counter (first.toInt + k)))).andThen
          (runAll (α := α) retreat body) := by
    rw [Loop.span, List.map_map]
    apply List.map_congr_left
    intro k hk
    rw [Function.comp_apply, iterate_eq, toInt_iteration (List.mem_range.mp hk)]
  have hplain := (oblivious_law retreat).runAll (unrolled body rounds) scene
    (body.filterMap Statement.called?)
  have hrounds := all_rounds retreat body (fun (k : Nat) => roundLine counter (first.toInt + k))
    rounds (scene.noteLoop (body.filterMap Statement.called?))
  simp only [copyTrace_noteLoop, hplain] at hrounds
  rw [Statement.run, hentry, hlabels]
  simp only [Effect.andThen, openLoop_eq, hrounds]
  rfl

/-- A loop that is not entered leaves the scene alone and says so in one line. -/
theorem run_loop_of_not_entered (retreat : Option Action) (counter : String)
    {first stop : Int64} (body : List Statement) (hentry : Loop.entry first stop ≠ .entered)
    (scene : Scene α) :
    ∃ output : Output α,
      (Statement.loop counter first stop body).run retreat scene = (scene, output) ∧
        output.events = [] ∧ output.trace.length = 1 := by
  rw [Statement.run]
  cases h : Loop.entry first stop with
  | tooLong => exact ⟨_, rfl, rfl, rfl⟩
  | empty => exact ⟨_, rfl, rfl, rfl⟩
  | entered => exact absurd h hentry

/-- A loop means its body as often as it has rounds. World, variables, issues and events are those
of the copies of the body, so the counter is never stored; the trace announces the loop and each of
its rounds; and of the techniques only the note on loops tells the two apart. A loop without rounds,
or with more of them than the limit, changes nothing and adds one line. -/
theorem run_loop_eq_unrolled (retreat : Option Action) (counter : String) (first stop : Int64)
    (body : List Statement) (scene : Scene α) :
    let looped := (Statement.loop counter first stop body).run retreat scene
    let rounds := (stop.toInt - first.toInt).toNat
    let plain := runAll retreat (unrolled body rounds) scene
    let called := body.filterMap Statement.called?
    (first < stop ∧ stop.toInt - first.toInt ≤ 100 →
      looped.1.world = plain.1.world ∧ looped.1.bindings = plain.1.bindings ∧
        looped.2.issues = plain.2.issues ∧ looped.2.events = plain.2.events ∧
        looped.1.techniques =
          { plain.1.techniques with
            usedLoop := plain.1.techniques.usedLoop || !called.isEmpty
            loopedActions := plain.1.techniques.loopedActions.union (.ofList called) } ∧
        looped.2.trace =
          ("Executing for loop with " ++ counter ++ " from " ++ toString first ++ " to " ++
              toString (stop - 1)) ::
            (List.range rounds).flatMap fun (k : Nat) =>
              ("Loop iteration: " ++ counter ++ " = " ++ toString (first.toInt + k)) ::
                copyTrace retreat body scene k) ∧
      (stop ≤ first ∨ 100 < stop.toInt - first.toInt →
        looped.1 = scene ∧ looped.2.events = [] ∧ looped.2.trace.length = 1) := by
  intro looped rounds plain called
  constructor
  · intro hbounds
    have hentry := Loop.entry_eq_entered_iff.mpr hbounds
    have hlooped : looped = _ := run_loop_of_entered body hentry scene
    rw [hlooped]
    exact ⟨rfl, rfl, rfl, rfl, rfl, rfl⟩
  · intro hbounds
    have hentry : Loop.entry first stop ≠ .entered := by
      intro hentered
      obtain ⟨hlt, hshort⟩ := Loop.entry_eq_entered_iff.mp hentered
      rcases hbounds with hempty | hlong
      · exact Int64.not_lt.mpr hempty hlt
      · exact Int.not_le.mpr hlong hshort
    obtain ⟨output, hlooped, hevents, htrace⟩ :=
      run_loop_of_not_entered retreat counter body hentry scene
    have hlooped : looped = (scene, output) := hlooped
    rw [hlooped]
    exact ⟨rfl, hevents, htrace⟩

/-- A scene in which nothing has been done yet. -/
def untouched : Scene Float :=
  ⟨.initial Catalog.Builtin.freeRoamLevel .standard, .empty, .none⟩

/-- A jump, and a loop of two shots. -/
def jumpAndShoot : List Statement :=
  [.act .jump none, .loop "j" 0 2 [.act .shoot none]]

/-- Three rounds with a loop inside: the loop outside notes the jump, which the copies do not. -/
theorem run_loop_eq_unrolled_nested :
    let looped := (Statement.loop "i" (-1) 2 jumpAndShoot).run none untouched
    let plain := runAll none (unrolled jumpAndShoot 3) untouched
    let backwards := (Statement.loop "i" 2 (-1) jumpAndShoot).run none untouched
    ((-1 : Int64) < 2 ∧ (2 : Int64).toInt - (-1 : Int64).toInt ≤ 100) ∧
      looped.1.world = plain.1.world ∧ looped.2.events = plain.2.events ∧
      .jump ∈ looped.1.techniques.loopedActions ∧ .jump ∉ plain.1.techniques.loopedActions ∧
      ((-1 : Int64) ≤ 2 ∧ backwards.1 = untouched ∧ backwards.2.trace.length = 1) := by
  intro looped plain backwards
  have hbounds : (-1 : Int64) < 2 ∧ (2 : Int64).toInt - (-1 : Int64).toInt ≤ 100 := by decide
  have hempty : (-1 : Int64) ≤ 2 := by decide
  obtain ⟨hworld, -, -, hevents, htechniques, -⟩ :=
    (run_loop_eq_unrolled none "i" (-1) 2 jumpAndShoot untouched).1 hbounds
  obtain ⟨hscene, -, htrace⟩ :=
    (run_loop_eq_unrolled none "i" 2 (-1) jumpAndShoot untouched).2 (.inl hempty)
  have hnoted : .jump ∈ looped.1.techniques.loopedActions := by
    rw [htechniques]
    exact ActionSet.mem_union.mpr (.inr (by decide))
  have hunnoted : .jump ∉ plain.1.techniques.loopedActions := by decide
  exact ⟨hbounds, hworld, hevents, hnoted, hunnoted, hempty, hscene, htrace⟩

end Script

end Playscript
