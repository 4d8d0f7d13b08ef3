import Playscript.Proofs.Run.Techniques
/-! The techniques that a run notes agree with each other. What a loop or a condition notes of the
actions in its block is true once the block has been run; before that, the block is pending. -/
namespace Playscript.Script

variable {α : Type}

/-- The action has been performed, or a pending statement calls it. To set the speed can fail, so
nothing is said of it. -/
def Due (pending : List Statement) (t : Techniques) (a : Action) : Prop :=
  a = .setSpeed ∨ a ∈ t.invoked ∨ ∃ s ∈ pending, s.called? = some a

/-- Techniques that agree with each other, once the pending statements have been run. -/
structure Coherent (retreat : Option Action) (pending : List Statement) (scene : Scene α) :
    Prop where
  usedLoop : scene.techniques.usedLoop = true ↔ ∃ a, a ∈ scene.techniques.loopedActions
  looped : ∀ a ∈ scene.techniques.loopedActions, Due pending scene.techniques a
  speed : scene.techniques.speedFromVariable = true → .setSpeed ∈ scene.techniques.invoked
  handled : scene.techniques.retreatHandled = true →
    scene.techniques.conditionalTaken = true ∧ scene.world.enemy.isSome = true ∧
      ∃ a, retreat = some a ∧ Due pending scene.techniques a

theorem Due.more {pending : List Statement} {t : Techniques} {a : Action} (h : Due pending t a)
    (body : List Statement) : Due (body ++ pending) t a := by
  rcases h with hspeed | hinvoked | ⟨s, hs, hcalled⟩
  · exact .inl hspeed
  · exact .inr (.inl hinvoked)
  · exact .inr (.inr ⟨s, List.mem_append_right body hs, hcalled⟩)

theorem Due.of_body {pending body : List Statement} {t : Techniques} {a : Action} {s : Statement}
    (hs : s ∈ body) (hcalled : s.called? = some a) : Due (body ++ pending) t a :=
  .inr (.inr ⟨s, List.mem_append_left pending hs, hcalled⟩)

/-- What is due with a statement is called by it, or due without it. -/
theorem Due.called_or {pending : List Statement} {t : Techniques} {a : Action} {s : Statement}
    (h : Due (s :: pending) t a) : s.called? = some a ∨ Due pending t a := by
  rcases h with hspeed | hinvoked | ⟨u, hu, hcalled⟩
  · exact .inr (.inl hspeed)
  · exact .inr (.inr (.inl hinvoked))
  · rcases List.mem_cons.mp hu with rfl | hlater
    · exact .inl hcalled
    · exact .inr (.inr (.inr ⟨u, hlater, hcalled⟩))

theorem Due.drop {pending : List Statement} {t : Techniques} {a : Action} {s : Statement}
    (h : Due (s :: pending) t a) (hs : s.called? = none) : Due pending t a := by
  rcases h.called_or with hcalled | hdue
  · cases hs.symm.trans hcalled
  · exact hdue

/-- To set the speed is never due. -/
theorem Due.drop_setSpeed {pending : List Statement} {t : Techniques} {a : Action}
    {argument : Option Argument} (h : Due (.act .setSpeed argument :: pending) t a) :
    Due pending t a := by
  rcases h.called_or with hcalled | hdue
  · cases hcalled
    exact .inl rfl
  · exact hdue

/-- A call is no longer due once its action has been performed. -/
theorem Due.invoke {pending : List Statement} {t : Techniques} {a action : Action}
    {argument : Option Argument} (h : Due (.act action argument :: pending) t a) :
    Due pending (invoke action t) a := by
  rcases h.called_or with hcalled | hspeed | hinvoked | hpending
  · cases hcalled
    exact .inr (.inl (ActionSet.mem_insert.mpr (.inl rfl)))
  · exact .inl hspeed
  · exact .inr (.inl (ActionSet.mem_insert.mpr (.inr hinvoked)))
  · exact .inr (.inr hpending)

namespace Coherent

variable {retreat : Option Action} {pending : List Statement} {scene : Scene α}

theorem imp {pending' : List Statement} (h : Coherent retreat pending scene)
    (hdue : ∀ a, Due pending scene.techniques a → Due pending' scene.techniques a) :
    Coherent retreat pending' scene where
  usedLoop := h.usedLoop
  looped := fun a ha => hdue a (h.looped a ha)
  speed := h.speed
  handled := by
    intro hhandled
    obtain ⟨htaken, henemy, a, hretreat, ha⟩ := h.handled hhandled
    exact ⟨htaken, henemy, a, hretreat, hdue a ha⟩

theorem more (h : Coherent retreat pending scene) (body : List Statement) :
    Coherent retreat (body ++ pending) scene :=
  h.imp fun _ ha => ha.more body

/-- Where nothing is pending, anything may be said to be. -/
theorem settled (h : Coherent retreat [] scene) (pending : List Statement) :
    Coherent retreat pending scene := by
  have hmore := h.more pending
  rwa [List.append_nil] at hmore

theorem congr {after : Scene α} (h : Coherent retreat pending scene)
    (htechniques : after.techniques = scene.techniques)
    (henemy : after.world.enemy.isSome = scene.world.enemy.isSome) :
    Coherent retreat pending after := by
  refine ⟨?_, ?_, ?_, ?_⟩
  · rw [htechniques]
    exact h.usedLoop
  · rw [htechniques]
    exact h.looped
  · rw [htechniques]
    exact h.speed
  · rw [htechniques, henemy]
    exact h.handled

theorem drop {s : Statement} (h : Coherent retreat (s :: pending) scene)
    (hs : s.called? = none) : Coherent retreat pending scene :=
  h.imp fun _ ha => ha.drop hs

/-- To perform an action keeps the techniques coherent; that a speed comes from a variable is noted
with the action of setting it only. -/
theorem invoke {action : Action} {argument : Option Argument}
    (h : Coherent retreat (.act action argument :: pending) scene) {after : Scene α} {flag : Bool}
    (henemy : after.world.enemy = scene.world.enemy)
    (htechniques : after.techniques =
      { invoke action scene.techniques with speedFromVariable := flag })
    (hflag : flag = true → scene.techniques.speedFromVariable = true ∨ action = .setSpeed) :
    Coherent retreat pending after where
  usedLoop := by
    rw [htechniques]
    exact h.usedLoop
  looped := by
    rw [htechniques]
    exact fun a ha => (h.looped a ha).invoke
  speed := by
    rw [htechniques]
    intro hspeed
    apply ActionSet.mem_insert.mpr
    rcases hflag hspeed with hbefore | hnow
    · exact .inr (h.speed hbefore)
    · exact .inl hnow.symm
  handled := by
    rw [htechniques, henemy]
    intro hhandled
    obtain ⟨htaken, hthere, a, hretreat, ha⟩ := h.handled hhandled
    exact ⟨htaken, hthere, a, hretreat, ha.invoke⟩

/-- A block under a true condition is pending before it is run. -/
theorem taken {condition : String} {body : List Statement}
    (h : Coherent retreat (.branch condition body :: pending) scene)
    (henemy : scene.world.enemy.isSome = true) :
    Coherent retreat (body ++ pending) (taken retreat body scene) where
  usedLoop := h.usedLoop
  looped := fun a ha => ((h.looped a ha).drop rfl).more body
  speed := h.speed
  handled := by
    intro hhandled
    rcases Bool.or_eq_true_iff.mp hhandled with hbefore | hnow
    · obtain ⟨-, -, a, hretreat, ha⟩ := h.handled hbefore
      exact ⟨rfl, henemy, a, hretreat, (ha.drop rfl).more body⟩
    · cases retreat with
      | none => cases hnow
      | some a =>
          obtain ⟨s, hs, hcalls⟩ := List.any_eq_true.mp hnow
          exact ⟨rfl, henemy, a, rfl, .of_body hs (eq_of_beq hcalls)⟩

/-- The body of a loop is pending before its first round. -/
theorem openLoop {counter : String} {first stop : Int64} {body : List Statement}
    (h : Coherent retreat (.loop counter first stop body :: pending) scene) :
    Coherent retreat (body ++ pending) (openLoop counter first stop body scene).1 where
  usedLoop := by
    have hcalled : (!(body.filterMap Statement.called?).isEmpty) = true ↔
        ∃ a, a ∈ body.filterMap Statement.called? := by
      rw [Bool.not_eq_true', List.isEmpty_eq_false_iff_exists_mem]
    simp only [Script.openLoop, ActionSet.mem_union, ActionSet.mem_ofList, exists_or]
    rw [Bool.or_eq_true, h.usedLoop, hcalled]
  looped := by
    intro a ha
    rcases ActionSet.mem_union.mp ha with hbefore | hnow
    · exact ((h.looped a hbefore).drop rfl).more body
    · obtain ⟨s, hs, hcalled⟩ := List.mem_filterMap.mp (ActionSet.mem_ofList.mp hnow)
      exact .of_body hs hcalled
  speed := h.speed
  handled := by
    intro hhandled
    obtain ⟨htaken, henemy, a, hretreat, ha⟩ := h.handled hhandled
    exact ⟨htaken, henemy, a, hretreat, (ha.drop rfl).more body⟩

end Coherent

/-! ## Statements -/

theorem isSome_of_condition? {w : World α} {condition : String} {value : Bool}
    (h : w.condition? condition = some value) : w.enemy.isSome = true := by
  unfold World.condition? at h
  split at h
  · obtain ⟨e, henemy, -⟩ := Option.map_eq_some_iff.mp h
    rw [henemy, Option.isSome_some]
  · cases h

variable [Coordinate α] {retreat : Option Action}

theorem coherent_act (action : Action) (argument : Option Argument) {pending : List Statement}
    {scene : Scene α} (h : Coherent retreat (.act action argument :: pending) scene) :
    Coherent retreat pending (perform action argument scene).1 := by
  cases action with
  | moveLeft | moveRight | moveBack | jump => exact h.invoke rfl rfl .inl
  | shoot =>
      refine h.invoke ?_ rfl .inl
      simp only [perform, shoot, World.shoot]
      split <;> rfl
  | setSpeed =>
      rcases setSpeed_cases argument scene with ⟨hscene, -⟩ | ⟨value, named, hscene, -⟩
      · rw [perform, hscene]
        exact h.imp fun _ ha => ha.drop_setSpeed
      · rw [perform, hscene]
        exact h.invoke rfl rfl fun _ => .inr rfl

omit [Coordinate α] in
/-- A block that settles what is pending in it, run round by round. -/
theorem coherent_rounds {body pending : List Statement} {block : Effect α}
    (hblock : ∀ {scene}, Coherent retreat (body ++ pending) scene →
      Coherent retreat pending (block scene).1)
    (counter : String) (rounds : List Int64) {scene : Scene α}
    (h : Coherent retreat pending scene) :
    Coherent retreat pending
      (Effect.all (rounds.map fun i => iterate counter i block) scene).1 := by
  induction rounds generalizing scene with
  | nil => exact h
  | cons i rest ih => exact ih (hblock (h.more body))

mutual

/-- A statement leaves coherent techniques when what is pending after it has been run. -/
theorem coherent_run : ∀ (s : Statement) {pending : List Statement} {scene : Scene α},
    Coherent retreat (s :: pending) scene → Coherent retreat pending (s.run retreat scene).1
  | .assign _ _, _, _, h => ⟨h.usedLoop, (h.drop rfl).looped, h.speed, (h.drop rfl).handled⟩
  | .act action argument, _, _, h => coherent_act action argument h
  | .branch condition body, pending, scene, h => by
      rw [Statement.run, branch_scene]
      split
      · rename_i hcondition
        exact coherent_runAll body (h.taken (isSome_of_condition? hcondition))
      · exact h.drop rfl
  | .loop counter first stop body, pending, scene, h => by
      rw [Statement.run]
      cases hentry : Loop.entry first stop with
      | tooLong => exact h.drop rfl
      | empty => exact h.drop rfl
      | entered =>
          -- there is a first round, and it settles what the opening of the loop has noted
          have hfirst := coherent_runAll body h.openLoop
          simp only [Loop.span_eq_cons (Loop.lt_of_entry hentry), List.map_cons]
          exact coherent_rounds (coherent_runAll body) counter (Loop.span (first + 1) stop) hfirst
  | .unrecognized .., _, _, h => h.drop rfl
  | .malformedLoop .., _, _, h => h.drop rfl

theorem coherent_runAll : ∀ (script : List Statement) {pending : List Statement}
    {scene : Scene α}, Coherent retreat (script ++ pending) scene →
      Coherent retreat pending (runAll retreat script scene).1
  | [], _, _, h => h
  | s :: rest, _, _, h => coherent_runAll rest (coherent_run s h)

end

/-! ## Steps -/

/-- The block that a script in progress has opened, but may not have run yet. -/
def Execution.opened (e : Execution) : List Statement :=
  e.active.elim [] Cursor.body

/-- A step leaves nothing pending: a loop that it opens has had its first round when it pauses. -/
theorem coherent_of_advances {delay : Duration} {e : Execution} {scene : Scene α}
    {stepped : Stepped α} (h : Advances retreat delay e scene stepped)
    (hcoherent : Coherent retreat e.opened scene) : Coherent retreat [] stepped.scene := by
  induction h with
  | done scene => exact hcoherent
  | @statement s rest scene later _ _ ih =>
      exact ih (coherent_run s (hcoherent.settled [s]))
  | @opened c rest scene later _ _ ih =>
      have hpending : Coherent retreat (c.body ++ []) (c.opening scene).1 :=
        (hcoherent.settled [c.statement]).openLoop
      rw [List.append_nil] at hpending
      exact ih hpending
  | @lastRound c rest scene later _ _ ih =>
      have hpending : Coherent retreat (c.body ++ []) scene := by
        rwa [List.append_nil]
      exact ih (coherent_runAll c.body hpending)
  | @paused c next rest scene _ =>
      have hpending : Coherent retreat (c.body ++ []) scene := by
        rwa [List.append_nil]
      exact coherent_runAll c.body hpending

end Playscript.Script
