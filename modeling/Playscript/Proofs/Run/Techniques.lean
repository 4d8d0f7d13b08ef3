import Playscript.Proofs.Run.Licence
import Playscript.Run.Completion
/-! The techniques that a run notes. What is noted agrees with what has happened and with itself,
and nothing of it is ever taken back. A loop and a condition are noted when they are reached, before
the actions in their blocks are performed; until then these actions are due. -/
namespace Playscript

variable {α : Type}

/-- The action whose performance an event tells of. -/
def Event.action? : Event α → Option Action
  | .moved action .. => some action
  | .jumped .. => some .jump
  | .shot .. => some .shoot
  | .speedChanged _ => some .setSpeed
  | _ => none

/-- One of the events tells that an action has been performed. -/
def Performed (events : List (Event α)) (action : Action) : Prop :=
  ∃ e ∈ events, e.action? = some action

theorem performed_append {a b : List (Event α)} {action : Action} :
    Performed (a ++ b) action ↔ Performed a action ∨ Performed b action := by
  simp only [Performed, List.mem_append, or_and_right, exists_or]

theorem performed_singleton {e : Event α} {action : Action} :
    Performed [e] action ↔ e.action? = some action := by
  simp only [Performed, List.mem_singleton, exists_eq_left]

theorem not_performed {events : List (Event α)} (h : ∀ e ∈ events, e.action? = none)
    (action : Action) : ¬ Performed events action := by
  rintro ⟨e, he, haction⟩
  cases (h e he).symm.trans haction

theorem not_performed_nil (action : Action) : ¬ Performed ([] : List (Event α)) action := by
  rintro ⟨e, he, -⟩
  cases he

/-! ## Growth -/

/-- All that the first techniques note, the second note as well. -/
structure Techniques.Grow (t u : Techniques) : Prop where
  invoked : ∀ a ∈ t.invoked, a ∈ u.invoked
  speedFromVariable : t.speedFromVariable = true → u.speedFromVariable = true
  conditionalTaken : t.conditionalTaken = true → u.conditionalTaken = true
  retreatHandled : t.retreatHandled = true → u.retreatHandled = true
  usedLoop : t.usedLoop = true → u.usedLoop = true
  loopedActions : ∀ a ∈ t.loopedActions, a ∈ u.loopedActions

namespace Techniques

theorem Grow.refl (t : Techniques) : t.Grow t :=
  ⟨fun _ h => h, id, id, id, id, fun _ h => h⟩

theorem Grow.trans {t u v : Techniques} (h : t.Grow u) (h' : u.Grow v) : t.Grow v where
  invoked := fun a ha => h'.invoked a (h.invoked a ha)
  speedFromVariable := h'.speedFromVariable ∘ h.speedFromVariable
  conditionalTaken := h'.conditionalTaken ∘ h.conditionalTaken
  retreatHandled := h'.retreatHandled ∘ h.retreatHandled
  usedLoop := h'.usedLoop ∘ h.usedLoop
  loopedActions := fun a ha => h'.loopedActions a (h.loopedActions a ha)

theorem grow_invoke (t : Techniques) (action : Action) : t.Grow (Script.invoke action t) :=
  ⟨fun _ h => ActionSet.mem_insert.mpr (.inr h), id, id, id, id, fun _ h => h⟩

end Techniques

/-- From one scene to the next, techniques are only added to, and when all targets are hit they
stay so. -/
structure Scene.Progress (before after : Scene α) : Prop where
  techniques : before.techniques.Grow after.techniques
  targets : before.world.allTargetsHit = true → after.world.allTargetsHit = true

theorem Scene.Progress.refl (scene : Scene α) : scene.Progress scene :=
  ⟨.refl _, id⟩

theorem Scene.Progress.trans {a b c : Scene α} (h : a.Progress b) (h' : b.Progress c) :
    a.Progress c :=
  ⟨h.techniques.trans h'.techniques, h'.targets ∘ h.targets⟩

/-- Once the requirement is met it stays met, as long as there is progress. -/
def Level.Requirement.isLasting : Level.Requirement α → Bool
  | .invoked _ | .speedFromVariable | .retreatHandled | .loopedAction _ | .allTargetsHit => true
  | .reachX _ | .inGoal => false

theorem Scene.Progress.isMet [Coordinate α] {before after : Scene α} (h : before.Progress after)
    {r : Level.Requirement α} (hlasting : r.isLasting = true)
    (hmet : r.isMet before.world before.techniques = true) :
    r.isMet after.world after.techniques = true := by
  cases r with
  | reachX _ | inGoal => cases hlasting
  | invoked action =>
      exact decide_eq_true (h.techniques.invoked action (of_decide_eq_true hmet))
  | speedFromVariable => exact h.techniques.speedFromVariable hmet
  | retreatHandled => exact h.techniques.retreatHandled hmet
  | loopedAction action =>
      exact decide_eq_true (h.techniques.loopedActions action (of_decide_eq_true hmet))
  | allTargetsHit => exact h.targets hmet

namespace Script

/-- The scene in which an if-block is run whose condition is true. -/
def taken (retreat : Option Action) (body : List Statement) (scene : Scene α) : Scene α :=
  { scene with techniques :=
      { scene.techniques with
        conditionalTaken := true
        retreatHandled := scene.techniques.retreatHandled ||
          retreat.any fun action => body.any fun s => s.calls action } }

/-- What a block under a condition makes of a scene. -/
theorem branch_scene (retreat : Option Action) (condition : String) (body : List Statement)
    (block : Effect α) (scene : Scene α) :
    (branch retreat condition body block scene).1 =
      if scene.world.condition? condition = some true then (block (taken retreat body scene)).1
      else scene := by
  unfold branch
  cases scene.world.condition? condition with
  | none => rfl
  | some value => cases value <;> rfl

theorem events_branch (retreat : Option Action) (condition : String) (body : List Statement)
    (block : Effect α) (scene : Scene α) :
    (branch retreat condition body block scene).2.events =
      if scene.world.condition? condition = some true then
        (block (taken retreat body scene)).2.events
      else [] := by
  unfold branch
  cases scene.world.condition? condition with
  | none => rfl
  | some value => cases value <;> rfl

/-- What it means to set the speed: either it fails and changes nothing, or the speed is changed to
one that a character may have, and it is noted whether the value comes from a variable. -/
theorem setSpeed_cases (argument : Option Argument) (scene : Scene α) :
    ((setSpeed argument scene).1 = scene ∧ (setSpeed argument scene).2.events = []) ∨
      ∃ value named,
        (setSpeed argument scene).1 =
          { scene with
            world := scene.world.withSpeed value
            techniques :=
              { invoke .setSpeed scene.techniques with
                speedFromVariable := scene.techniques.speedFromVariable || named } } ∧
        (setSpeed argument scene).2.events = [.speedChanged value] ∧ isSpeed value = true := by
  unfold setSpeed
  split
  · exact .inl ⟨rfl, rfl⟩
  · rename_i value _
    split
    · rename_i hspeed
      right
      split
      · refine ⟨value, true, ?_, rfl, hspeed⟩
        rw [Bool.or_true]
      · refine ⟨value, false, ?_, rfl, hspeed⟩
        rw [Bool.or_false]
        rfl
    · exact .inl ⟨rfl, rfl⟩

/-! ## Performed actions -/

/-- The actions that an effect notes as performed are those that its events tell of. -/
def Notes (a : Effect α) : Prop :=
  ∀ scene action, action ∈ (a scene).1.techniques.invoked ↔
    action ∈ scene.techniques.invoked ∨ Performed (a scene).2.events action

theorem Notes.andThen {a b : Effect α} (ha : Notes a) (hb : Notes b) : Notes (a.andThen b) := by
  intro scene action
  have hevents : (a.andThen b scene).2.events =
      (a scene).2.events ++ (b (a scene).1).2.events := rfl
  rw [hevents, performed_append, ← or_assoc, ← ha scene action]
  exact hb (a scene).1 action

theorem Notes.of_silent {a : Effect α}
    (hinvoked : ∀ scene, (a scene).1.techniques.invoked = scene.techniques.invoked)
    (hevents : ∀ scene, ∀ e ∈ (a scene).2.events, e.action? = none) : Notes a := by
  intro scene action
  rw [hinvoked, or_iff_left (not_performed (hevents scene) action)]

theorem Notes.of_action {a : Effect α} {action : Action}
    (hinvoked : ∀ scene, (a scene).1.techniques = invoke action scene.techniques)
    (hevents : ∀ scene, ∃ e, (a scene).2.events = [e] ∧ e.action? = some action) : Notes a := by
  intro scene other
  obtain ⟨e, hevent, haction⟩ := hevents scene
  rw [hinvoked, hevent, performed_singleton, haction, Option.some.injEq, invoke,
    ActionSet.mem_insert, or_comm, eq_comm]

theorem notes_setSpeed (argument : Option Argument) : Notes (setSpeed argument : Effect α) := by
  intro scene action
  rcases setSpeed_cases argument scene with
    ⟨hscene, hevents⟩ | ⟨value, named, hscene, hevents, -⟩
  · rw [hscene, hevents, or_iff_left (not_performed_nil action)]
  · rw [hscene, hevents, performed_singleton]
    simp only [invoke, ActionSet.mem_insert, Event.action?, Option.some.injEq]
    rw [or_comm, eq_comm]

theorem notes_branch (retreat : Option Action) (condition : String) (body : List Statement)
    {block : Effect α} (hblock : Notes block) : Notes (branch retreat condition body block) := by
  intro scene action
  rw [branch_scene, events_branch]
  split
  · exact hblock (taken retreat body scene) action
  · rw [or_iff_left (not_performed_nil action)]

variable [Coordinate α]

theorem notes_perform (action : Action) (argument : Option Argument) :
    Notes (perform action argument : Effect α) := by
  cases action with
  | setSpeed => exact notes_setSpeed argument
  | moveLeft | moveRight | moveBack | jump | shoot =>
      exact .of_action (fun _ => rfl) fun _ => ⟨_, rfl, rfl⟩

theorem notes_law (retreat : Option Action) : StatementLaw (α := α) retreat Notes where
  skip := .of_silent (fun _ => rfl) fun _ => nofun
  andThen := .andThen
  line := fun _ => .of_silent (fun _ => rfl) fun _ => nofun
  issue := fun _ => .of_silent (fun _ => rfl) fun _ => nofun
  assign := fun _ _ => .of_silent (fun _ => rfl) fun _ => List.forall_mem_singleton.mpr rfl
  perform := notes_perform
  branch := fun condition body _ => notes_branch retreat condition body
  openLoop := fun _ _ _ _ => .of_silent (fun _ => rfl) fun _ => nofun

/-! ## Progress -/

omit [Coordinate α] in
theorem hitFirst_of_all {targets : List (Target α)} (h : targets.all Target.hit = true) :
    World.hitFirst targets = none := by
  induction targets with
  | nil => rfl
  | cons t rest ih =>
      rw [List.all_cons, Bool.and_eq_true] at h
      rw [World.hitFirst, h.1, Bool.not_true, Bool.and_false, if_neg Bool.false_ne_true, ih h.2]
      rfl

def Advancing (a : Effect α) : Prop :=
  ∀ scene : Scene α, scene.Progress (a scene).1

omit [Coordinate α] in
theorem advancing_setSpeed (argument : Option Argument) :
    Advancing (setSpeed argument : Effect α) := by
  intro scene
  rcases setSpeed_cases argument scene with ⟨hscene, -⟩ | ⟨value, named, hscene, -⟩
  · rw [hscene]
    exact .refl scene
  · rw [hscene]
    refine ⟨?_, id⟩
    have hnoted := scene.techniques.grow_invoke .setSpeed
    refine ⟨hnoted.invoked, ?_, id, id, id, hnoted.loopedActions⟩
    intro hspeed
    exact Bool.or_eq_true_iff.mpr (.inl hspeed)

omit [Coordinate α] in
theorem advancing_shoot : Advancing (shoot : Effect α) := by
  intro scene
  refine ⟨scene.techniques.grow_invoke .shoot, ?_⟩
  intro hall
  have hmissed : scene.world.shoot = (none, scene.world) := by
    rw [World.shoot, hitFirst_of_all hall]
  rw [shoot, hmissed]
  exact hall

theorem advancing_perform (action : Action) (argument : Option Argument) :
    Advancing (perform action argument : Effect α) := by
  cases action with
  | setSpeed => exact advancing_setSpeed argument
  | shoot => exact advancing_shoot
  | moveLeft | moveRight | moveBack | jump =>
      exact fun scene => ⟨scene.techniques.grow_invoke _, id⟩

omit [Coordinate α] in
theorem progress_taken (retreat : Option Action) (body : List Statement) (scene : Scene α) :
    scene.Progress (taken retreat body scene) := by
  refine ⟨⟨fun _ h => h, id, fun _ => rfl, ?_, id, fun _ h => h⟩, id⟩
  intro hhandled
  exact Bool.or_eq_true_iff.mpr (.inl hhandled)

omit [Coordinate α] in
theorem advancing_branch (retreat : Option Action) (condition : String) (body : List Statement)
    {block : Effect α} (hblock : Advancing block) :
    Advancing (branch retreat condition body block) := by
  intro scene
  rw [branch_scene]
  split
  · exact (progress_taken retreat body scene).trans (hblock _)
  · exact .refl scene

omit [Coordinate α] in
theorem advancing_openLoop (counter : String) (first stop : Int64) (body : List Statement) :
    Advancing (openLoop counter first stop body : Effect α) := by
  intro scene
  refine ⟨⟨fun _ h => h, id, id, id, ?_, ?_⟩, id⟩
  · intro hused
    exact Bool.or_eq_true_iff.mpr (.inl hused)
  · intro a ha
    exact ActionSet.mem_union.mpr (.inl ha)

theorem advancing_law (retreat : Option Action) : StatementLaw (α := α) retreat Advancing where
  skip := .refl
  andThen := fun ha hb scene => (ha scene).trans (hb _)
  line := fun _ => .refl
  issue := fun _ => .refl
  assign := fun _ _ _ => ⟨.refl _, id⟩
  perform := advancing_perform
  branch := fun condition body _ => advancing_branch retreat condition body
  openLoop := advancing_openLoop

/-! ## Allowed actions -/

/-- Techniques note allowed actions only. -/
structure Within (allowed : ActionSet) (t : Techniques) : Prop where
  invoked : ∀ a ∈ t.invoked, a ∈ allowed
  loopedActions : ∀ a ∈ t.loopedActions, a ∈ allowed

/-- To call allowed actions only. -/
def Licence.calling (allowed : ActionSet) : Licence :=
  ⟨fun action => action ∈ allowed, fun _ => True⟩

def StaysWithin (allowed : ActionSet) (a : Effect α) : Prop :=
  ∀ scene, Within allowed scene.techniques → Within allowed (a scene).1.techniques

omit [Coordinate α] in
theorem Within.invoke {allowed : ActionSet} {t : Techniques} (h : Within allowed t)
    {action : Action} (haction : action ∈ allowed) : Within allowed (invoke action t) := by
  refine ⟨?_, h.loopedActions⟩
  intro a ha
  rcases ActionSet.mem_insert.mp ha with rfl | hold
  · exact haction
  · exact h.invoked a hold

theorem staysWithin_perform {allowed : ActionSet} {action : Action} (haction : action ∈ allowed)
    (argument : Option Argument) : StaysWithin allowed (perform action argument : Effect α) := by
  cases action with
  | moveLeft | moveRight | moveBack | jump | shoot => exact fun _ h => h.invoke haction
  | setSpeed =>
      intro scene h
      rcases setSpeed_cases argument scene with ⟨hscene, -⟩ | ⟨value, named, hscene, -⟩
      · rw [perform, hscene]
        exact h
      · rw [perform, hscene]
        exact ⟨(h.invoke haction).invoked, (h.invoke haction).loopedActions⟩

omit [Coordinate α] in
theorem staysWithin_openLoop {allowed : ActionSet} {body : List Statement}
    (hbody : AllKeep (.calling allowed) body) (counter : String) (first stop : Int64) :
    StaysWithin allowed (openLoop counter first stop body : Effect α) := by
  intro scene h
  refine ⟨h.invoked, ?_⟩
  intro a ha
  rcases ActionSet.mem_union.mp ha with hold | hnew
  · exact h.loopedActions a hold
  · exact hbody.called (ActionSet.mem_ofList.mp hnew)

theorem staysWithin_law (allowed : ActionSet) (retreat : Option Action) :
    LicensedLaw (α := α) (.calling allowed) retreat (StaysWithin allowed) where
  skip := fun _ h => h
  andThen := fun ha hb scene h => hb _ (ha scene h)
  line := fun _ _ h => h
  issue := fun _ _ h => h
  assign := fun _ _ _ h => h
  perform := fun argument haction => staysWithin_perform haction argument
  branch := by
    intro condition body block _ _ hblock scene h
    rw [branch_scene]
    split
    · exact hblock _ ⟨h.invoked, h.loopedActions⟩
    · exact h
  openLoop := fun counter first stop _ hbody => staysWithin_openLoop hbody counter first stop

/-! ## The enemy -/

/-- An effect that leaves the enemy alone. -/
def SparesEnemy (a : Effect α) : Prop :=
  ∀ scene, (a scene).1.world.enemy = scene.world.enemy

theorem enemy_law (retreat : Option Action) : StatementLaw (α := α) retreat SparesEnemy where
  skip := fun _ => rfl
  andThen := fun ha hb scene => (hb _).trans (ha scene)
  line := fun _ _ => rfl
  issue := fun _ _ => rfl
  assign := fun _ _ _ => rfl
  perform := by
    intro action argument scene
    cases action with
    | moveLeft | moveRight | moveBack | jump => rfl
    | shoot =>
        simp only [perform, shoot, World.shoot]
        split <;> rfl
    | setSpeed =>
        rcases setSpeed_cases argument scene with ⟨hscene, -⟩ | ⟨value, named, hscene, -⟩
        · rw [perform, hscene]
        · rw [perform, hscene]
          rfl
  branch := by
    intro condition body block hblock scene
    rw [branch_scene]
    split
    · exact hblock _
    · rfl
  openLoop := fun _ _ _ _ _ => rfl

end Script

end Playscript
