import Playscript.Proofs.Run.Coherence
import Playscript.Proofs.Session.Attempt
import Playscript.Proofs.Session.Replay
import Playscript.Proofs.Session.Story
/-! The techniques of an attempt. Between any two operations they agree with each other and with what
has been heard since the last reset, and until the next reset they are only added to. -/
namespace Playscript.Session

open Script (Coherent Within Licence)

variable {α : Type}

/-- A session whose techniques are coherent and within the level, and whose active run, if there is
one, calls allowed actions only. -/
structure Sound (stage : Stage α) (s : Session α) : Prop where
  stage_eq : s.stage = stage
  coherent : Coherent stage.level.retreat [] s.scene
  within : Within stage.level.allowed s.scene.techniques
  calls : ∀ run, s.active = some run →
    run.execution.Keeps (Licence.calling stage.level.allowed)
  enemy : s.scene.world.enemy.isSome = stage.level.enemy.isSome

theorem coherent_initialScene (stage : Stage α) (retreat : Option Action) :
    Coherent retreat [] (initialScene stage) where
  usedLoop := ⟨nofun, fun ⟨a, ha⟩ => absurd ha (ActionSet.not_mem_empty a)⟩
  looped := fun a ha => absurd ha (ActionSet.not_mem_empty a)
  speed := nofun
  handled := nofun

theorem within_initialScene (stage : Stage α) (allowed : ActionSet) :
    Within allowed (initialScene stage).techniques :=
  ⟨fun a ha => absurd ha (ActionSet.not_mem_empty a),
    fun a ha => absurd ha (ActionSet.not_mem_empty a)⟩

theorem enemy_initialScene (stage : Stage α) :
    (initialScene stage).world.enemy.isSome = stage.level.enemy.isSome :=
  Option.isSome_map

theorem sound_start (stage : Stage α) (settings : Settings) :
    Sound stage (start stage settings) where
  stage_eq := rfl
  coherent := coherent_initialScene stage _
  within := within_initialScene stage _
  calls := nofun
  enemy := enemy_initialScene stage

/-- The clock touches no target, and neither brings nor takes an enemy. -/
theorem enemyMoves_world (w : World α) (places : List Proximity) :
    (enemyMoves w places).2.targets = w.targets ∧
      (enemyMoves w places).2.enemy.isSome = w.enemy.isSome := by
  have hsame := withNear_enemyMoves w places false
  have htargets := congrArg World.targets hsame
  have henemy := congrArg (fun world => world.enemy.isSome) hsame
  simp only [Picture.withNear, Option.isSome_map] at htargets henemy
  exact ⟨htargets, henemy⟩

theorem action_enemyMoves (w : World α) (places : List Proximity) :
    ∀ e ∈ (enemyMoves w places).1, e.action? = none := by
  intro e he
  obtain ⟨near, rfl⟩ := mem_enemyMoves he
  rfl

variable [Coordinate α] {stage : Stage α} {s : Session α}

/-- An obstacle moves the character and touches nothing else. -/
theorem penalty_eq (scene : Scene α) :
    ∃ x, (penalty scene).1 = { scene with world := scene.world.withX x } := by
  unfold penalty
  split <;> exact ⟨_, rfl⟩

theorem penalty_scene (scene : Scene α) :
    (penalty scene).1.techniques = scene.techniques ∧
      (penalty scene).1.world.targets = scene.world.targets ∧
      (penalty scene).1.world.enemy = scene.world.enemy := by
  obtain ⟨x, hscene⟩ := penalty_eq scene
  rw [hscene]
  exact ⟨rfl, rfl, rfl⟩

/-- A run moves no enemy. -/
theorem enemy_stepped (s : Session α) (run : ActiveRun α) :
    (s.stepped run).scene.world.enemy = s.scene.world.enemy := by
  have hpacing (i : Int64) :
      Script.SparesEnemy (.tell (.event (.pacing i s.settings.pacing)) : Effect α) := fun _ => rfl
  exact (Script.enemy_law s.stage.level.retreat).step hpacing run.execution s.scene

theorem Sound.stepOn (h : Sound stage s) {run : ActiveRun α} (hactive : s.active = some run) :
    Sound stage (s.stepOn run) := by
  obtain ⟨rfl, hcoherent, hwithin, hcalls, henemy⟩ := h
  have hadvances := Script.advances_step run.execution s.stage.level.retreat s.settings.pacing
    s.scene
  have hkeeps := hcalls run hactive
  refine ⟨rfl, ?_, ?_, ?_, ?_⟩
  · exact Script.coherent_of_advances hadvances (hcoherent.settled _)
  · exact (Script.staysWithin_law s.stage.level.allowed s.stage.level.retreat).step
      (fun _ _ h => h) hkeeps s.scene hwithin
  · intro later hlater
    cases hlater
    exact Script.keeps_of_advances hadvances hkeeps
  · exact (congrArg Option.isSome (enemy_stepped s run)).trans henemy

theorem Sound.settled (h : Sound stage s) : Sound stage s.settled := by
  obtain ⟨htechniques, -, henemy⟩ := penalty_scene s.scene
  refine ⟨h.stage_eq, ?_, ?_, nofun, ?_⟩
  · exact h.coherent.congr htechniques (congrArg Option.isSome henemy)
  · change Within _ (penalty s.scene).1.techniques
    rw [htechniques]
    exact h.within
  · exact (congrArg Option.isSome henemy).trans h.enemy

theorem sound_law (stage : Stage α) : SessionLaw (Sound stage) where
  begin := by
    intro s source _ h
    obtain ⟨rfl, hcoherent, hwithin, -, henemy⟩ := h
    refine ⟨rfl, hcoherent, hwithin, ?_, henemy⟩
    intro run hrun
    cases hrun
    exact (Script.allKeep_recognize (fun _ ha => ha) fun _ _ => trivial).start
  pause := fun hactive _ h => h.stepOn hactive
  finish := by
    intro s run hactive _ h
    have hsettled := (h.stepOn hactive).settled
    exact ⟨hsettled.stage_eq, hsettled.coherent, hsettled.within, nofun, hsettled.enemy⟩
  cancel := fun h => ⟨h.stage_eq, h.coherent, h.within, nofun, h.enemy⟩
  reset := by
    intro s h
    obtain ⟨rfl, -, -, -, -⟩ := h
    exact ⟨rfl, coherent_initialScene s.stage _, within_initialScene s.stage _, nofun,
      enemy_initialScene s.stage⟩
  clock := by
    intro s schedule elapsed coin hschedule h
    rw [advanceClock_of_schedule hschedule]
    have henemy := (enemyMoves_world s.scene.world (schedule.advance elapsed coin).1).2
    exact ⟨h.stage_eq, h.coherent.congr rfl henemy, h.within, h.calls, henemy.trans h.enemy⟩
  listeners := fun _ h => ⟨h.stage_eq, h.coherent, h.within, h.calls, h.enemy⟩

/-! ## What has been heard -/

theorem action_ending (s : Session α) : ∀ e ∈ s.ending.events, e.action? = none := by
  intro e he
  rcases mem_ending he with ⟨index, rfl⟩ | rfl | ⟨done, rfl⟩ <;> rfl

/-- The actions that are noted as performed are those that were noted before and those that have been
heard of meanwhile. -/
def Hears (s : Session α) (events : List (Event α)) (after : Session α) : Prop :=
  ∀ action, action ∈ after.scene.techniques.invoked ↔
    action ∈ s.scene.techniques.invoked ∨ Performed events action

omit [Coordinate α] in
theorem Hears.of_other {after : Session α} {events : List (Event α)}
    (hscene : after.scene.techniques = s.scene.techniques)
    (hevents : ∀ e ∈ events, e.action? = none) : Hears s events after := by
  intro action
  rw [hscene, or_iff_left (not_performed hevents action)]

omit [Coordinate α] in
theorem Hears.of_silent {after : Session α}
    (hscene : after.scene.techniques = s.scene.techniques) : Hears s [] after := by
  intro action
  rw [hscene, or_iff_left (not_performed_nil action)]

theorem hears_law : StoryLaw (α := α) Hears where
  rest := fun _ => .of_silent rfl
  andThen := by
    intro s middle last a b hfirst hsecond action
    rw [performed_append, ← or_assoc, ← hfirst action]
    exact hsecond action
  begin := fun _ _ => .of_other rfl (List.forall_mem_singleton.mpr rfl)
  step := by
    intro s run _
    have hpacing (i : Int64) :
        Script.Notes (.tell (.event (.pacing i s.settings.pacing)) : Effect α) :=
      .of_silent (fun _ => rfl) fun _ => List.forall_mem_singleton.mpr rfl
    exact (Script.notes_law s.stage.level.retreat).step hpacing run.execution s.scene
  settle := fun _ => .of_other (penalty_scene _).1 (action_ending _)
  cancel := fun _ => .of_silent rfl
  clock := by
    intro s schedule elapsed coin hschedule
    rw [advanceClock_of_schedule hschedule]
    exact .of_other rfl (action_enemyMoves s.scene.world _)
  listeners := fun _ _ => .of_silent rfl

theorem progress_law : StoryLaw (α := α) fun s _ after => s.scene.Progress after.scene where
  rest := fun s => .refl s.scene
  andThen := fun hfirst hsecond => hfirst.trans hsecond
  begin := fun {s} _ _ => .refl s.scene
  step := by
    intro s run _
    have hpacing (i : Int64) :
        Script.Advancing (.tell (.event (.pacing i s.settings.pacing)) : Effect α) := .refl
    exact (Script.advancing_law s.stage.level.retreat).step hpacing run.execution s.scene
  settle := by
    intro s run _
    obtain ⟨htechniques, htargets, -⟩ := penalty_scene s.scene
    refine ⟨?_, ?_⟩
    · change s.scene.techniques.Grow (penalty s.scene).1.techniques
      rw [htechniques]
      exact .refl _
    · intro hall
      change (penalty s.scene).1.world.targets.all Target.hit = true
      rwa [htargets]
  cancel := fun s => .refl s.scene
  clock := by
    intro s schedule elapsed coin hschedule
    rw [advanceClock_of_schedule hschedule]
    refine ⟨.refl _, ?_⟩
    intro hall
    change (enemyMoves s.scene.world _).2.targets.all Target.hit = true
    rwa [(enemyMoves_world s.scene.world _).1]
  listeners := fun s _ => .refl s.scene

/-- Since the last reset just those actions have been noted as performed that were heard of. -/
theorem invoked_iff_performed (stage : Stage α) (settings : Settings) (ops : List Operation)
    (action : Action) :
    action ∈ ((start stage settings).performAll ops).2.scene.techniques.invoked ↔
      Performed ((sinceReset ((start stage settings).history ops)).flatMap Entry.published)
        action := by
  have hsilent : Hears (start stage settings)
      ((sinceReset ([] : List (Entry α))).flatMap Entry.published) (start stage settings) :=
    hears_law.rest _
  obtain ⟨fresh, hfresh, hheard⟩ := hears_law.sinceReset
    (fun s => s.scene.techniques = .none) (fun _ => rfl) rfl hsilent ops
  have hnone : action ∉ Techniques.none.invoked := ActionSet.not_mem_empty action
  rw [List.nil_append] at hheard
  rw [hheard action, hfresh, or_iff_right hnone]

/-- Whatever is done in a session, between operations its techniques are these: performed are just
the actions that were heard of since the last reset; these and the looped ones are allowed; a loop
was used when actions were looped; whatever was looped, and a retreat that was handled, was
performed, unless it was to set the speed, which can fail; and a speed taken from a variable was set.
Until the next reset all this is only added to, so that a requirement on it stays met. -/
theorem techniques_coherent (stage : Stage α) (settings : Settings) (ops : List Operation) :
    let s := ((start stage settings).performAll ops).2
    let heard := (sinceReset ((start stage settings).history ops)).flatMap Entry.published
    let t := s.scene.techniques
    (∀ a, a ∈ t.invoked ↔ Performed heard a) ∧
      (∀ a ∈ t.invoked, a ∈ stage.level.allowed) ∧
      (∀ a ∈ t.loopedActions, a ∈ stage.level.allowed) ∧
      (t.usedLoop = true ↔ ∃ a, a ∈ t.loopedActions) ∧
      (∀ a ∈ t.loopedActions, a ≠ .setSpeed → a ∈ t.invoked) ∧
      (t.speedFromVariable = true → .setSpeed ∈ t.invoked) ∧
      (t.retreatHandled = true →
        t.conditionalTaken = true ∧ stage.level.enemy.isSome = true ∧
          ∃ a, stage.level.retreat = some a ∧ (a ≠ .setSpeed → a ∈ t.invoked)) ∧
      ∀ later, (∀ op ∈ later, op.isReset = false) →
        let after := (s.performAll later).2
        t.Grow after.scene.techniques ∧
          ∀ r : Level.Requirement α, r.isLasting = true →
            r.isMet s.scene.world t = true →
              r.isMet after.scene.world after.scene.techniques = true := by
  intro s heard t
  have sound : Sound stage s := (sound_law stage).performAll ops (sound_start stage settings)
  have hdue {a : Action} (h : Script.Due [] t a) (ha : a ≠ .setSpeed) : a ∈ t.invoked := by
    rcases h with hspeed | hinvoked | ⟨_, hnone, _⟩
    · exact absurd hspeed ha
    · exact hinvoked
    · cases hnone
  refine ⟨invoked_iff_performed stage settings ops, sound.within.invoked,
    sound.within.loopedActions, sound.coherent.usedLoop, ?_, sound.coherent.speed, ?_, ?_⟩
  · intro a ha
    exact hdue (sound.coherent.looped a ha)
  · intro hhandled
    obtain ⟨htaken, henemy, a, hretreat, ha⟩ := sound.coherent.handled hhandled
    exact ⟨htaken, sound.enemy.symm.trans henemy, a, hretreat, hdue ha⟩
  · intro later hresets after
    have progress : s.scene.Progress after.scene := progress_law.history hresets
    exact ⟨progress.techniques, fun r hlasting => progress.isMet hlasting⟩

end Playscript.Session
