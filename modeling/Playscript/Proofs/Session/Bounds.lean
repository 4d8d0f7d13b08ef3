import Mathlib.Algebra.Order.Ring.Rat
import Playscript.Catalog.Builtin
import Playscript.Proofs.Run.Bounds
import Playscript.Proofs.Session.Replay
import Playscript.Proofs.Session.Story
/-! The character within its bounds over a whole session. Scripts, obstacles, the clock and resets keep
it inside the playfield, on its line and at a speed that it may have, on every level of a catalog
without faults. -/
namespace Playscript.Session

open Exact

variable {α : Type} [Ring α] [LinearOrder α] [IsStrictOrderedRing α]

/-- A session on a stage with the character inside. -/
structure Confined (stage : Stage α) (s : Session α) : Prop where
  stage_eq : s.stage = stage
  inside : s.scene.world.Inside stage

/-- Once the character is inside it stays so, and nothing else is told of it. -/
def Confines (stage : Stage α) (s : Session α) (events : List (Event α))
    (after : Session α) : Prop :=
  Confined stage s → Confined stage after ∧ ∀ e ∈ events, e.Within stage

variable {stage : Stage α}

theorem inside_penalty {scene : Scene α} (h : scene.world.Inside stage) :
    (penalty scene).1.world.Inside stage := by
  unfold penalty
  split
  · exact h.withReach _
  · exact h

theorem inside_enemyMoves {w : World α} (h : w.Inside stage) (places : List Proximity) :
    (enemyMoves w places).2.Inside stage := by
  have hsame := withNear_enemyMoves w places false
  have hstart := congrArg World.start hsame
  have hplayfield := congrArg World.playfield hsame
  have hcharacter := congrArg World.character hsame
  exact h.congr hstart hplayfield hcharacter

theorem within_ending (s : Session α) : ∀ e ∈ s.ending.events, e.Within stage := by
  intro e he
  rcases mem_ending he with ⟨index, rfl⟩ | rfl | ⟨done, rfl⟩ <;> trivial

theorem within_enemyMoves (w : World α) (places : List Proximity) :
    ∀ e ∈ (enemyMoves w places).1, e.Within stage := by
  intro e he
  obtain ⟨near, rfl⟩ := mem_enemyMoves he
  trivial

theorem confines_law (hstage : stage.Proper) : HistoryLaw (Confines stage) where
  rest := fun _ h => ⟨h, List.forall_mem_nil _⟩
  andThen := by
    intro s middle last a b hfirst hsecond h
    obtain ⟨hmiddle, htold⟩ := hfirst h
    obtain ⟨hlast, hlater⟩ := hsecond hmiddle
    exact ⟨hlast, List.forall_mem_append.mpr ⟨htold, hlater⟩⟩
  begin := fun _ _ h => ⟨⟨h.stage_eq, h.inside⟩, List.forall_mem_singleton.mpr trivial⟩
  step := by
    intro s run _ h
    have hpacing (i : Int64) :
        Script.Confines stage (.tell (.event (.pacing i s.settings.pacing)) : Effect α) :=
      fun _ h => ⟨h, List.forall_mem_singleton.mpr trivial⟩
    obtain ⟨hinside, htold⟩ := (Script.confines_law hstage s.stage.level.retreat).step hpacing
      run.execution s.scene h.inside
    exact ⟨⟨h.stage_eq, hinside⟩, htold⟩
  settle := fun _ h => ⟨⟨h.stage_eq, inside_penalty h.inside⟩, within_ending _⟩
  cancel := fun _ h => ⟨⟨h.stage_eq, h.inside⟩, List.forall_mem_nil _⟩
  clock := by
    intro s schedule elapsed coin hschedule h
    rw [advanceClock_of_schedule hschedule]
    exact ⟨⟨h.stage_eq, inside_enemyMoves h.inside _⟩, within_enemyMoves _ _⟩
  listeners := fun _ _ h => ⟨⟨h.stage_eq, h.inside⟩, List.forall_mem_nil _⟩
  reset := by
    rintro s ⟨rfl, -⟩
    exact ⟨⟨rfl, .initial hstage⟩, List.forall_mem_singleton.mpr trivial⟩

theorem confined_start (hstage : stage.Proper) (settings : Settings) :
    Confined stage (start stage settings) :=
  ⟨rfl, .initial hstage⟩

/-- On every level of a catalog without faults, whatever is run and done there, the character is at
a legal speed, on the line where it started and with its whole width inside the playfield, so that the
ends between which it is kept are in order; moving back takes it just to the start; and everything
that has been told of it is within the same bounds. -/
theorem character_stays_inside {c : Catalog α} (hvalid : c.faults = []) {l : Level α}
    (hl : l ∈ c.levels) (settings : Settings) (ops : List Operation) :
    let stage : Stage α := ⟨l, c.playfield⟩
    let s := ((start stage settings).performAll ops).2
    let w := s.scene.world
    Stage.ofCatalog? c l.kind = some stage ∧
      1 ≤ w.character.speed.toInt ∧ w.character.speed.toInt ≤ 20 ∧
      0 ≤ w.character.x ∧ w.character.x ≤ w.playfield.maxX ∧
      w.character.x + c.playfield.characterWidth ≤ c.playfield.width ∧
      w.character.y = l.start.y ∧
      (Coordinate.ofInt 0 : α) ≤ w.playfield.maxX ∧
      w.moveBack.character.x = l.start.x ∧
      ∀ e ∈ ((start stage settings).history ops).flatMap Entry.published, e.Within stage := by
  intro stage s w
  have hstage : stage.Proper := Catalog.proper_stage hvalid hl
  obtain ⟨⟨-, hinside⟩, htold⟩ :=
    (confines_law hstage).history ops (confined_start hstage settings)
  have hfound : Stage.ofCatalog? c l.kind = some stage := by
    rw [Stage.ofCatalog?, Catalog.level?_kind hvalid hl]
    rfl
  have hplayfield : w.playfield = c.playfield := hinside.playfield_eq
  -- With room for the character, the last place is where its right edge meets that of the playfield.
  have hmaxX := Playfield.maxX_of_room hstage.room
  have hlow := hinside.x.1
  rw [Coordinate.ofInt_zero] at hlow
  have hfits := hinside.x.2
  rw [hmaxX, le_sub_iff_add_le] at hfits
  refine ⟨hfound, hinside.speed.1, hinside.speed.2, hlow, ?_, hfits, hinside.y_eq,
    w.playfield.zero_le_maxX, hinside.moveBack_x hstage, htold⟩
  rw [hplayfield]
  exact hinside.x.2

/-- A run to the right at the highest speed, given up when it is at the edge. -/
def acrossField : List Operation :=
  [.begin "setSpeed(21); setSpeed(20); for (int i = 0; i < 6; i++) \x7b moveRight(); \x7d",
    .resume ⟨1⟩, .resume ⟨1⟩, .resume ⟨1⟩, .resume ⟨1⟩, .resume ⟨1⟩, .cancel]

theorem character_stays_inside_acrossField :
    let c : Catalog ℚ := Catalog.builtin
    let l : Level ℚ := Catalog.Builtin.freeRoamLevel
    let stage : Stage ℚ := ⟨l, c.playfield⟩
    let s := ((start stage .standard).performAll acrossField).2
    let w := s.scene.world
    c.faults = [] ∧ l ∈ c.levels ∧ w.character.x = 924 ∧ w.playfield.maxX = 924 ∧
      w.character.speed = 20 ∧ w.character.y = l.start.y ∧
      w.moveBack.character.x = l.start.x ∧
      ∀ e ∈ ((start stage .standard).history acrossField).flatMap Entry.published,
        e.Within stage := by
  have hvalid : (Catalog.builtin : Catalog ℚ).faults = [] := by decide +kernel
  have hl : (Catalog.Builtin.freeRoamLevel : Level ℚ) ∈ Catalog.builtin.levels := by
    simp [Catalog.builtin]
  obtain ⟨-, -, -, -, -, -, hy, -, hback, htold⟩ :=
    character_stays_inside hvalid hl .standard acrossField
  exact ⟨hvalid, hl, by decide +kernel, by decide +kernel, by decide +kernel, hy, hback, htold⟩

end Playscript.Session
