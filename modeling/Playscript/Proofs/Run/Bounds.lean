import Mathlib.Algebra.Order.Ring.Abs
import Playscript.Proofs.Catalog.Validity
import Playscript.Proofs.Run.Licence
import Playscript.Proofs.Run.Techniques
/-! The character within its bounds. Over exact numbers, on a stage where it starts inside the
playfield and at a speed that it may have, no statement takes it out of the playfield, off its line or
to another kind of speed, and what is told of it meanwhile is within the same bounds. -/
namespace Playscript

/-! ## Exact numbers -/

namespace Exact

/-- The numbers of an ordered ring as coordinates: nothing is rounded, and all compare. -/
scoped instance coordinate {α : Type} [Ring α] [LinearOrder α] [IsStrictOrderedRing α] :
    Coordinate α where
  ofInt := Int.cast
  abs := fun x => |x|
  decidableLT := fun a b => inferInstanceAs (Decidable (a < b))
  decidableLE := fun a b => inferInstanceAs (Decidable (a ≤ b))

end Exact

open Exact

variable {α : Type} [Ring α] [LinearOrder α] [IsStrictOrderedRing α]

namespace Coordinate

theorem ofInt_zero : (Coordinate.ofInt 0 : α) = 0 :=
  Int.cast_zero

theorem low_le_clamp {low high : α} (h : low ≤ high) (x : α) : low ≤ clamp low high x := by
  unfold clamp
  split
  · exact le_refl low
  · rename_i hx
    split
    · exact h
    · exact not_lt.mp hx

theorem clamp_le_high {low high : α} (h : low ≤ high) (x : α) : clamp low high x ≤ high := by
  unfold clamp
  split
  · exact h
  · split
    · exact le_refl high
    · rename_i hx
      exact not_lt.mp hx

theorem clamp_of_mem {low high x : α} (hlow : low ≤ x) (hhigh : x ≤ high) :
    clamp low high x = x := by
  rw [clamp, if_neg (not_lt.mpr hlow), if_neg (not_lt.mpr hhigh)]

end Coordinate

namespace Playfield

/-- The ends between which a character is kept are in order, whether there is room for it or not. -/
theorem zero_le_maxX (p : Playfield α) : Coordinate.ofInt 0 ≤ p.maxX := by
  unfold maxX
  dsimp only
  split
  · rename_i hroom
    exact le_of_lt hroom
  · exact le_refl _

theorem maxX_of_room {p : Playfield α} (h : p.characterWidth < p.width) :
    p.maxX = p.width - p.characterWidth := by
  have hroom : (Coordinate.ofInt 0 : α) < p.width - p.characterWidth := by
    rw [Coordinate.ofInt_zero]
    exact sub_pos.mpr h
  exact if_pos hroom

/-- The character fits into the playfield with its left edge at `x`. -/
def Holds (p : Playfield α) (x : α) : Prop :=
  Coordinate.ofInt 0 ≤ x ∧ x ≤ p.maxX

theorem holds_reach (w : World α) (x : α) : w.playfield.Holds (w.reach x) := by
  have hrange := w.playfield.zero_le_maxX
  exact ⟨Coordinate.low_le_clamp hrange x, Coordinate.clamp_le_high hrange x⟩

theorem Holds.reach_eq {w : World α} {x : α} (h : w.playfield.Holds x) : w.reach x = x :=
  Coordinate.clamp_of_mem h.1 h.2

end Playfield

/-! ## Stages and worlds -/

/-- A speed that a character may have. -/
def IsLegal (speed : Int64) : Prop :=
  1 ≤ speed.toInt ∧ speed.toInt ≤ 20

theorem isLegal_iff (speed : Int64) : isSpeed speed = true ↔ IsLegal speed := by
  rw [isSpeed, Bool.and_eq_true, decide_eq_true_iff, decide_eq_true_iff, Int64.le_iff_toInt_le,
    Int64.le_iff_toInt_le]
  rfl

/-- A stage with room for the character, which starts on it inside the playfield and at a speed that
it may have. -/
structure Stage.Proper (stage : Stage α) : Prop where
  room : stage.playfield.characterWidth < stage.playfield.width
  start : stage.playfield.Holds stage.level.start.x
  speed : IsLegal stage.level.speed

/-- The levels of a catalog without faults are played on proper stages. -/
theorem Catalog.proper_stage {c : Catalog α} (h : c.faults = []) {l : Level α}
    (hl : l ∈ c.levels) : Stage.Proper ⟨l, c.playfield⟩ := by
  obtain ⟨hshared, hlevels, -⟩ := (faults_eq_nil_iff c).mp h
  obtain ⟨hspeed, hlow, hhigh⟩ := start_of_levelFaults (hlevels l hl)
  exact ⟨not_le.mp (room_of_sharedFaults hshared), ⟨not_lt.mp hlow, not_lt.mp hhigh⟩,
    (isLegal_iff l.speed).mp hspeed⟩

/-- A world of a stage in which the character is inside the playfield, on the line where it started
and at a speed that it may have. -/
structure World.Inside (stage : Stage α) (w : World α) : Prop where
  start_eq : w.start = stage.level.start
  playfield_eq : w.playfield = stage.playfield
  speed : IsLegal w.character.speed
  x : stage.playfield.Holds w.character.x
  y_eq : w.character.y = stage.level.start.y

/-- An event that tells of no place outside the playfield or off the line, of no other kind of speed,
and of no move back but to the start. -/
def Event.Within (stage : Stage α) : Event α → Prop
  | .moved action before after =>
      stage.playfield.Holds before ∧ stage.playfield.Holds after ∧
        (action = .moveBack → after = stage.level.start.x)
  | .jumped x y | .shot x y _ => stage.playfield.Holds x ∧ y = stage.level.start.y
  | .speedChanged speed => IsLegal speed
  | _ => True

variable {stage : Stage α}

namespace World.Inside

variable {w : World α}

theorem initial (h : stage.Proper) : Inside stage (.initial stage.level stage.playfield) :=
  ⟨rfl, rfl, h.speed, h.start, rfl⟩

theorem congr {w' : World α} (h : Inside stage w) (hstart : w'.start = w.start)
    (hplayfield : w'.playfield = w.playfield) (hcharacter : w'.character = w.character) :
    Inside stage w' := by
  refine ⟨hstart.trans h.start_eq, hplayfield.trans h.playfield_eq, ?_, ?_, ?_⟩
  · rw [hcharacter]
    exact h.speed
  · rw [hcharacter]
    exact h.x
  · rw [hcharacter]
    exact h.y_eq

theorem holds_reach (h : Inside stage w) (x : α) : stage.playfield.Holds (w.reach x) :=
  h.playfield_eq ▸ Playfield.holds_reach w x

theorem withReach (h : Inside stage w) (x : α) : Inside stage (w.withX (w.reach x)) :=
  ⟨h.start_eq, h.playfield_eq, h.speed, h.holds_reach x, h.y_eq⟩

theorem withSpeed (h : Inside stage w) {speed : Int64} (hspeed : IsLegal speed) :
    Inside stage (w.withSpeed speed) :=
  ⟨h.start_eq, h.playfield_eq, hspeed, h.x, h.y_eq⟩

/-- On a proper stage the way back ends just where the character started. -/
theorem moveBack_x (h : Inside stage w) (hstage : stage.Proper) :
    w.moveBack.character.x = stage.level.start.x := by
  have hholds : w.playfield.Holds w.start.x := by
    rw [h.start_eq, h.playfield_eq]
    exact hstage.start
  change w.reach w.start.x = _
  rw [hholds.reach_eq, h.start_eq]

end World.Inside

/-! ## Statements -/

namespace Script

/-- An effect that keeps the character inside and tells of it only so. -/
def Confines (stage : Stage α) (a : Effect α) : Prop :=
  ∀ scene : Scene α, scene.world.Inside stage →
    (a scene).1.world.Inside stage ∧ ∀ e ∈ (a scene).2.events, e.Within stage

theorem Confines.of_silent {a : Effect α} (hworld : ∀ scene, (a scene).1.world = scene.world)
    (hevents : ∀ scene, (a scene).2.events = []) : Confines stage a := by
  intro scene h
  rw [hworld, hevents]
  exact ⟨h, List.forall_mem_nil _⟩

theorem Confines.andThen {a b : Effect α} (ha : Confines stage a) (hb : Confines stage b) :
    Confines stage (a.andThen b) := by
  intro scene h
  obtain ⟨hfirst, htold⟩ := ha scene h
  obtain ⟨hsecond, hlater⟩ := hb (a scene).1 hfirst
  exact ⟨hsecond, List.forall_mem_append.mpr ⟨htold, hlater⟩⟩

/-- A move to where the character can reach. Only a move back has to end at the start. -/
theorem confines_move {action : Action} {go : World α → World α} {aim : World α → α}
    (hgo : ∀ w, go w = w.withX (w.reach (aim w)))
    (hback : action = .moveBack → ∀ w : World α, w.Inside stage →
      w.reach (aim w) = stage.level.start.x) : Confines stage (move action go) := by
  intro scene h
  have hworld : (move action go scene).1.world =
      scene.world.withX (scene.world.reach (aim scene.world)) := hgo scene.world
  have hevents : (move action go scene).2.events =
      [.moved action scene.world.character.x (scene.world.reach (aim scene.world))] := by
    change [Event.moved action scene.world.character.x (go scene.world).character.x] = _
    rw [hgo]
    rfl
  rw [hworld, hevents, List.forall_mem_singleton]
  exact ⟨h.withReach _, h.x, h.holds_reach _, fun haction => hback haction _ h⟩

theorem confines_perform (hstage : stage.Proper) (action : Action) (argument : Option Argument) :
    Confines stage (perform action argument) := by
  cases action with
  | moveLeft | moveRight =>
      exact confines_move (fun _ => rfl) fun haction => absurd haction (by decide)
  | moveBack => exact confines_move (fun _ => rfl) fun _ w h => h.moveBack_x hstage
  | jump => exact fun scene h => ⟨h, List.forall_mem_singleton.mpr ⟨h.x, h.y_eq⟩⟩
  | shoot =>
      intro scene h
      refine ⟨?_, List.forall_mem_singleton.mpr ⟨h.x, h.y_eq⟩⟩
      change scene.world.shoot.2.Inside stage
      unfold World.shoot
      split <;> exact h.congr rfl rfl rfl
  | setSpeed =>
      intro scene h
      rw [perform]
      rcases setSpeed_cases argument scene with
        ⟨hscene, hevents⟩ | ⟨value, named, hscene, hevents, hspeed⟩
      · rw [hscene, hevents]
        exact ⟨h, List.forall_mem_nil _⟩
      · have hlegal := (isLegal_iff value).mp hspeed
        rw [hscene, hevents]
        exact ⟨h.withSpeed hlegal, List.forall_mem_singleton.mpr hlegal⟩

theorem confines_law (hstage : stage.Proper) (retreat : Option Action) :
    StatementLaw retreat (Confines stage) where
  skip := .of_silent (fun _ => rfl) fun _ => rfl
  andThen := .andThen
  line := fun _ => .of_silent (fun _ => rfl) fun _ => rfl
  issue := fun _ => .of_silent (fun _ => rfl) fun _ => rfl
  assign := fun _ _ _ h => ⟨h, List.forall_mem_singleton.mpr trivial⟩
  perform := confines_perform hstage
  branch := by
    intro condition body block hblock scene h
    rw [branch_scene, events_branch]
    split
    · exact hblock _ h
    · exact ⟨h, List.forall_mem_nil _⟩
  openLoop := fun _ _ _ _ => .of_silent (fun _ => rfl) fun _ => rfl

end Script

end Playscript
