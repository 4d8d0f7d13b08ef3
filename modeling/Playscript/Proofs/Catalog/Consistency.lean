import Mathlib.Algebra.Order.Ring.Rat
import Mathlib.Data.Finset.Card
import Mathlib.Data.Finset.SDiff
import Mathlib.Data.List.Infix
import Playscript.Catalog.Builtin
import Playscript.Proofs.Run.Bounds
/-! What the check of a catalog finds. Over exact numbers it finds nothing just in the consistent
catalogs. Over all numbers it goes through the levels one by one: what it says of a level is what it
says of that level alone, and besides that it tells every kind and every number that is repeated. -/
namespace Playscript

variable {α : Type}

/-! ## Consistency -/

/-- What a requirement needs, the level has. -/
def Level.Supports (l : Level α) : Level.Requirement α → Prop
  | .reachX _ => True
  | .inGoal => ∃ area, l.goal = some area
  | .allTargetsHit => l.targets ≠ []
  | .retreatHandled => (∃ enemy, l.enemy = some enemy) ∧ ∃ action, l.retreat = some action
  | .invoked action | .loopedAction action => action ∈ l.allowed
  | .speedFromVariable => .setSpeed ∈ l.allowed

section

variable [Ring α] [LinearOrder α] [IsStrictOrderedRing α]

open Exact

def Area.HasRoom (r : Area α) : Prop :=
  0 < r.width ∧ 0 < r.height

/-- A level that can be played on a playfield, and whose requirements all make sense. -/
structure Level.Consistent (field : Playfield α) (l : Level α) : Prop where
  speed : IsLegal l.speed
  start : 0 ≤ l.start.x ∧ l.start.x ≤ field.maxX
  required : l.requirements ≠ []
  goal : ∀ area, l.goal = some area → area.HasRoom
  obstacles : ∀ area ∈ l.obstacles, area.HasRoom
  targets : ∀ area ∈ l.targets, area.HasRoom
  enemy : ∀ e, l.enemy = some e → e.area.HasRoom
  retreat : ∀ action, l.retreat = some action → action ∈ l.allowed
  supported : ∀ r ∈ l.requirements, l.Supports r

structure Catalog.Consistent (c : Catalog α) : Prop where
  levels : c.levels ≠ []
  stepScale : 0 < c.playfield.stepScale
  room : c.playfield.characterWidth < c.playfield.width
  kinds : (c.levels.map Level.kind).Nodup
  numbers : (c.levels.map Level.number).Nodup
  level : ∀ l ∈ c.levels, l.Consistent c.playfield

end

namespace Catalog

section

variable [Coordinate α]

omit [Coordinate α] in
theorem ite_nil_fault_eq_nil_iff {p : Prop} [Decidable p] (f : Fault α) :
    (if p then [] else [f]) = [] ↔ p := by
  rw [← ite_not, ite_fault_eq_nil_iff, not_not]

omit [Coordinate α] in
theorem needAction_eq_nil_iff {l : Level α} {action : Action} {need : Need α} :
    needAction l action need = [] ↔ action ∈ l.allowed :=
  ite_nil_fault_eq_nil_iff _

omit [Coordinate α] in
/-- A requirement has no fault just where the level has what it needs. -/
theorem requirementFaults_eq_nil_iff {l : Level α} {r : Level.Requirement α} :
    requirementFaults l r = [] ↔ l.Supports r := by
  cases r with
  | reachX max => exact ⟨fun _ => trivial, fun _ => rfl⟩
  | invoked action | loopedAction action | speedFromVariable => exact needAction_eq_nil_iff
  | inGoal =>
      simp only [requirementFaults, Level.Supports, ite_fault_eq_nil_iff]
      rw [Option.isNone_iff_eq_none, ← ne_eq, Option.ne_none_iff_exists']
  | allTargetsHit =>
      simp only [requirementFaults, Level.Supports, ite_fault_eq_nil_iff, List.isEmpty_iff]
  | retreatHandled =>
      simp only [requirementFaults, Level.Supports, List.append_eq_nil_iff, ite_fault_eq_nil_iff]
      rw [Option.isNone_iff_eq_none, Option.isNone_iff_eq_none, ← ne_eq, ← ne_eq,
        Option.ne_none_iff_exists', Option.ne_none_iff_exists']

end

section Exact

variable [Ring α] [LinearOrder α] [IsStrictOrderedRing α]

open Exact

theorem isEmpty_eq_false_iff {r : Area α} : ¬ r.isEmpty = true ↔ r.HasRoom := by
  rw [Area.isEmpty, Bool.or_eq_true, decide_eq_true_iff, decide_eq_true_iff, not_or,
    Coordinate.ofInt_zero]
  exact and_congr not_le not_le

/-- No area of a level is empty: neither its goal, nor an obstacle, a target or the enemy's. -/
theorem areaFaults_eq_nil_iff {l : Level α} (fault : Area α → Fault α) :
    (l.areas.filter Area.isEmpty).map fault = [] ↔
      (∀ area, l.goal = some area → area.HasRoom) ∧ (∀ area ∈ l.obstacles, area.HasRoom) ∧
        (∀ area ∈ l.targets, area.HasRoom) ∧ ∀ e, l.enemy = some e → e.area.HasRoom := by
  simp only [List.map_eq_nil_iff, List.filter_eq_nil_iff, isEmpty_eq_false_iff, Level.areas,
    List.forall_mem_append, Option.mem_toList, Option.map_eq_some_iff,
    forall_exists_index, and_imp, forall_apply_eq_imp_iff₂, and_assoc]

theorem levelFaults_eq_nil_iff {field : Playfield α} {l : Level α} :
    levelFaults field l = [] ↔ l.Consistent field := by
  have hstart : ¬ (l.start.x < Coordinate.ofInt 0 ∨ field.maxX < l.start.x) ↔
      0 ≤ l.start.x ∧ l.start.x ≤ field.maxX := by
    rw [not_or, Coordinate.ofInt_zero]
    exact and_congr not_lt not_lt
  simp only [levelFaults, List.append_eq_nil_iff, ite_nil_fault_eq_nil_iff, ite_fault_eq_nil_iff,
    isLegal_iff, hstart, List.isEmpty_iff, areaFaults_eq_nil_iff, List.flatMap_eq_nil_iff,
    Option.mem_toList, needAction_eq_nil_iff, requirementFaults_eq_nil_iff]
  constructor
  · rintro ⟨⟨⟨⟨⟨hspeed, hinside⟩, hrequired⟩, hgoal, hobstacles, htargets, henemy⟩, hretreat⟩,
      hsupported⟩
    exact ⟨hspeed, hinside, hrequired, hgoal, hobstacles, htargets, henemy, hretreat, hsupported⟩
  · rintro ⟨hspeed, hinside, hrequired, hgoal, hobstacles, htargets, henemy, hretreat, hsupported⟩
    exact ⟨⟨⟨⟨⟨hspeed, hinside⟩, hrequired⟩, hgoal, hobstacles, htargets, henemy⟩, hretreat⟩,
      hsupported⟩

theorem sharedFaults_eq_nil_iff {c : Catalog α} :
    sharedFaults c = [] ↔ c.levels ≠ [] ∧ 0 < c.playfield.stepScale ∧
      c.playfield.characterWidth < c.playfield.width := by
  simp only [sharedFaults, List.append_eq_nil_iff, ite_fault_eq_nil_iff, List.isEmpty_iff,
    Coordinate.ofInt_zero, and_assoc]
  exact and_congr_right fun _ => and_congr not_le not_le

theorem consistent_of_faults {c : Catalog α} : c.faults = [] ↔ c.Consistent := by
  rw [faults_eq_nil_iff, sharedFaults_eq_nil_iff]
  simp only [levelFaults_eq_nil_iff]
  constructor
  · rintro ⟨⟨hlevels, hscale, hroom⟩, heach, hkinds, hnumbers⟩
    exact ⟨hlevels, hscale, hroom, hkinds, hnumbers, heach⟩
  · rintro ⟨hlevels, hscale, hroom, hkinds, hnumbers, heach⟩
    exact ⟨⟨hlevels, hscale, hroom⟩, heach, hkinds, hnumbers⟩

end Exact

/-! ## Level by level -/

def Fault.isDuplicate : Fault α → Bool
  | .duplicateKind _ | .duplicateNumber _ => true
  | _ => false

/-- The faults of a level that levels before it have its kind or its number. -/
def repeats (earlier : List (Level α)) (l : Level α) : List (Fault α) :=
  (if l.kind ∈ earlier.map Level.kind then [.duplicateKind l.kind] else []) ++
  (if l.number ∈ earlier.map Level.number then [.duplicateNumber l.number] else [])

theorem mem_seen_cons {κ : Type} {key : Level α → κ} {seen : List κ} {before : List (Level α)}
    (h : ∀ k, k ∈ seen ↔ k ∈ before.map key) (l : Level α) (k : κ) :
    k ∈ key l :: seen ↔ k ∈ (before ++ [l]).map key := by
  rw [List.mem_cons, List.map_append, List.mem_append, h, List.map_singleton, List.mem_singleton,
    or_comm]

/-- How many keys have been seen when it is their turn. -/
def seenAgain {κ : Type} [DecidableEq κ] (seen : List κ) : List κ → Nat
  | [] => 0
  | k :: rest => (if k ∈ seen then 1 else 0) + seenAgain (k :: seen) rest

/-- Each key that has not been seen before is new once, and all others are seen again. -/
theorem seenAgain_add_card {κ : Type} [DecidableEq κ] (seen keys : List κ) :
    seenAgain seen keys + (keys.toFinset \ seen.toFinset).card = keys.length := by
  induction keys generalizing seen with
  | nil =>
      rw [List.toFinset_nil, Finset.empty_sdiff]
      rfl
  | cons k rest ih =>
      have hlater := ih (k :: seen)
      rw [List.toFinset_cons] at hlater
      rw [seenAgain, List.toFinset_cons, List.length_cons]
      by_cases hseen : k ∈ seen
      · have hmem : k ∈ seen.toFinset := List.mem_toFinset.mpr hseen
        rw [Finset.insert_eq_of_mem hmem] at hlater
        rw [if_pos hseen, Finset.insert_sdiff_of_mem _ hmem]
        omega
      · have hnew : insert k rest.toFinset \ seen.toFinset =
            insert k (rest.toFinset \ insert k seen.toFinset) := by
          ext other
          by_cases hsame : other = k
          · subst hsame
            simp [hseen]
          · simp [hsame]
        rw [if_neg hseen, hnew, Finset.card_insert_of_notMem (by simp)]
        omega

/-- The faults of one kind of mistake in a level are all of the same form, which is no duplicate. -/
theorem forall_mem_ite_fault {p : Prop} [Decidable p] {first second : List (Fault α)}
    (hfirst : ∀ f ∈ first, f.isDuplicate = false) (hsecond : ∀ f ∈ second, f.isDuplicate = false) :
    ∀ f ∈ (if p then first else second), f.isDuplicate = false := by
  split
  · exact hfirst
  · exact hsecond

theorem isDuplicate_needAction {l : Level α} {action : Action} {need : Need α} :
    ∀ f ∈ needAction l action need, f.isDuplicate = false :=
  forall_mem_ite_fault (List.forall_mem_nil _) (List.forall_mem_singleton.mpr rfl)

theorem isDuplicate_requirementFaults {l : Level α} {r : Level.Requirement α} :
    ∀ f ∈ requirementFaults l r, f.isDuplicate = false := by
  have hlacks (p : Prop) [Decidable p] (entity : Entity) :
      ∀ f ∈ (if p then [.missing l.name entity (.requirement r)] else [] : List (Fault α)),
        f.isDuplicate = false :=
    forall_mem_ite_fault (List.forall_mem_singleton.mpr rfl) (List.forall_mem_nil _)
  cases r with
  | reachX max => exact List.forall_mem_nil _
  | invoked action | loopedAction action | speedFromVariable => exact isDuplicate_needAction
  | inGoal | allTargetsHit => exact hlacks _ _
  | retreatHandled => exact List.forall_mem_append.mpr ⟨hlacks _ _, hlacks _ _⟩

variable [Coordinate α]

theorem isDuplicate_levelFaults {field : Playfield α} {l : Level α} :
    ∀ f ∈ levelFaults field l, f.isDuplicate = false := by
  simp only [levelFaults, List.forall_mem_append, List.forall_mem_flatMap, List.forall_mem_map]
  refine ⟨⟨⟨⟨⟨?_, ?_⟩, ?_⟩, fun _ _ => rfl⟩, fun _ _ => isDuplicate_needAction⟩,
    fun _ _ => isDuplicate_requirementFaults⟩
  · exact forall_mem_ite_fault (List.forall_mem_nil _) (List.forall_mem_singleton.mpr rfl)
  · exact forall_mem_ite_fault (List.forall_mem_singleton.mpr rfl) (List.forall_mem_nil _)
  · exact forall_mem_ite_fault (List.forall_mem_singleton.mpr rfl) (List.forall_mem_nil _)

theorem isDuplicate_sharedFaults {c : Catalog α} :
    ∀ f ∈ sharedFaults c, f.isDuplicate = false := by
  simp only [sharedFaults, List.forall_mem_append]
  refine ⟨⟨?_, ?_⟩, ?_⟩ <;>
    exact forall_mem_ite_fault (List.forall_mem_singleton.mpr rfl) (List.forall_mem_nil _)

/-- The check goes on after some levels with the next ones, and knows all kinds and numbers until
then. -/
theorem faultsAfter_eq (field : Playfield α) {kinds : List Level.Kind} {numbers : List UInt32}
    {before : List (Level α)} (hkinds : ∀ k, k ∈ kinds ↔ k ∈ before.map Level.kind)
    (hnumbers : ∀ n, n ∈ numbers ↔ n ∈ before.map Level.number) (levels : List (Level α)) :
    faultsAfter field kinds numbers levels =
      (levels.inits.zip levels).flatMap fun turn =>
        repeats (before ++ turn.1) turn.2 ++ levelFaults field turn.2 := by
  induction levels generalizing kinds numbers before with
  | nil => rfl
  | cons l rest ih =>
      rw [faultsAfter, ih (mem_seen_cons hkinds l) (mem_seen_cons hnumbers l), List.inits_cons,
        List.zip_cons_cons, List.zip_map_left, List.flatMap_cons, List.flatMap_map]
      simp only [repeats, hkinds, hnumbers, List.append_nil, List.append_assoc,
        List.singleton_append, Prod.map_fst, Prod.map_snd, id_eq]

omit [Coordinate α] in
theorem duplicates_eq_nil {found : List (Fault α)} (h : ∀ f ∈ found, f.isDuplicate = false) :
    found.filter Fault.isDuplicate = [] := by
  refine List.filter_eq_nil_iff.mpr ?_
  intro f hf
  rw [h f hf]
  exact Bool.false_ne_true

theorem length_duplicates_faultsAfter (field : Playfield α) (kinds : List Level.Kind)
    (numbers : List UInt32) (levels : List (Level α)) :
    ((faultsAfter field kinds numbers levels).filter Fault.isDuplicate).length =
      seenAgain kinds (levels.map Level.kind) + seenAgain numbers (levels.map Level.number) := by
  induction levels generalizing kinds numbers with
  | nil => rfl
  | cons l rest ih =>
      have htold {p : Prop} [Decidable p] {f : Fault α} (hf : f.isDuplicate = true) :
          ((if p then [f] else []).filter Fault.isDuplicate).length = if p then 1 else 0 := by
        split
        · rw [List.filter_cons_of_pos hf]
          rfl
        · rfl
      rw [faultsAfter, List.filter_append, List.filter_append, List.filter_append,
        duplicates_eq_nil isDuplicate_levelFaults, List.append_nil, List.length_append,
        List.length_append, htold rfl, htold rfl, ih, List.map_cons, List.map_cons, seenAgain,
        seenAgain]
      omega

theorem length_duplicates (c : Catalog α) :
    (c.faults.filter Fault.isDuplicate).length =
      (c.levels.length - (c.levels.map Level.kind).toFinset.card) +
        (c.levels.length - (c.levels.map Level.number).toFinset.card) := by
  have hkinds := seenAgain_add_card [] (c.levels.map Level.kind)
  have hnumbers := seenAgain_add_card [] (c.levels.map Level.number)
  rw [List.toFinset_nil, Finset.sdiff_empty, List.length_map] at hkinds hnumbers
  rw [faults, List.filter_append, duplicates_eq_nil isDuplicate_sharedFaults, List.nil_append,
    length_duplicates_faultsAfter]
  omega

theorem faults_eq (c : Catalog α) :
    c.faults = sharedFaults c ++ (c.levels.inits.zip c.levels).flatMap fun turn =>
      repeats turn.1 turn.2 ++ levelFaults c.playfield turn.2 := by
  have hnone {κ : Type} (key : Level α → κ) (k : κ) : k ∈ [] ↔ k ∈ [].map key := Iff.rfl
  have hlevels := faultsAfter_eq c.playfield (hnone Level.kind) (hnone Level.number) c.levels
  rw [faults, hlevels]
  rfl

/-- Of a level that is the only one, the check says what it says of it among others. -/
theorem faults_of_only_level {c : Catalog α} {l : Level α} (hl : l ∈ c.levels) :
    (⟨c.playfield, [l]⟩ : Catalog α).faults = sharedFaults c ++ levelFaults c.playfield l := by
  have hsome : c.levels.isEmpty = false := List.isEmpty_eq_false_iff_exists_mem.mpr ⟨l, hl⟩
  have hshared : sharedFaults (⟨c.playfield, [l]⟩ : Catalog α) = sharedFaults c := by
    rw [sharedFaults, sharedFaults, hsome]
    rfl
  rw [faults, hshared, faultsAfter, faultsAfter, List.append_nil]
  rfl

open Exact

/-- Over exact numbers the check of a catalog finds no fault just when the catalog is consistent.
Over all numbers it tells as many duplicates as there are levels beyond the different kinds, and
beyond the different numbers; and apart from these, what it tells of a level is what it tells of it
where it is the only one. -/
theorem faultless_iff_consistent {α : Type} [Ring α] [LinearOrder α] [IsStrictOrderedRing α] :
    (∀ c : Catalog α, c.faults = [] ↔ c.Consistent) ∧
      ∀ {β : Type} [Coordinate β] (c : Catalog β),
        (c.faults.filter Fault.isDuplicate).length =
            (c.levels.length - (c.levels.map Level.kind).toFinset.card) +
              (c.levels.length - (c.levels.map Level.number).toFinset.card) ∧
          c.faults = sharedFaults c ++ (c.levels.inits.zip c.levels).flatMap (fun turn =>
            repeats turn.1 turn.2 ++ levelFaults c.playfield turn.2) ∧
          ∀ l ∈ c.levels,
            (⟨c.playfield, [l]⟩ : Catalog β).faults =
                sharedFaults c ++ levelFaults c.playfield l ∧
              ∀ f ∈ levelFaults c.playfield l, f.isDuplicate = false := by
  refine ⟨fun _ => consistent_of_faults, ?_⟩
  intro β _ c
  refine ⟨length_duplicates c, faults_eq c, ?_⟩
  intro l hl
  exact ⟨faults_of_only_level hl, isDuplicate_levelFaults⟩

/-- The last level over again, with a flat goal and without the enemy that it asks to handle. -/
def unfinishedLevel : Level ℚ :=
  { Builtin.freeRoamLevel with
    goal := some (Builtin.area 500 200 80 0)
    enemy := none
    allowed := .ofList [.moveRight, .setSpeed]
    requirements := [.inGoal, .retreatHandled, .loopedAction .shoot, .speedFromVariable] }

/-- Among the levels of the game the unfinished one repeats a kind and a number. It has four faults
of its own: the flat goal, the missing enemy, and a retreat and a loop of actions that it does not
allow. -/
theorem faultless_iff_consistent_unfinished :
    let whole : Catalog ℚ := Catalog.builtin
    let flawed : Catalog ℚ := ⟨.standard, whole.levels ++ [unfinishedLevel]⟩
    whole.Consistent ∧ ¬ flawed.Consistent ∧
      (flawed.faults.filter Fault.isDuplicate).length = 2 ∧ flawed.faults.length = 6 := by
  intro whole flawed
  obtain ⟨hconsistent, hall⟩ := faultless_iff_consistent (α := ℚ)
  have hwhole : whole.faults = [] := by decide +kernel
  have hcount : flawed.faults.length = 6 := by decide +kernel
  obtain ⟨hduplicates, -⟩ := hall flawed
  have hkinds : (flawed.levels.map Level.kind).toFinset.card = 5 := by decide +kernel
  have hnumbers : (flawed.levels.map Level.number).toFinset.card = 5 := by decide +kernel
  have hlevels : flawed.levels.length = 6 := rfl
  rw [hkinds, hnumbers, hlevels] at hduplicates
  refine ⟨(hconsistent whole).mp hwhole, ?_, hduplicates, hcount⟩
  intro hflawed
  rw [(hconsistent flawed).mpr hflawed] at hcount
  cases hcount

end Catalog

end Playscript
