import Playscript.Catalog.Basic
/-! What can be wrong with a catalog, and the check that finds all of it. -/
namespace Playscript.Catalog

inductive Entity
  | goal
  | targets
  | enemy
  | retreatAction
deriving DecidableEq, Repr

def Entity.name : Entity → String
  | .goal => "goal"
  | .targets => "targets"
  | .enemy => "enemy"
  | .retreatAction => "retreat action"

/-- Why a level needs what it lacks. -/
inductive Need (α : Type)
  | retreat
  | requirement (r : Level.Requirement α)

/-- A value outside its range. -/
inductive BadValue (α : Type)
  | noLevels
  | stepScale (scale : α)
  | noRoom (width characterWidth : α)
  | speed (level : String) (speed : Int64)
  | startX (level : String) (x : α)
  | noRequirements (level : String)
  | emptyArea (level : String) (x y : α)

inductive Fault (α : Type)
  | duplicateKind (kind : Level.Kind)
  | duplicateNumber (number : UInt32)
  | missing (level : String) (entity : Entity) (need : Need α)
  | disallowed (level : String) (action : Action) (need : Need α)
  | invalid (value : BadValue α)

variable {α : Type} [Coordinate α]

/-- The fault of needing an action that the level does not allow. -/
def needAction (l : Level α) (action : Action) (need : Need α) : List (Fault α) :=
  if action ∈ l.allowed then [] else [.disallowed l.name action need]

def requirementFaults (l : Level α) (r : Level.Requirement α) : List (Fault α) :=
  let lacks (absent : Bool) (entity : Entity) : List (Fault α) :=
    if absent then [.missing l.name entity (.requirement r)] else []
  match r with
  | .reachX _ => []
  | .inGoal => lacks l.goal.isNone .goal
  | .allTargetsHit => lacks l.targets.isEmpty .targets
  | .retreatHandled => lacks l.enemy.isNone .enemy ++ lacks l.retreat.isNone .retreatAction
  | .invoked action => needAction l action (.requirement r)
  | .loopedAction action => needAction l action (.requirement r)
  | .speedFromVariable => needAction l .setSpeed (.requirement r)

def levelFaults (field : Playfield α) (l : Level α) : List (Fault α) :=
  (if isSpeed l.speed then [] else [.invalid (.speed l.name l.speed)]) ++
  (if l.start.x < Coordinate.ofInt 0 ∨ field.maxX < l.start.x then
    [.invalid (.startX l.name l.start.x)] else []) ++
  (if l.requirements.isEmpty then [.invalid (.noRequirements l.name)] else []) ++
  (l.areas.filter Area.isEmpty).map (fun r => .invalid (.emptyArea l.name r.x r.y)) ++
  (l.retreat.toList.flatMap fun action => needAction l action .retreat) ++
  l.requirements.flatMap (requirementFaults l)

def sharedFaults (c : Catalog α) : List (Fault α) :=
  let field := c.playfield
  (if c.levels.isEmpty then [.invalid .noLevels] else []) ++
  (if field.stepScale ≤ Coordinate.ofInt 0 then [.invalid (.stepScale field.stepScale)] else []) ++
  (if field.width ≤ field.characterWidth then
    [.invalid (.noRoom field.width field.characterWidth)] else [])

/-- The faults of levels one after the other, given the kinds and numbers of those before. -/
def faultsAfter (field : Playfield α) (kinds : List Level.Kind) (numbers : List UInt32) :
    List (Level α) → List (Fault α)
  | [] => []
  | l :: ls =>
      (if l.kind ∈ kinds then [.duplicateKind l.kind] else []) ++
      (if l.number ∈ numbers then [.duplicateNumber l.number] else []) ++
      levelFaults field l ++
      faultsAfter field (l.kind :: kinds) (l.number :: numbers) ls

def faults (c : Catalog α) : List (Fault α) :=
  sharedFaults c ++ faultsAfter c.playfield [] [] c.levels

/-! ## Wording -/

def Need.text : Need Float → String
  | .retreat => "retreat action"
  | .requirement r => "requirement '" ++ r.text ++ "'"

def BadValue.text : BadValue Float → String
  | .noLevels => "catalog has no levels"
  | .stepScale scale => "playfield step_scale must be positive (" ++ Decimal.plain scale ++ ")"
  | .noRoom width characterWidth =>
      "playfield width " ++ Decimal.plain width ++ " leaves no room for a character " ++
        Decimal.plain characterWidth ++ " wide"
  | .speed level value =>
      "level '" ++ level ++ "' start speed " ++ toString value ++ " outside " ++
        toString minSpeed ++ "..=" ++ toString maxSpeed
  | .startX level x => "level '" ++ level ++ "' start x " ++ Decimal.plain x ++ " outside playfield"
  | .noRequirements level => "level '" ++ level ++ "' has no completion requirements"
  | .emptyArea level x y =>
      "level '" ++ level ++ "' has an empty area at (" ++ Decimal.plain x ++ ", " ++
        Decimal.plain y ++ ")"

def Fault.message : Fault Float → String
  | .duplicateKind kind => "duplicate level kind '" ++ kind.slug ++ "'"
  | .duplicateNumber number => "duplicate level number '" ++ number.toNat.repr ++ "'"
  | .missing level entity need =>
      "level '" ++ level ++ "' has no " ++ entity.name ++ " (" ++ need.text ++ ")"
  | .disallowed level action need =>
      "level '" ++ level ++ "' does not allow " ++ action.name ++ " (" ++ need.text ++ ")"
  | .invalid value => "invalid value (" ++ value.text ++ ")"

end Playscript.Catalog
