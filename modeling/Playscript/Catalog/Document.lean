import Playscript.Catalog.Basic
import Playscript.Document.Value
/-! Catalogs as documents. A field that a document leaves out has its standard value where there is
one; a field that no record knows is passed over. -/
namespace Playscript

open Document (Value Format required defaulted)

/-- The word of an action, by name. -/
def Action.ofValue? (f : Format) (v : Value) : Option Action :=
  (f.word? v).bind Action.ofName?

def Action.toValue (a : Action) : Value := .text a.name

def ActionSet.ofValue? (f : Format) (v : Value) : Option ActionSet :=
  (v.list? (Action.ofValue? f)).map ActionSet.ofList

def ActionSet.toValue (s : ActionSet) : Value := .list (s.toList.map Action.toValue)

def Point.ofValue? (f : Format) (v : Value) : Option (Point Float) := do
  let get ← f.fields ["x", "y"] v
  return ⟨← required get "x" Value.float?, ← required get "y" Value.float?⟩

def Point.toValue (p : Point Float) : Value :=
  .record [("x", .ofFloat p.x), ("y", .ofFloat p.y)]

namespace Area

def ofValue? (f : Format) (v : Value) : Option (Area Float) := do
  let get ← f.fields ["x", "y", "width", "height"] v
  return {
    x := ← required get "x" Value.float?
    y := ← required get "y" Value.float?
    width := ← required get "width" Value.float?
    height := ← required get "height" Value.float? }

def toValue (r : Area Float) : Value :=
  .record [("x", .ofFloat r.x), ("y", .ofFloat r.y), ("width", .ofFloat r.width),
    ("height", .ofFloat r.height)]

end Area

namespace Playfield

def ofValue? (f : Format) (v : Value) : Option (Playfield Float) := do
  let get ← f.fields ["width", "height", "character_width", "character_height", "step_scale",
    "collision_margin"] v
  let base : Playfield Float := standard
  return {
    width := ← defaulted get "width" base.width Value.float?
    height := ← defaulted get "height" base.height Value.float?
    characterWidth := ← defaulted get "character_width" base.characterWidth Value.float?
    characterHeight := ← defaulted get "character_height" base.characterHeight Value.float?
    stepScale := ← defaulted get "step_scale" base.stepScale Value.float?
    collisionMargin := ← defaulted get "collision_margin" base.collisionMargin Value.float? }

def toValue (p : Playfield Float) : Value :=
  .record [("width", .ofFloat p.width), ("height", .ofFloat p.height),
    ("character_width", .ofFloat p.characterWidth),
    ("character_height", .ofFloat p.characterHeight), ("step_scale", .ofFloat p.stepScale),
    ("collision_margin", .ofFloat p.collisionMargin)]

end Playfield

namespace Level

def Kind.ofValue? (f : Format) (v : Value) : Option Kind :=
  (f.word? v).bind Kind.ofExactSlug?

def Kind.toValue (k : Kind) : Value := .text k.slug

namespace Requirement

/-- The fields that a form of requirement has besides its type. -/
def fieldNames : String → List String
  | "reachX" => ["max"]
  | "invoked" => ["action"]
  | "loopedAction" => ["action"]
  | _ => []

def ofValue? (v : Value) : Option (Requirement Float) := do
  let (form, get) ← Format.form? "type" fieldNames v
  match form with
  | "reachX" => return .reachX (← required get "max" Value.float?)
  | "inGoal" => return .inGoal
  | "invoked" => return .invoked (← required get "action" (Action.ofValue? .tagged))
  | "speedFromVariable" => return .speedFromVariable
  | "retreatHandled" => return .retreatHandled
  | "loopedAction" => return .loopedAction (← required get "action" (Action.ofValue? .tagged))
  | "allTargetsHit" => return .allTargetsHit
  | _ => none

def toValue : Requirement Float → Value
  | .reachX max => .record [("type", .text "reachX"), ("max", .ofFloat max)]
  | .inGoal => .record [("type", .text "inGoal")]
  | .invoked action => .record [("type", .text "invoked"), ("action", action.toValue)]
  | .speedFromVariable => .record [("type", .text "speedFromVariable")]
  | .retreatHandled => .record [("type", .text "retreatHandled")]
  | .loopedAction action => .record [("type", .text "loopedAction"), ("action", action.toValue)]
  | .allTargetsHit => .record [("type", .text "allTargetsHit")]

end Requirement

namespace Enemy

def ofValue? (f : Format) (v : Value) : Option (Enemy Float) := do
  let get ← f.fields ["area", "near_x"] v
  return ⟨← required get "area" (Area.ofValue? f), ← required get "near_x" Value.float?⟩

def toValue (e : Enemy Float) : Value :=
  .record [("area", e.area.toValue), ("near_x", .ofFloat e.nearX)]

end Enemy

def fieldNames : List String :=
  ["kind", "number", "name", "instructions", "starter_code", "help", "allowed_actions", "start",
    "speed", "goal", "obstacles", "targets", "enemy", "retreat_action", "complete_when"]

/-- The speed of a level that states none. -/
def standardSpeed : Int64 := 5

def ofValue? (f : Format) (v : Value) : Option (Level Float) := do
  let get ← f.fields fieldNames v
  return {
    kind := ← required get "kind" (Kind.ofValue? f)
    number := ← required get "number" Value.uint32?
    name := ← required get "name" Value.text?
    instructions := ← defaulted get "instructions" "" Value.text?
    starterCode := ← defaulted get "starter_code" "" Value.text?
    help := ← defaulted get "help" "" Value.text?
    allowed := ← required get "allowed_actions" (ActionSet.ofValue? f)
    start := ← required get "start" (Point.ofValue? f)
    speed := ← defaulted get "speed" standardSpeed Value.int64?
    goal := ← defaulted get "goal" none (Value.option? (Area.ofValue? f))
    obstacles := ← defaulted get "obstacles" [] (Value.list? (Area.ofValue? f))
    targets := ← defaulted get "targets" [] (Value.list? (Area.ofValue? f))
    enemy := ← defaulted get "enemy" none (Value.option? (Enemy.ofValue? f))
    retreat := ← defaulted get "retreat_action" none (Value.option? (Action.ofValue? f))
    requirements := ← required get "complete_when" (Value.list? Requirement.ofValue?) }

def toValue (l : Level Float) : Value :=
  .record
    [("kind", l.kind.toValue), ("number", .int l.number.toNat), ("name", .text l.name),
      ("instructions", .text l.instructions), ("starter_code", .text l.starterCode),
      ("help", .text l.help), ("allowed_actions", l.allowed.toValue), ("start", l.start.toValue),
      ("speed", .int l.speed.toInt), ("goal", .ofOption Area.toValue l.goal),
      ("obstacles", .list (l.obstacles.map Area.toValue)),
      ("targets", .list (l.targets.map Area.toValue)), ("enemy", .ofOption Enemy.toValue l.enemy),
      ("retreat_action", .ofOption Action.toValue l.retreat),
      ("complete_when", .list (l.requirements.map Requirement.toValue))]

end Level

namespace Catalog

def ofValue? (f : Format) (v : Value) : Option (Catalog Float) := do
  let get ← f.fields ["playfield", "levels"] v
  return {
    playfield := ← defaulted get "playfield" Playfield.standard (Playfield.ofValue? f)
    levels := ← defaulted get "levels" [] (Value.list? (Level.ofValue? f)) }

def toValue (c : Catalog Float) : Value :=
  .record [("playfield", c.playfield.toValue), ("levels", .list (c.levels.map Level.toValue))]

end Catalog

end Playscript
