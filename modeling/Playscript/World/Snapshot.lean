import Playscript.Catalog.Document
import Playscript.World.Basic
/-! A picture of the world for those who only look: as a document and in words. -/
namespace Playscript

structure Snapshot (α : Type) where
  x : α
  y : α
  speed : Int64
  goal : Option (Area α)
  inGoal : Bool
  obstacles : List (Obstacle α)
  targets : List (Target α)
  targetsHit : Nat
  /-- Where the enemy stands, and whether that is near. -/
  enemy : Option (Area α × Bool)

def World.snapshot {α : Type} [Coordinate α] (w : World α) : Snapshot α :=
  { x := w.character.x
    y := w.character.y
    speed := w.character.speed
    goal := w.goal
    inGoal := w.inGoal
    obstacles := w.obstacles
    targets := w.targets
    targetsHit := w.targetsHit
    enemy := w.enemy.map fun e => (e.area, e.near) }

open Document (Value)
open Decimal (plain)

namespace Snapshot

def toValue (s : Snapshot Float) : Value :=
  .record
    [("x", .ofFloat s.x), ("y", .ofFloat s.y), ("speed", .int s.speed.toInt),
      ("goal", .ofOption Area.toValue s.goal), ("in_goal", .bool s.inGoal),
      ("obstacles", .list (s.obstacles.map fun o =>
        .record [("area", o.area.toValue), ("active", .bool o.active)])),
      ("targets", .list (s.targets.map fun t =>
        .record [("area", t.area.toValue), ("active", .bool t.active), ("hit", .bool t.hit)])),
      ("targets_hit", .int s.targetsHit),
      ("enemy", .ofOption (fun (area, near) =>
        .record [("area", area.toValue), ("near", .bool near)]) s.enemy)]

/-- The snapshot in lines: the character, and what else the level has. -/
def describe (s : Snapshot Float) : List String :=
  ["Character at (" ++ plain s.x ++ ", " ++ plain s.y ++ "), speed " ++ toString s.speed] ++
  (s.goal.toList.map fun r =>
    "Goal x " ++ plain r.x ++ ".." ++ plain r.right ++ ", y " ++ plain r.y ++ ".." ++
      plain r.bottom ++ " (" ++ (if s.inGoal then "inside" else "outside") ++ ")") ++
  (if s.targets.isEmpty then []
    else ["Targets hit: " ++ s.targetsHit.repr ++ "/" ++ s.targets.length.repr]) ++
  (if s.obstacles.isEmpty then []
    else ["Obstacles at x = " ++
      ", ".intercalate ((s.obstacles.filter Obstacle.active).map fun o => plain o.area.x)]) ++
  (s.enemy.toList.map fun (area, near) =>
    "Enemy at x = " ++ plain area.x ++ " (" ++ (if near then "near" else "far") ++ ")")

end Snapshot

end Playscript
