import Playscript.Area
import Playscript.Level.Kind
import Playscript.Level.Requirement
/-! Levels as a catalog defines them: texts, layout, the actions allowed and the requirements. -/
namespace Playscript

/-- The slowest and the fastest speed of a character. -/
def minSpeed : Int64 := 1

def maxSpeed : Int64 := 20

def isSpeed (speed : Int64) : Bool :=
  minSpeed ≤ speed && speed ≤ maxSpeed

namespace Level

/-- An enemy that stands in an area while it is far and moves sideways when it comes near. -/
structure Enemy (α : Type) where
  area : Area α
  nearX : α
deriving Repr

end Level

structure Level (α : Type) where
  kind : Level.Kind
  number : UInt32
  name : String
  instructions : String
  starterCode : String
  help : String
  allowed : ActionSet
  start : Point α
  speed : Int64
  goal : Option (Area α)
  obstacles : List (Area α)
  targets : List (Area α)
  enemy : Option (Level.Enemy α)
  /-- The action that counts as a retreat under a true condition. -/
  retreat : Option Action
  requirements : List (Level.Requirement α)

namespace Level

variable {α : Type}

def title (l : Level α) : String :=
  "Level " ++ l.number.toNat.repr ++ ": " ++ l.name

/-- The areas that must not be empty: goal, obstacles, targets, and where the enemy stands. -/
def areas (l : Level α) : List (Area α) :=
  l.goal.toList ++ l.obstacles ++ l.targets ++ (l.enemy.map Enemy.area).toList

end Level

end Playscript
