import Playscript.Catalog.Basic
/-! The world of a level attempt: the character among goal, obstacles, targets and enemy. Scripts
change it only by the actions below; the enemy's nearness is the one thing changed from outside. -/
namespace Playscript

structure Character (α : Type) where
  x : α
  y : α
  speed : Int64
deriving Repr

structure Target (α : Type) where
  area : Area α
  active : Bool
  hit : Bool
deriving Repr

structure Obstacle (α : Type) where
  area : Area α
  active : Bool
deriving Repr

structure Enemy (α : Type) where
  far : Area α
  nearX : α
  near : Bool
  active : Bool
deriving Repr

/-- Where the enemy stands. -/
def Enemy.area {α : Type} (e : Enemy α) : Area α :=
  if e.near then e.far.withX e.nearX else e.far

structure World (α : Type) where
  character : Character α
  start : Point α
  playfield : Playfield α
  goal : Option (Area α)
  obstacles : List (Obstacle α)
  targets : List (Target α)
  enemy : Option (Enemy α)
deriving Repr

namespace World

/-- The condition under which a script may act on the enemy's nearness. -/
def enemyNearWord : String := "enemyNear"

variable {α : Type}

def initial (l : Level α) (playfield : Playfield α) : World α :=
  { character := ⟨l.start.x, l.start.y, l.speed⟩
    start := l.start
    playfield
    goal := l.goal
    obstacles := l.obstacles.map fun area => ⟨area, true⟩
    targets := l.targets.map fun area => ⟨area, true, false⟩
    enemy := l.enemy.map fun e => ⟨e.area, e.nearX, false, true⟩ }

def withX (w : World α) (x : α) : World α :=
  { w with character := { w.character with x } }

def withSpeed (w : World α) (speed : Int64) : World α :=
  { w with character := { w.character with speed } }

/-- The first target that still stands, with the targets after it is hit. -/
def hitFirst : List (Target α) → Option (Nat × List (Target α))
  | [] => none
  | t :: ts =>
      if t.active && !t.hit then
        some (0, { t with hit := true, active := false } :: ts)
      else
        (hitFirst ts).map fun (index, rest) => (index + 1, t :: rest)

/-- A shot: the index of the target hit and the world after it. -/
def shoot (w : World α) : Option Nat × World α :=
  match hitFirst w.targets with
  | some (index, targets) => (some index, { w with targets })
  | none => (none, w)

def targetsHit (w : World α) : Nat :=
  w.targets.countP Target.hit

def allTargetsHit (w : World α) : Bool :=
  w.targets.all Target.hit

/-- The value of a named condition, if the level has one of that name. -/
def condition? (w : World α) (name : String) : Option Bool :=
  if name = enemyNearWord then w.enemy.map Enemy.near else none

def enemyNear (w : World α) : Bool :=
  w.enemy.any Enemy.near

/-- The world with the enemy near or far, if that changes anything. -/
def withEnemyNear? (w : World α) (near : Bool) : Option (World α) :=
  match w.enemy with
  | some e => if e.near != near then some { w with enemy := some { e with near } } else none
  | none => none

variable [Coordinate α]

def stride (w : World α) : α :=
  Coordinate.ofInt w.character.speed.toInt * w.playfield.stepScale

/-- Where the character comes to stand when it makes for `x`. -/
def reach (w : World α) (x : α) : α :=
  Coordinate.clamp (Coordinate.ofInt 0) w.playfield.maxX x

def moveLeft (w : World α) : World α :=
  w.withX (w.reach (w.character.x - w.stride))

def moveRight (w : World α) : World α :=
  w.withX (w.reach (w.character.x + w.stride))

def moveBack (w : World α) : World α :=
  w.withX (w.reach w.start.x)

def inGoal (w : World α) : Bool :=
  w.goal.any fun area => area.contains w.character.x w.character.y

/-- The first active obstacle that the character has run into. -/
def collision? (w : World α) : Option Nat :=
  w.obstacles.findIdx? fun o =>
    o.active && Coordinate.abs (w.character.x - o.area.x) < w.playfield.collisionMargin

end World

end Playscript
