import Playscript.Coordinate
/-! Points and areas of the playfield, in pixels, with `y` growing downwards. -/
namespace Playscript

structure Point (α : Type) where
  x : α
  y : α
deriving Repr

/-- An upright rectangle given by its top left corner and its size. -/
structure Area (α : Type) where
  x : α
  y : α
  width : α
  height : α
deriving Repr

namespace Area

variable {α : Type} [Coordinate α]

def right (r : Area α) : α :=
  r.x + r.width

def bottom (r : Area α) : α :=
  r.y + r.height

/-- The edges belong to the area. -/
def contains (r : Area α) (x y : α) : Bool :=
  r.x ≤ x && x ≤ r.right && r.y ≤ y && y ≤ r.bottom

/-- Nothing fits into an area whose width or height is not positive. -/
def isEmpty (r : Area α) : Bool :=
  r.width ≤ Coordinate.ofInt 0 || r.height ≤ Coordinate.ofInt 0

def withX (r : Area α) (x : α) : Area α :=
  { r with x }

end Area

structure Playfield (α : Type) where
  width : α
  height : α
  characterWidth : α
  characterHeight : α
  /-- Pixels moved for one unit of speed. -/
  stepScale : α
  /-- An obstacle nearer than this to the character, sideways, is run into. -/
  collisionMargin : α
deriving Repr

namespace Playfield

variable {α : Type} [Coordinate α]

def standard : Playfield α :=
  { width := Coordinate.ofInt 1004
    height := Coordinate.ofInt 330
    characterWidth := Coordinate.ofInt 80
    characterHeight := Coordinate.ofInt 48
    stepScale := Coordinate.ofInt 10
    collisionMargin := Coordinate.ofInt 30 }

/-- The largest `x` of the character's left edge, zero where there is no room. -/
def maxX (p : Playfield α) : α :=
  let room := p.width - p.characterWidth
  if Coordinate.ofInt 0 < room then room else Coordinate.ofInt 0

end Playfield

end Playscript
