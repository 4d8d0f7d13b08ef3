/-! Coordinates. A level is laid out and played over any type with the few operations below. The
game itself is played over doubles; over an exact ordered ring the same definitions describe the
game without rounding. -/
namespace Playscript

class Coordinate (α : Type) extends Add α, Sub α, Mul α, LT α, LE α where
  ofInt : Int → α
  abs : α → α
  decidableLT : DecidableLT α
  decidableLE : DecidableLE α

namespace Coordinate

instance {α : Type} [Coordinate α] : DecidableLT α := decidableLT

instance {α : Type} [Coordinate α] : DecidableLE α := decidableLE

instance : Coordinate Float where
  ofInt := Float.ofInt
  abs := Float.abs
  decidableLT := fun a b => inferInstanceAs (Decidable (a < b))
  decidableLE := fun a b => inferInstanceAs (Decidable (a ≤ b))

variable {α : Type} [Coordinate α]

/-- The point of the range from `low` to `high` nearest to `x`; what compares with neither end, as
an undefined number does, is left alone. -/
def clamp (low high x : α) : α :=
  if x < low then low else if high < x then high else x

end Coordinate

end Playscript
