import Playscript.Decimal.Numeral
import Playscript.Level.Basic
/-! A catalog: the levels of the game and the playfield they share. -/
namespace Playscript

structure Catalog (α : Type) where
  playfield : Playfield α
  levels : List (Level α)

namespace Catalog

variable {α : Type}

def level? (c : Catalog α) (kind : Level.Kind) : Option (Level α) :=
  c.levels.find? fun l => l.kind == kind

def levelByNumber? (c : Catalog α) (number : UInt32) : Option (Level α) :=
  c.levels.find? fun l => l.number == number

/-- The levels in play order: by number, and as listed where numbers are equal. -/
def ordered (c : Catalog α) : List (Level α) :=
  c.levels.mergeSort fun a b => a.number ≤ b.number

/-- The kind of the level that a text means: by number if it is one, else by slug or by name, both
in any case. -/
def kindNamed? (c : Catalog α) (text : String) : Option Level.Kind :=
  let name := Text.trimmed text
  match Decimal.toUInt32? name.toList with
  | some number => (c.levelByNumber? number).map Level.kind
  | none =>
      ((Level.Kind.ofSlug? name).filter fun kind => (c.level? kind).isSome).or
        ((c.levels.find? fun l => Text.sameIgnoringCase l.name name).map Level.kind)

end Catalog

end Playscript
