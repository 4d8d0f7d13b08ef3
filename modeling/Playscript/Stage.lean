import Playscript.Run.Completion
import Playscript.Script.Recognizer
/-! A stage: a level set up on its playfield, ready to be played. -/
namespace Playscript

structure Stage (α : Type) where
  level : Level α
  playfield : Playfield α

namespace Stage

variable {α : Type}

def ofCatalog? (c : Catalog α) (kind : Level.Kind) : Option (Stage α) :=
  (c.level? kind).map fun level => ⟨level, c.playfield⟩

def initialWorld (s : Stage α) : World α :=
  .initial s.level s.playfield

def recognize (s : Stage α) (source : String) : List Script.Statement :=
  Script.recognize source s.level.allowed

/-- Whether the level is complete in a world, given the techniques used. -/
def isComplete [Coordinate α] (s : Stage α) (w : World α) (t : Techniques) : Bool :=
  Level.allMet s.level.requirements w t

end Stage

end Playscript
