import Playscript.Run.Techniques
import Playscript.World.Basic
/-! When a level is complete. -/
namespace Playscript.Level

variable {α : Type} [Coordinate α]

/-- Whether a requirement holds in a world, given the techniques used. -/
def Requirement.isMet (r : Requirement α) (w : World α) (t : Techniques) : Bool :=
  match r with
  | .reachX max => w.character.x ≤ max
  | .inGoal => w.inGoal
  | .invoked action => action ∈ t.invoked
  | .speedFromVariable => t.speedFromVariable
  | .retreatHandled => t.retreatHandled
  | .loopedAction action => action ∈ t.loopedActions
  | .allTargetsHit => w.allTargetsHit

/-- Whether all requirements hold. Of no requirements it never holds. -/
def allMet (rs : List (Requirement α)) (w : World α) (t : Techniques) : Bool :=
  !rs.isEmpty && rs.all fun r => r.isMet w t

end Playscript.Level
