import Playscript.Action
import Playscript.Decimal.Layout
/-! The clauses of a level's goal. -/
namespace Playscript.Level

/-- One clause that has to hold for a level to be complete. -/
inductive Requirement (α : Type)
  /-- The character stands at `max` or left of it. -/
  | reachX (max : α)
  /-- The character stands in the goal. -/
  | inGoal
  /-- The action has been performed. -/
  | invoked (action : Action)
  /-- The speed has been set from a variable. -/
  | speedFromVariable
  /-- A true condition has led to the retreat. -/
  | retreatHandled
  /-- The action has been called by a loop that ran. -/
  | loopedAction (action : Action)
  /-- Every target is hit. -/
  | allTargetsHit
deriving Repr

def Requirement.text : Requirement Float → String
  | .reachX max => "reach x <= " ++ Decimal.plain max
  | .inGoal => "reach the goal"
  | .invoked action => "use " ++ action.name ++ "()"
  | .speedFromVariable => "set the speed from a variable"
  | .retreatHandled => "retreat when the enemy is near"
  | .loopedAction action => "call " ++ action.name ++ "() inside a loop"
  | .allTargetsHit => "hit every target"

end Playscript.Level
