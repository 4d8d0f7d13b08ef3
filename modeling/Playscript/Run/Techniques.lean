import Playscript.Action
/-! The techniques that the scripts of an attempt have used. They are only ever added to. -/
namespace Playscript

structure Techniques where
  invoked : ActionSet
  /-- The speed was set from a variable. -/
  speedFromVariable : Bool
  /-- A condition was true and its block ran. -/
  conditionalTaken : Bool
  /-- A true condition's block that calls the retreat action ran. -/
  retreatHandled : Bool
  /-- A loop that calls an action ran at least once. -/
  usedLoop : Bool
  loopedActions : ActionSet

namespace Techniques

def none : Techniques :=
  { invoked := .empty
    speedFromVariable := false
    conditionalTaken := false
    retreatHandled := false
    usedLoop := false
    loopedActions := .empty }

instance : Inhabited Techniques := ⟨none⟩

def isEmpty (t : Techniques) : Bool :=
  t.invoked.isEmpty && !t.speedFromVariable && !t.conditionalTaken && !t.retreatHandled &&
    !t.usedLoop && t.loopedActions.isEmpty

end Techniques

end Playscript
