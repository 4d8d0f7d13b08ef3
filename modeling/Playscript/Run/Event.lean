import Playscript.Action
import Playscript.Decimal.Layout
import Playscript.Duration
/-! The events of a level: everything that happens to its state, in order, for whoever watches. -/
namespace Playscript

inductive Event (α : Type)
  | runStarted
  | moved (action : Action) (before after : α)
  | jumped (x y : α)
  /-- A shot from a place, with the index of the target that it hit. -/
  | shot (x y : α) (target : Option Nat)
  | speedChanged (speed : Int64)
  | variableSet (name : String) (value : Int64)
  /-- An iteration is done and the next one waits. -/
  | pacing (iteration : Int64) (delay : Duration)
  | enemyMoved (near : Bool)
  | obstacleHit (index : Nat)
  | completed
  | reset
  | runFinished (completed : Bool)
deriving Repr

def Event.text : Event Float → String
  | .runStarted => "run started"
  | .moved action before after =>
      action.name ++ ": " ++ Decimal.plain before ++ " -> " ++ Decimal.plain after
  | .jumped x y => "jump at (" ++ Decimal.plain x ++ ", " ++ Decimal.plain y ++ ")"
  | .shot _ _ (some index) => "shot hits target " ++ (index + 1).repr
  | .shot _ _ none => "shot flies wide"
  | .speedChanged speed => "speed is now " ++ toString speed
  | .variableSet name value => name ++ " = " ++ toString value
  | .pacing iteration delay =>
      "iteration " ++ toString iteration ++ " done, pausing " ++ delay.millis.repr ++ "ms"
  | .enemyMoved true => "the enemy moves closer"
  | .enemyMoved false => "the enemy backs away"
  | .obstacleHit index => "ran into obstacle " ++ (index + 1).repr
  | .completed => "level completed"
  | .reset => "level reset"
  | .runFinished done =>
      "run finished (completed: " ++ (if done then "true" else "false") ++ ")"

end Playscript
