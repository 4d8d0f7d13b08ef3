import Playscript.Run.Loop
import Playscript.Run.Scene
/-! What statements do. Each statement is an effect on the scene; a statement that cannot be carried
out leaves an issue and changes nothing. -/
namespace Playscript.Script

variable {α : Type}

def assign (name : String) (value : Int64) : Effect α := fun scene =>
  let verb := if scene.bindings.contains name then "updated" else "created"
  ({ scene with bindings := scene.bindings.set name value },
    .line ("Variable " ++ verb ++ ": " ++ name ++ " = " ++ toString value) ++
      .event (.variableSet name value))

def invoke (action : Action) (t : Techniques) : Techniques :=
  { t with invoked := t.invoked.insert action }

def announce (action : Action) : Output α :=
  .line ("Executing: " ++ action.name ++ "()")

/-- A move to another place. -/
def move (action : Action) (go : World α → World α) : Effect α := fun scene =>
  let world := go scene.world
  ({ scene with world, techniques := invoke action scene.techniques },
    announce action ++ .event (.moved action scene.world.character.x world.character.x))

def jump : Effect α := fun scene =>
  ({ scene with techniques := invoke .jump scene.techniques },
    announce .jump ++ .event (.jumped scene.world.character.x scene.world.character.y))

def shoot : Effect α := fun scene =>
  let shot := scene.world.shoot
  let result := match shot.1 with
    | some index =>
        "Target " ++ (index + 1).repr ++ " hit! (" ++ shot.2.targetsHit.repr ++ "/" ++
          shot.2.targets.length.repr ++ ")"
    | none => "Shot missed: no targets left"
  ({ scene with world := shot.2, techniques := invoke .shoot scene.techniques },
    announce .shoot ++ .line result ++
      .event (.shot scene.world.character.x scene.world.character.y shot.1))

/-- The value of an argument, or the issue of having none. -/
def Argument.value? (bindings : Variables) : Option Argument → Except Issue Int64
  | none => .error (.missingArgument .setSpeed)
  | some (.literal value) => .ok value
  | some (.named name) =>
      match bindings.get? name with
      | some value => .ok value
      | none => .error (.undefinedVariable name)

/-- Sets the speed, if the argument has a value in range. -/
def setSpeed (argument : Option Argument) : Effect α := fun scene =>
  match Argument.value? scene.bindings argument with
  | .error issue => (scene, .issue issue)
  | .ok value =>
      if isSpeed value then
        let techniques := invoke .setSpeed scene.techniques
        let world := scene.world.withSpeed value
        match argument with
        | some (.named name) =>
            ({ scene with world, techniques := { techniques with speedFromVariable := true } },
              .line ("Set speed to " ++ toString value ++ " using variable " ++ name) ++
                .event (.speedChanged value))
        | _ =>
            ({ scene with world, techniques },
              .line ("Set speed to " ++ toString value) ++ .event (.speedChanged value))
      else
        (scene, .issue (.outOfRange value))

def perform [Coordinate α] (action : Action) (argument : Option Argument) : Effect α :=
  match action with
  | .moveLeft => move .moveLeft World.moveLeft
  | .moveRight => move .moveRight World.moveRight
  | .moveBack => move .moveBack World.moveBack
  | .jump => jump
  | .shoot => shoot
  | .setSpeed => setSpeed argument

/-- Runs a block if its condition is true. The condition is read once, before the block. -/
def branch (retreat : Option Action) (condition : String) (body : List Statement)
    (block : Effect α) : Effect α := fun scene =>
  match scene.world.condition? condition with
  | none =>
      (scene, .issue (.unknownCondition condition) ++
        .line "Condition is false, skipping if block")
  | some false =>
      (scene, .line ("Checking condition: " ++ condition ++ " is false") ++
        .line "Condition is false, skipping if block")
  | some true =>
      let handled := retreat.any fun action => body.any fun s => s.calls action
      let taken : Effect α := fun scene =>
        let t := scene.techniques
        ({ scene with techniques :=
            { t with
              conditionalTaken := true
              retreatHandled := t.retreatHandled || handled } },
          .line ("Checking condition: " ++ condition ++ " is true") ++
            .line "Condition is true, executing if block")
      taken.andThen block scene

def refuseLoop (counter : String) (first stop : Int64) : Effect α :=
  .tell (.issue (.malformedLoop (Statement.loopHeader counter first stop)
    ("loops are limited to " ++ toString maxIterations ++ " iterations")))

/-- Notes that a loop runs zero times. -/
def skipLoop (counter : String) (first stop : Int64) : Effect α :=
  .tell (.line ("For loop with " ++ counter ++ " from " ++ toString first ++ " to " ++
    toString stop ++ " runs zero times"))

/-- Notes the range of a loop and the actions that its body calls. -/
def openLoop (counter : String) (first stop : Int64) (body : List Statement) : Effect α :=
  fun scene =>
    let called := body.filterMap Statement.called?
    let t := scene.techniques
    ({ scene with techniques :=
        { t with
          usedLoop := t.usedLoop || !called.isEmpty
          loopedActions := t.loopedActions.union (.ofList called) } },
      .line ("Executing for loop with " ++ counter ++ " from " ++ toString first ++ " to " ++
        toString (stop - 1)))

def iterate (counter : String) (iteration : Int64) (block : Effect α) : Effect α :=
  Effect.andThen (.tell (.line ("Loop iteration: " ++ counter ++ " = " ++ toString iteration)))
    block

variable [Coordinate α]

mutual

/-- The effect of a statement on a level with this retreat action. -/
def Statement.run (retreat : Option Action) : Statement → Effect α
  | .assign name value => assign name value
  | .act action argument => perform action argument
  | .branch condition body => branch retreat condition body (runAll retreat body)
  | .loop counter first stop body =>
      match Loop.entry first stop with
      | .tooLong => refuseLoop counter first stop
      | .empty => skipLoop counter first stop
      | .entered =>
          (openLoop counter first stop body).andThen
            (.all ((Loop.span first stop).map fun i => iterate counter i (runAll retreat body)))
  | .unrecognized text line _ => .tell (.issue (.unrecognized text line))
  | .malformedLoop header _ reason => .tell (.issue (.malformedLoop header reason))

def runAll (retreat : Option Action) : List Statement → Effect α
  | [] => .skip
  | s :: rest => (s.run retreat).andThen (runAll retreat rest)

end

end Playscript.Script
