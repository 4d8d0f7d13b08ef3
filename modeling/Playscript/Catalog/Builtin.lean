import Playscript.Catalog.Basic
/-! The catalog that comes with the game. All its coordinates are whole numbers. -/
namespace Playscript.Catalog.Builtin

def textOf (lines : List String) : String :=
  "\n".intercalate lines

variable {α : Type} [Coordinate α]

def area (x y width height : Int) : Area α :=
  ⟨Coordinate.ofInt x, Coordinate.ofInt y, Coordinate.ofInt width, Coordinate.ofInt height⟩

def point (x y : Int) : Point α :=
  ⟨Coordinate.ofInt x, Coordinate.ofInt y⟩

def commandsLevel : Level α :=
  { kind := .commands
    number := 1
    name := "Learn Commands"
    instructions := textOf
      ["Welcome to CodeQuest! In this level, you'll learn basic commands.",
       "Commands are instructions that tell the computer what to do.",
       "Your goal: Use the moveLeft() and jump() commands to reach the green area."]
    starterCode := textOf
      ["// Type your commands here",
       "// Try using moveLeft() and jump()",
       "",
       "",
       ""]
    help := textOf
      ["Commands are instructions that tell the computer what to do.",
       "In this level, you can use these commands:",
       "- moveLeft() - Moves the character to the left",
       "- jump() - Makes the character jump",
       "Make sure to end each command with parentheses () and a semicolon ;"]
    allowed := .ofList [.moveLeft, .jump]
    start := point 150 200
    speed := 5
    goal := some (area 0 200 100 50)
    obstacles := []
    targets := []
    enemy := none
    retreat := none
    requirements := [.reachX (Coordinate.ofInt 100), .invoked .moveLeft, .invoked .jump] }

def variablesLevel : Level α :=
  { kind := .variables
    number := 2
    name := "Learn Variables"
    instructions := textOf
      ["Great job with commands! Now let's learn about variables.",
       "Variables are containers that store values.",
       "Your goal: Create a speed variable and use it to move your character to the green area."]
    starterCode := textOf
      ["// Create a variable called 'speed' and set it to a number",
       "speed = 10;",
       "",
       "// Then use the setSpeed command with your variable",
       "setSpeed(speed);",
       "",
       "// Finally, move to the goal",
       "moveRight();",
       ""]
    help := textOf
      ["Variables store information that your program can use later.",
       "To create a variable:",
       "1. Choose a name (like 'speed')",
       "2. Use the equals sign (=) to assign a value",
       "3. End with a semicolon (;)",
       "",
       "Example: speed = 10;",
       "",
       "Then use your variable with commands:",
       "setSpeed(speed); - Sets the character's speed to your variable's value",
       "moveRight(); - Moves the character to the right"]
    allowed := .ofList [.moveLeft, .moveRight, .setSpeed]
    start := point 50 200
    speed := 5
    goal := some (area 600 200 150 100)
    obstacles := []
    targets := []
    enemy := none
    retreat := none
    requirements := [.inGoal, .speedFromVariable] }

def conditionalsLevel : Level α :=
  { kind := .conditionals
    number := 3
    name := "Learn Conditionals"
    instructions := textOf
      ["Great progress! Now let's learn about conditionals.",
       "Conditionals let your program make decisions based on conditions.",
       "Your goal: Use an if statement to move back when the enemy is near, then reach " ++
        "the green area."]
    starterCode := textOf
      ["// Use an if statement to check if enemy is near",
       "// Example: if (enemyNear == true) \x7b",
       "//     moveBack();",
       "// \x7d",
       "",
       "// Then move to the goal",
       "// moveRight();",
       ""]
    help := textOf
      ["Conditionals let your program make decisions.",
       "The basic form is:",
       "",
       "if (condition) \x7b",
       "    // code to run if condition is true",
       "\x7d",
       "",
       "You can check:",
       "- enemyNear == true (or just enemyNear) - Is the enemy close?",
       "",
       "If the condition is true, the code inside the curly braces will run.",
       "In this level, you need to:",
       "1. Check if the enemy is near",
       "2. If so, move back",
       "3. Then move right to reach the goal"]
    allowed := .ofList [.moveLeft, .moveRight, .moveBack, .setSpeed]
    start := point 50 200
    speed := 5
    goal := some (area 500 200 100 50)
    obstacles := []
    targets := []
    enemy := some ⟨area 300 200 40 40, Coordinate.ofInt 200⟩
    retreat := some .moveBack
    requirements := [.inGoal, .retreatHandled] }

def loopsLevel : Level α :=
  { kind := .loops
    number := 4
    name := "Learn Loops"
    instructions := textOf
      ["You're doing great! Now let's learn about loops.",
       "Loops let you repeat actions multiple times without writing the same code over and over.",
       "Your goal: Use a for loop to shoot at all the targets, then reach the green area."]
    starterCode := textOf
      ["// Use a for loop to shoot multiple times",
       "// Example: for (int i = 0; i < 3; i++) \x7b",
       "//     shoot();",
       "// \x7d",
       "",
       "// Then move to the goal",
       "// moveRight();",
       ""]
    help := textOf
      ["Loops let you repeat code multiple times.",
       "A for loop has three parts:",
       "",
       "for (initialization; condition; update) \x7b",
       "    // code to repeat",
       "\x7d",
       "",
       "For example:",
       "for (int i = 0; i < 3; i++) \x7b",
       "    shoot();",
       "\x7d",
       "",
       "This means:",
       "1. Start with i = 0",
       "2. Check if i < 3 (if true, run the code inside)",
       "3. After running the code, add 1 to i (i++)",
       "4. Repeat steps 2-3 until i is not less than 3",
       "",
       "In this level, use a loop to shoot at all 3 targets."]
    allowed := .ofList [.moveLeft, .moveRight, .shoot, .setSpeed]
    start := point 50 200
    speed := 5
    goal := some (area 500 200 100 50)
    obstacles := []
    targets :=
      [area 200 100 30 30,
        area 300 150 30 30,
        area 400 200 30 30]
    enemy := none
    retreat := none
    requirements := [.allTargetsHit, .loopedAction .shoot, .inGoal] }

def freeRoamLevel : Level α :=
  { kind := .freeRoam
    number := 5
    name := "Free Roam Challenge"
    instructions := textOf
      ["Congratulations on making it to the final level!",
       "Now it's time to apply everything you've learned.",
       "Your goal: Create a program that avoids obstacles, hits all targets, and " ++
        "reaches the goal area."]
    starterCode := textOf
      ["// This is the final challenge!",
       "// Use everything you've learned to create a program that:",
       "// 1. Sets a speed variable",
       "// 2. Uses an if statement to check for the enemy",
       "// 3. Uses a loop to shoot at targets",
       "// 4. Moves to the goal",
       "",
       "// Set speed",
       "",
       "// Check for enemy",
       "",
       "// Shoot targets with a loop",
       "",
       "// Move to goal",
       ""]
    help := textOf
      ["This final level tests all the concepts you've learned:",
       "",
       "1. Variables:",
       "   speed = 10;",
       "   setSpeed(speed);",
       "",
       "2. Conditionals:",
       "   if (enemyNear) \x7b",
       "       moveBack();",
       "   \x7d",
       "",
       "3. Loops:",
       "   for (int i = 0; i < 4; i++) \x7b",
       "       shoot();",
       "   \x7d",
       "",
       "4. Commands:",
       "   moveRight();",
       "   moveLeft();",
       "   jump();",
       "",
       "Combine these concepts to complete the challenge!"]
    allowed := .ofList [.moveLeft, .moveRight, .jump, .shoot, .moveBack, .setSpeed]
    start := point 50 200
    speed := 5
    goal := some (area 500 200 80 80)
    obstacles :=
      [area 120 200 30 100,
        area 270 200 30 100,
        area 420 200 30 100]
    targets :=
      [area 150 100 25 25,
        area 250 300 25 25,
        area 350 100 25 25,
        area 450 300 25 25]
    enemy := some ⟨area 250 200 40 40, Coordinate.ofInt 170⟩
    retreat := some .moveBack
    requirements := [.allTargetsHit, .inGoal] }

end Playscript.Catalog.Builtin

namespace Playscript.Catalog

/-- The levels that come with the game, on the standard playfield. -/
def builtin {α : Type} [Coordinate α] : Catalog α :=
  { playfield := .standard
    levels := [Builtin.commandsLevel, Builtin.variablesLevel, Builtin.conditionalsLevel,
      Builtin.loopsLevel, Builtin.freeRoamLevel] }

end Playscript.Catalog
