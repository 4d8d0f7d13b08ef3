import Playscript.Launch
import Playscript.Prompt.Transcript
import Playscript.Script.Check
/-! The command line: with `check` first it checks a script file, otherwise it plays the game. -/
namespace Playscript.Terminal

def systemText (code : UInt32) (details : String) : String :=
  details ++ " (os error " ++ code.toNat.repr ++ ")"

def reason : IO.Error → String
  | .noFileOrDirectory _ code details => systemText code details
  | .permissionDenied _ code details => systemText code details
  | .inappropriateType _ code details => systemText code details
  | .invalidArgument _ code details => systemText code details
  | .resourceExhausted _ code details => systemText code details
  | .otherError code details => systemText code details
  | e => toString e

def notText : String := "stream did not contain valid UTF-8"

def read (path : String) : IO (Except String String) :=
  try
    let bytes ← (← IO.FS.Handle.mk path .read).readBinToEnd
    return match String.fromUTF8? bytes with
      | some text => .ok text
      | none => .error notText
  catch e => return .error (reason e)

def isDirectory (path : String) : IO Bool :=
  try
    discard (← IO.FS.Handle.mk path .read).readBinToEnd
    return false
  catch
    | .inappropriateType .. => return true
    | _ => return false

def isFile (path : String) : IO Bool :=
  try
    discard (IO.FS.Handle.mk path .read)
    return !(← isDirectory path)
  catch
    | .permissionDenied .. => return true
    | _ => return false

def files : Files IO := ⟨read, isFile, isDirectory⟩

/-- The longest wait in one piece, in milliseconds. -/
def maxSleep : Nat := 1000000000

def wait (delay : Duration) : IO Unit := do
  for _ in [0:delay.millis / maxSleep] do
    IO.sleep maxSleep.toUInt32
  IO.sleep (delay.millis % maxSleep).toUInt32

def perform (d : Display) (out : IO.FS.Stream) (acts : List (Act Float)) : IO Unit := do
  for act in acts do
    out.putStr (act.text d)
    out.flush
    match act with
    | .wait delay => wait delay
    | _ => pure ()

def now : IO Duration := return ⟨← IO.monoNanosNow⟩

/-- What the outside offers for a line. Only the file that the line asks for is read. -/
def outside (p : Prompt Float) (line : String) : IO Outside := do
  let content ← match p.typed, Command.ofLine line with
    | none, .load path => read path
    | _, _ => pure (.error "")
  let seed ← IO.rand 0 1000000000
  return { now := ← now
           coin := fun n => (randBool (mkStdGen (seed + n))).1
           file := fun _ => content }

/-- Plays until the player leaves or the input ends, and answers the exit code. -/
partial def converse (d : Display) (input output : IO.FS.Stream) (p : Prompt Float) :
    IO UInt32 := do
  output.putStr p.cue
  output.flush
  let line? ← try pure (some (← input.getLine)) catch _ => pure none
  match line? with
  | none =>
      let context := if p.typed.isSome then "reading script" else "reading command"
      IO.eprint (Failure.report ⟨context, [notText]⟩)
      return 1
  | some line =>
      let (acts, next) ←
        if line.isEmpty then pure p.endOfInput
        else
          let line := Prompt.dropLineEnd line
          pure (p.respond (← outside p line) line)
      perform d output acts
      if next.closed then return 0 else converse d input output next

def finish (o : Outcome) : IO UInt32 := do
  IO.print o.output
  IO.eprint o.errors
  return o.exit.toUInt32

def play (arguments : List String) : IO UInt32 := do
  match ← Launch.prepare files Launch.dataDirectories arguments with
  | .error outcome => finish outcome
  | .ok campaign =>
      let output ← IO.getStdout
      let d : Display := ⟨80, ← output.isTty⟩
      output.putStr (Launch.greeting d)
      let (acts, p) := Prompt.start campaign (← now)
      perform d output acts
      converse d (← IO.getStdin) output p

end Playscript.Terminal

open Playscript in
def main (arguments : List String) : IO UInt32 := do
  match arguments with
  | "check" :: _ | "--" :: "check" :: _ =>
      Terminal.finish (← Script.Check.run Terminal.files arguments)
  | _ => Terminal.play arguments
