import Playscript.Campaign
import Playscript.Prompt.Item
/-! The prompt: a campaign played line by line. A line is a command, or a line of the script that
the player is typing. An answer is a list of acts for the terminal, and the next state; the time,
the coins of chance and the files come from outside with each line. -/
namespace Playscript

/-- What the world outside offers while a line is answered. -/
structure Outside where
  now : Duration
  coin : Nat → Bool
  /-- The text of a file, or why it cannot be read. -/
  file : String → Except String String

/-- What the terminal is to do. -/
inductive Act (α : Type)
  | page (items : List (Item α))
  | line (text : String)
  | wait (delay : Duration)

structure Prompt (α : Type) where
  campaign : Campaign α
  /-- The listener of the prompt in the current session. -/
  listener : Nat
  /-- Events that are taken from the listener and not yet put on the page. -/
  heard : List (Event α)
  /-- The script that `run` executes. -/
  script : String
  /-- When time last passed for the enemy. -/
  lastTick : Duration
  /-- What is to be shown next. -/
  items : List (Item α)
  /-- The lines of the script that is being typed, if one is. -/
  typed : Option (List String)
  /-- The player has left. -/
  closed : Bool

/-- Events that the player sees as they happen. -/
def Event.isShown {α : Type} : Event α → Bool
  | .pacing .. => false
  | .runStarted => false
  | .runFinished _ => false
  | _ => true

namespace Prompt

/-- The line that ends a typed script. -/
def scriptEnd : String := "."

def typingHint : String :=
  "Enter your code. Finish with a line containing only `" ++ scriptEnd ++ "`."

def completedHint : String := "Type `next` to continue to the next level."

def finishedMessage : String := "You finished every level of CodeQuest!"

def farewell : String := "Thanks for playing CodeQuest!"

def unknownMessage (text : String) : String :=
  "I don't know the command `" ++ text ++ "`. Type `help` for a list."

def unreadableMessage (path reason : String) : String :=
  "Could not read `" ++ path ++ "`: " ++ reason

variable {α : Type}

def session (p : Prompt α) : Session α := p.campaign.session

def withSession (p : Prompt α) (s : Session α) : Prompt α :=
  { p with campaign := { p.campaign with session := s } }

def push (p : Prompt α) (item : Item α) : Prompt α :=
  { p with items := p.items ++ [item] }

def gather (p : Prompt α) : Prompt α :=
  let taken := p.session.collect p.listener
  { p.withSession taken.2 with heard := p.heard ++ taken.1 }

def drain (p : Prompt α) : Prompt α :=
  let q := p.gather
  { q with heard := [], items := q.items ++ (q.heard.filter Event.isShown).map .event }

/-- Shows the page and begins a new one. -/
def flush (p : Prompt α) : List (Act α) × Prompt α :=
  ([.page p.items], { p with items := [] })

/-- Puts the events on the page and shows it. -/
def settle (p : Prompt α) : List (Act α) × Prompt α :=
  p.drain.flush

def attach (p : Prompt α) : Prompt α :=
  let subscribed := p.session.subscribe
  { p.withSession subscribed.2 with listener := subscribed.1 }

/-- Begins a level that the campaign has just entered. -/
def enterLevel (p : Prompt α) (now : Duration) : Prompt α :=
  let level := p.session.stage.level
  { p.attach with script := level.starterCode, lastTick := now }.push
    (.intro level.title level.instructions)

/-- Lets the time since the last tick pass for the enemy. -/
def tick (p : Prompt α) (o : Outside) : Prompt α :=
  let passed := p.session.advanceClock (o.now.since p.lastTick) o.coin
  { p.withSession passed.2 with lastTick := o.now }.gather

/-- A prompt on a campaign, with the page that introduces the level. -/
def start (c : Campaign α) (now : Duration) : List (Act α) × Prompt α :=
  let p : Prompt α :=
    { campaign := c, listener := 0, heard := [], script := "", lastTick := now, items := []
      typed := none, closed := false }
  (p.enterLevel now).flush

/-- What stands in front of the next line. -/
def cue (p : Prompt α) : String :=
  match p.typed with
  | some _ => "... "
  | none => p.campaign.currentKind.slug ++ "> "

/-! ## Commands -/

def levelRows (c : Campaign α) : List LevelRow :=
  c.catalog.ordered.map fun l =>
    { number := l.number, name := l.name, slug := l.kind.slug, current := l.kind == c.currentKind }

def selectLevel (p : Prompt α) (now : Duration) (name : String) : Prompt α :=
  match p.campaign.catalog.kindNamed? name with
  | none => p.push (.error (SessionError.unknownLevel name).message)
  | some kind =>
      match p.campaign.select kind with
      | (.ok (), c) => { p with campaign := c }.enterLevel now
      | (.error e, c) => { p with campaign := c }.push (.error e.message)

def nextLevel (p : Prompt α) (now : Duration) : Prompt α :=
  match p.campaign.advance with
  | (.ok (.level _), c) => { p with campaign := c }.enterLevel now
  | (.ok .finished, c) => { p with campaign := c }.push (.praise finishedMessage)
  | (.error e, c) => { p with campaign := c }.push (.error e.message)

def resetLevel (p : Prompt α) : Prompt α :=
  let reset := p.session.reset
  ({ p.withSession reset.2 with script := reset.1 }.push (.notice Session.resetMessage)).push
    (.code reset.1)

def loadScript (p : Prompt α) (o : Outside) (path : String) : Prompt α :=
  match o.file path with
  | .ok text => { p with script := text }.push (.code text)
  | .error reason => p.push (.error (unreadableMessage path reason))

/-- Takes the typed lines as the script. -/
def finishTyping (p : Prompt α) (lines : List String) : List (Act α) × Prompt α :=
  let script := "\n".intercalate lines
  ({ p with script, typed := none }.push (.code script)).settle

theorem pauses_collect (s : Session α) (index : Nat) :
    (s.collect index).2.pauses = s.pauses := by
  unfold Session.collect
  split <;> rfl

variable [Coordinate α]

/-- Plays a run to its end and shows what has happened before each pause. -/
def playOn (p : Prompt α) (ticket : Ticket) : List (Act α) × Prompt α :=
  match _h : p.session.resume ticket with
  | (.paused _ delay, s) =>
      let shown := (p.withSession s).settle
      let later := shown.2.playOn ticket
      (shown.1 ++ .wait delay :: later.1, later.2)
  | (.finished report, s) =>
      let q := (p.withSession s).drain.push (.trace report.log)
      ([], if report.newlyCompleted then q.push (.praise completedHint) else q)
  | (.cancelled, s) => ([], (p.withSession s).push (.error SessionError.runCancelled.message))
termination_by p.session.pauses
decreasing_by
  have := Session.pauses_resume (congrArg Prod.fst _h)
  simp only [_h] at this
  have same : (p.withSession s).settle.2.session.pauses = s.pauses := pauses_collect s p.listener
  omega

def runScript (p : Prompt α) : List (Act α) × Prompt α :=
  match p.session.begin p.script with
  | (.ok ticket, s) => (p.withSession s).playOn ticket
  | (.error e, s) => ([], (p.withSession s).push (.error e.message))

def perform (p : Prompt α) (o : Outside) : Command → List (Act α) × Prompt α
  | .help =>
      ([], (p.push (.commandHelp Command.usages)).push (.levelHelp p.session.stage.level.help))
  | .instructions => ([], p.push (.instructions p.session.stage.level.instructions))
  | .levels => ([], p.push (.levels (levelRows p.campaign)))
  | .level name => ([], p.selectLevel o.now name)
  | .look => ([], p.push (.picture p.session.scene.world.snapshot))
  | .snapshot => ([], p.push (.document p.session.scene.world.snapshot))
  | .code => ([], p.push (.code p.script))
  | .edit => ([.line typingHint], { p with typed := some [] })
  | .load path => ([], p.loadScript o path)
  | .run => p.runScript
  | .reset => ([], p.resetLevel)
  | .next => ([], p.nextLevel o.now)
  | .quit => ([], { p with closed := true }.push (.notice farewell))
  | .unknown text => ([], p.push (.error (unknownMessage text)))

def answer (p : Prompt α) (o : Outside) (c : Command) : List (Act α) × Prompt α :=
  let performed := (p.tick o).perform o c
  match performed.2.typed with
  | some _ => performed
  | none =>
      let settled := performed.2.settle
      (performed.1 ++ settled.1, settled.2)

/-- Answers a line. Blank lines are no commands. -/
def respond (p : Prompt α) (o : Outside) (line : String) : List (Act α) × Prompt α :=
  match p.typed with
  | some lines =>
      if Text.trimmed line = scriptEnd then p.finishTyping lines
      else ([], { p with typed := some (lines ++ [line]) })
  | none => if Text.isBlankText line then ([], p) else p.answer o (Command.ofLine line)

/-- Answers the end of the input: it ends a script that is being typed, or else the game. -/
def endOfInput (p : Prompt α) : List (Act α) × Prompt α :=
  match p.typed with
  | some lines => p.finishTyping lines
  | none => ([], { p with closed := true })

end Prompt

end Playscript
