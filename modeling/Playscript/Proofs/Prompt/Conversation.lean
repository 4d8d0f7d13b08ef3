import Playscript.Catalog.Builtin
import Playscript.Prompt.Transcript
import Playscript.Proofs.Campaign.Unlocking
import Playscript.Proofs.Prompt.Requests
/-! Conversations at the prompt. Whatever lines are read, whenever they come, the prompt is left
with no run that is active, as the one listener of the current session, and with nothing that it has
heard and not shown. So a script can always be run, and the player sees all events of all sessions,
each of them once and in the order in which they happen. -/
namespace Playscript.Prompt

variable {α : Type} [Coordinate α] {p q : Prompt α}

/-! ## Input -/

/-- A line with what the outside offers for it, or the end of the input. -/
inductive Input
  | line (o : Outside) (text : String)
  | ended

def read (p : Prompt α) : Input → List (Act α) × Prompt α
  | .line o text => p.respond o text
  | .ended => p.endOfInput

def readAll (p : Prompt α) : List Input → List (Act α) × Prompt α
  | [] => ([], p)
  | input :: rest =>
      let first := p.read input
      let later := first.2.readAll rest
      (first.1 ++ later.1, later.2)

/-- What the prompt asks of its campaign when it lets time pass. -/
def requestsToTick (p : Prompt α) (o : Outside) : List Campaign.Operation :=
  [.play (.advanceClock (o.now.since p.lastTick) o.coin), .play (.collect p.listener)]

/-- What the prompt asks of its campaign to answer a command. -/
def requestsToAnswer (p : Prompt α) (o : Outside) (c : Command) : List Campaign.Operation :=
  p.requestsToTick o ++ (p.tick o).requestsOf c ++
    if c = .edit then [] else [.play (.collect p.listener)]

def requests (p : Prompt α) : Input → List Campaign.Operation
  | .line o text =>
      match p.typed with
      | some _ => if Text.trimmed text = scriptEnd then [.play (.collect p.listener)] else []
      | none => if Text.isBlankText text then [] else p.requestsToAnswer o (Command.ofLine text)
  | .ended =>
      match p.typed with
      | some _ => [.play (.collect p.listener)]
      | none => []

def requestsOver (p : Prompt α) : List Input → List Campaign.Operation
  | [] => []
  | input :: rest => p.requests input ++ (p.read input).2.requestsOver rest

/-! ## Single lines -/

/-- The prompt waits for a line. What the tick of `edit` has told is shown with the script that is
being typed. -/
structure Waiting (p : Prompt α) : Prop extends Idle p where
  items : p.items = []
  heard : p.typed = none → p.heard = []

/-- The way from one line to the next. -/
structure Answers (p : Prompt α) (ops : List Campaign.Operation) (acts : List (Act α))
    (q : Prompt α) : Prop extends Relays p ops acts q where
  waiting : q.Waiting

theorem Attends.waiting_settle (h : p.Attends) (hcatalog : p.campaign.OnCatalog)
    (hactive : p.session.active = none) : p.settle.2.Waiting where
  onCatalog := h.settle.campaign ▸ hcatalog.performAll _
  attends := h.settle.attends
  queued := h.queued_gather
  active := p.active_gather.trans hactive
  items := rfl
  heard := fun _ => rfl

omit [Coordinate α] in
theorem Idle.note (h : p.Idle) (script : String) (lastTick : Duration)
    (typed : Option (List String)) (closed : Bool) :
    ({ p with script, lastTick, typed, closed } : Prompt α).Idle :=
  ⟨h.onCatalog, ⟨h.attends.listener, h.attends.alone⟩, h.queued, h.active⟩

theorem Idle.tick (h : p.Idle) (o : Outside) :
    p.Completes (p.requestsToTick o) [] (p.tick o) ∧ (p.tick o).Idle := by
  have hpassed := (h.attends.play (.advanceClock (o.now.since p.lastTick) o.coin) rfl).note
    p.script o.now p.typed p.closed
  have htick : p.Relays _ [] (p.tick o) := hpassed.trans hpassed.attends.gather
  have hactive : (p.tick o).session.active = none := by
    rw [Prompt.tick, active_gather]
    change (p.session.advanceClock _ _).2.active = none
    rw [Session.advanceClock]
    split <;> exact h.active
  refine ⟨⟨htick, hactive, rfl⟩, ?_, htick.attends, hpassed.attends.queued_gather, hactive⟩
  rw [htick.campaign]
  exact h.onCatalog.performAll _

/-- A script is about to be typed. -/
theorem Waiting.edit (h : p.Waiting) (o : Outside) :
    p.Answers (p.requestsToAnswer o .edit) (p.answer o .edit).1 (p.answer o .edit).2 := by
  obtain ⟨htick, hidle⟩ := h.tick o
  have hanswer : p.answer o .edit = ([.line typingHint], { p.tick o with typed := some [] }) := rfl
  have hasked : (p.tick o).Relays [] [.line typingHint] { p.tick o with typed := some [] } :=
    hidle.attends.quiet rfl rfl rfl rfl
  rw [hanswer, requestsToAnswer, if_pos rfl, List.append_nil]
  -- what the tick has told stays with the prompt until the script is typed
  exact ⟨htick.trans hasked, ⟨hidle.note .., h.items, nofun⟩⟩

theorem Waiting.answer_eq (h : p.Waiting) (htyped : p.typed = none) (o : Outside) {c : Command}
    (hc : c ≠ .edit) :
    let performed := (p.tick o).perform o c
    p.answer o c = (performed.1 ++ performed.2.settle.1, performed.2.settle.2) := by
  obtain ⟨htick, hidle⟩ := h.tick o
  have hsame : ((p.tick o).perform o c).2.typed = none :=
    (hidle.perform o hc).typed.trans (htick.typed.trans htyped)
  rw [Prompt.answer]
  dsimp only
  rw [hsame]

theorem Waiting.answer (h : p.Waiting) (htyped : p.typed = none) (o : Outside) (c : Command) :
    p.Answers (p.requestsToAnswer o c) (p.answer o c).1 (p.answer o c).2 := by
  by_cases hc : c = .edit
  · subst hc
    exact h.edit o
  · obtain ⟨htick, hidle⟩ := h.tick o
    have hperformed := hidle.perform o hc
    have hlistener : p.listener = ((p.tick o).perform o c).2.listener :=
      h.attends.listener.trans hperformed.attends.listener.symm
    have hcatalog := hperformed.campaign ▸ hidle.onCatalog.performAll _
    have hsettled := hperformed.attends.settle
    rw [← hlistener] at hsettled
    rw [h.answer_eq htyped o hc, requestsToAnswer, if_neg hc]
    exact ⟨(htick.trans hperformed.toRelays).trans hsettled,
      hperformed.attends.waiting_settle hcatalog hperformed.active⟩

theorem Waiting.finishTyping (h : p.Waiting) (lines : List String) :
    p.Answers [.play (.collect p.listener)] (p.finishTyping lines).1 (p.finishTyping lines).2 := by
  have hfinished : p.Relays [] []
      { p with script := "\n".intercalate lines, typed := none } := h.attends.stay.note ..
  have hpushed : p.Relays [] [] ({ p with script := "\n".intercalate lines, typed := none }.push
      (.code ("\n".intercalate lines))) := hfinished.push rfl
  exact ⟨hpushed.trans hpushed.attends.settle,
    hpushed.attends.waiting_settle h.onCatalog h.active⟩

theorem Waiting.read (h : p.Waiting) (input : Input) :
    p.Answers (p.requests input) (p.read input).1 (p.read input).2 := by
  cases input with
  | line o text =>
      rw [requests, Prompt.read, Prompt.respond]
      cases htyped : p.typed with
      | none =>
          dsimp only
          split
          · exact ⟨h.attends.stay, h⟩
          · exact h.answer htyped o _
      | some lines =>
          dsimp only
          split
          · exact h.finishTyping lines
          · exact ⟨h.attends.stay.note .., ⟨h.toIdle.note .., h.items, nofun⟩⟩
  | ended =>
      rw [requests, Prompt.read, Prompt.endOfInput]
      cases htyped : p.typed with
      | none =>
          have hheard : p.heard = [] := h.heard htyped
          exact ⟨h.attends.stay.note .., ⟨h.toIdle.note .., h.items, fun _ => hheard⟩⟩
      | some lines => exact h.finishTyping lines

/-! ## Conversations -/

theorem Waiting.readAll (h : p.Waiting) (inputs : List Input) :
    p.Answers (p.requestsOver inputs) (p.readAll inputs).1 (p.readAll inputs).2 := by
  induction inputs generalizing p with
  | nil => exact ⟨h.attends.stay, h⟩
  | cons input rest ih =>
      have hfirst := h.read input
      have hlater := ih hfirst.waiting
      exact ⟨hfirst.toRelays.trans hlater.toRelays, hlater.waiting⟩

/-- The prompt on a campaign before it listens. -/
def opening (c : Campaign α) (now : Duration) : Prompt α :=
  { campaign := c, listener := 0, heard := [], script := "", lastTick := now, items := []
    typed := none, closed := false }

theorem answers_start {catalog : Catalog α} {settings : Settings} {c : Campaign α}
    (h : Campaign.start catalog settings = .ok c) (now : Duration) :
    (opening c now).Answers [.play .subscribe] (start c now).1 (start c now).2 := by
  obtain ⟨hactive, hnone⟩ := Campaign.session_of_start h
  have hentered := relays_enterLevel (p := opening c now) hnone now
  have hstarted := hentered.trans hentered.attends.flush
  have hempty := queued_enterLevel (p := opening c now) hnone now
  refine ⟨hstarted, ⟨⟨?_, hstarted.attends, hempty, hactive⟩, rfl, fun _ => rfl⟩⟩
  exact hstarted.campaign ▸ (Campaign.onCatalog_start h).performAll _

/-- The script that is run shows no error, such as that another run is active. -/
theorem Waiting.faultless_run (h : p.Waiting) (htyped : p.typed = none) (o : Outside) :
    Faultless ((p.answer o .run).1.flatMap Act.items) := by
  have hplays := (h.tick o).2.plays_runScript
  have hall := hplays.faultless (h.items ▸ List.forall_mem_nil _)
  obtain ⟨hacts, hitems⟩ := List.forall_mem_append.mp hall
  rw [h.answer_eq htyped o (by decide), List.flatMap_append]
  refine List.forall_mem_append.mpr ⟨hacts, ?_⟩
  rw [settle, Prompt.flush, List.flatMap_singleton]
  exact faultless_drain hitems

/-- Whatever has been read, no run is active, the prompt is the one listener of the current session
and has left nothing with it; where a command can be given, nothing that was heard waits to be
shown, and to run the script shows no error. At the lines of a script that is being typed, the moves
that the enemy made on the tick of the command still wait; the end of the script shows them. The
campaign is what the requests of the prompt make of it, and of all that its sessions publish on
them, each event that is shown at all is shown once and in order, but for those that still wait. -/
theorem nothing_left_behind (catalog : Catalog α) (settings : Settings)
    (hlevels : catalog.levels ≠ []) (begun : Duration) :
    ∃ c, Campaign.start catalog settings = .ok c ∧ ∀ inputs : List Input,
      let opened := start c begun
      let answered := opened.2.readAll inputs
      let last := answered.2
      let asked := .play .subscribe :: opened.2.requestsOver inputs
      last.session.active = none ∧
      last.listener = 0 ∧ last.session.listeners = [⟨[], true⟩] ∧
      (last.typed = none → last.heard = []) ∧
      (∀ o text, last.typed = none → Command.ofLine text = .run →
        Faultless ((last.respond o text).1.flatMap Act.items)) ∧
      last.campaign = (c.performAll asked).2 ∧
      shownBy (opened.1 ++ answered.1) ++ last.heard.filter Event.isShown =
        (c.published asked).filter Event.isShown := by
  obtain ⟨c, hstart⟩ := Campaign.exists_start settings hlevels
  refine ⟨c, hstart, ?_⟩
  intro inputs opened answered last asked
  have hopened := answers_start hstart begun
  have hread := hopened.waiting.readAll inputs
  have hlast : last.Waiting := hread.waiting
  have hrelays : (opening c begun).Relays asked (opened.1 ++ answered.1) last :=
    hopened.toRelays.trans hread.toRelays
  have halone := hlast.attends.alone
  rw [hlast.queued] at halone
  refine ⟨hlast.active, hlast.attends.listener, halone, hlast.heard, ?_, hrelays.campaign, ?_⟩
  · intro o text htyped hrun
    rw [respond, htyped, hrun]
    dsimp only
    split
    · exact List.forall_mem_nil _
    · exact hlast.faultless_run htyped o
  · have hbefore : (opening c begun).unshown = [] := by
      rw [unshown, queued]
      change [] ++ (([] : List (Event α)) ++ c.session.listeners[0]?.elim [] _).filter _ = []
      rw [(Campaign.session_of_start hstart).2]
      rfl
    have hshown := hrelays.shown
    rw [hbefore, unshown, hlast.items, hlast.queued, List.append_nil] at hshown
    exact hshown

def quietOutside : Outside :=
  ⟨⟨7⟩, fun _ => true, fun _ => .error ""⟩

/-- A script is typed and run, which completes the first level; the second one is entered and put
back to its start. -/
def firstLines : List Input :=
  ["edit", "moveLeft(); jump();", ".", "run", "next", "reset"].map (.line quietOutside)

theorem nothing_left_behind_firstLines :
    let opened := start Campaign.builtinCampaign .zero
    let answered := opened.2.readAll firstLines
    (Catalog.builtin : Catalog Float).levels ≠ [] ∧
      answered.2.session.active = none ∧ answered.2.session.listeners = [⟨[], true⟩] ∧
      answered.2.heard = [] ∧
      Faultless ((answered.2.respond quietOutside "run").1.flatMap Act.items) ∧
      (shownBy (opened.1 ++ answered.1)).map Event.text =
        ["moveLeft: 150 -> 100", "jump at (100, 200)", "level completed", "level reset"] ∧
      (Campaign.builtinCampaign.published
          (.play .subscribe :: opened.2.requestsOver firstLines)).filter Event.isShown =
        shownBy (opened.1 ++ answered.1) := by
  intro opened answered
  have hlevels : (Catalog.builtin : Catalog Float).levels ≠ [] := List.cons_ne_nil _ _
  have htyped : answered.2.typed = none := Option.isNone_iff_eq_none.mp (by decide +kernel)
  obtain ⟨c, hstart, hall⟩ := nothing_left_behind Catalog.builtin .standard hlevels .zero
  cases hstart.symm.trans Campaign.start_builtin
  obtain ⟨hactive, -, halone, hheard, hrun, -, hshown⟩ := hall firstLines
  have hempty : answered.2.heard = [] := hheard htyped
  refine ⟨hlevels, hactive, halone, hempty, ?_, by decide +kernel, ?_⟩
  · exact hrun quietOutside "run" htyped (by decide +kernel)
  · rw [← hshown, hempty, List.filter_nil, List.append_nil]

end Playscript.Prompt
