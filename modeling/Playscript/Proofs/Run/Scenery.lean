import Mathlib.Data.List.Forall2
import Playscript.Proofs.Run.Shots
import Playscript.Proofs.Run.Unrolling
/-! What scripts cannot touch. Whatever a script does, the scenery of its level stays where it is;
targets that are hit stay hit, and variables that are there stay there. As the enemy is part of the
scenery, all conditions that one step asks about, at any depth, have the answers that they had when
the step began, and the trace says so. -/
namespace Playscript

variable {α : Type}

/-! ## The scenery -/

/-- The target at a later time: in the same place, and hit if it was hit before. -/
def Target.Lasts (before after : Target α) : Prop :=
  after.area = before.area ∧ (before.hit = true → after.hit = true)

/-- What is the same in both scenes, and what of the first one is still there in the second. -/
structure Scene.SameScenery (before after : Scene α) : Prop where
  y : after.world.character.y = before.world.character.y
  start : after.world.start = before.world.start
  playfield : after.world.playfield = before.world.playfield
  goal : after.world.goal = before.world.goal
  obstacles : after.world.obstacles = before.world.obstacles
  enemy : after.world.enemy = before.world.enemy
  targets : List.Forall₂ Target.Lasts before.world.targets after.world.targets
  names : ∀ name, before.bindings.contains name = true → after.bindings.contains name = true

theorem lasts_refl (targets : List (Target α)) : List.Forall₂ Target.Lasts targets targets :=
  List.forall₂_same.mpr fun _ _ => ⟨rfl, id⟩

theorem Target.Lasts.trans {t u v : Target α} (h : t.Lasts u) (h' : u.Lasts v) : t.Lasts v :=
  ⟨h'.1.trans h.1, h'.2 ∘ h.2⟩

theorem lasts_trans {ts us vs : List (Target α)} (h : List.Forall₂ Target.Lasts ts us)
    (h' : List.Forall₂ Target.Lasts us vs) : List.Forall₂ Target.Lasts ts vs := by
  induction h generalizing vs with
  | nil => exact h'
  | cons hfirst _ ih =>
      cases h' with
      | cons hnext hrest => exact .cons (hfirst.trans hnext) (ih hrest)

theorem lasts_hitFirst {targets after : List (Target α)} {index : Nat}
    (h : World.hitFirst targets = some (index, after)) :
    List.Forall₂ Target.Lasts targets after := by
  induction targets generalizing index after with
  | nil => cases h
  | cons t rest ih =>
      rw [World.hitFirst] at h
      split at h
      · cases h
        exact .cons ⟨rfl, fun _ => rfl⟩ (lasts_refl rest)
      · obtain ⟨⟨later, hit⟩, hlater, hsame⟩ := Option.map_eq_some_iff.mp h
        cases hsame
        exact .cons ⟨rfl, id⟩ (ih hlater)

namespace Scene.SameScenery

variable {a b c : Scene α}

theorem refl (a : Scene α) : a.SameScenery a :=
  ⟨rfl, rfl, rfl, rfl, rfl, rfl, lasts_refl _, fun _ h => h⟩

theorem trans (h : a.SameScenery b) (h' : b.SameScenery c) : a.SameScenery c where
  y := h'.y.trans h.y
  start := h'.start.trans h.start
  playfield := h'.playfield.trans h.playfield
  goal := h'.goal.trans h.goal
  obstacles := h'.obstacles.trans h.obstacles
  enemy := h'.enemy.trans h.enemy
  targets := lasts_trans h.targets h'.targets
  names := fun name hname => h'.names name (h.names name hname)

/-- To note a technique changes nothing of the scenery. -/
theorem of_techniques (hworld : b.world = a.world) (hbindings : b.bindings = a.bindings) :
    a.SameScenery b := by
  obtain ⟨world, bindings, techniques⟩ := b
  cases hworld
  cases hbindings
  exact ⟨rfl, rfl, rfl, rfl, rfl, rfl, lasts_refl _, fun _ h => h⟩

end Scene.SameScenery

namespace Script

def KeepsScenery (a : Effect α) : Prop :=
  ∀ scene : Scene α, scene.SameScenery (a scene).1

theorem keepsScenery_assign (name : String) (value : Int64) :
    KeepsScenery (assign name value : Effect α) := by
  intro scene
  refine ⟨rfl, rfl, rfl, rfl, rfl, rfl, lasts_refl _, ?_⟩
  intro other hother
  change (scene.bindings.set name value).contains other = true
  rw [Variables.contains, Variables.get?_set]
  split
  · rfl
  · exact hother

theorem keepsScenery_shoot : KeepsScenery (shoot : Effect α) := by
  intro scene
  simp only [shoot, World.shoot]
  cases hfound : World.hitFirst scene.world.targets with
  | none => exact .of_techniques rfl rfl
  | some found =>
      exact ⟨rfl, rfl, rfl, rfl, rfl, rfl, lasts_hitFirst hfound, fun _ h => h⟩

theorem keepsScenery_setSpeed (argument : Option Argument) :
    KeepsScenery (setSpeed argument : Effect α) := by
  intro scene
  rcases setSpeed_cases argument scene with ⟨hscene, -⟩ | ⟨value, named, hscene, -⟩
  · rw [hscene]
    exact .refl scene
  · rw [hscene]
    exact ⟨rfl, rfl, rfl, rfl, rfl, rfl, lasts_refl _, fun _ h => h⟩

section

variable [Coordinate α]

theorem keepsScenery_law (retreat : Option Action) :
    StatementLaw (α := α) retreat KeepsScenery where
  skip := .refl
  andThen := fun ha hb scene => (ha scene).trans (hb _)
  line := fun _ => .refl
  issue := fun _ => .refl
  assign := keepsScenery_assign
  perform := by
    intro action argument
    cases action with
    | setSpeed => exact keepsScenery_setSpeed argument
    | shoot => exact keepsScenery_shoot
    | jump => exact fun _ => .of_techniques rfl rfl
    | moveLeft | moveRight | moveBack =>
        exact fun _ => ⟨rfl, rfl, rfl, rfl, rfl, rfl, lasts_refl _, fun _ h => h⟩
  branch := by
    intro condition body block hblock scene
    rw [branch_scene]
    split
    · have htaken : scene.SameScenery (taken retreat body scene) := .of_techniques rfl rfl
      exact htaken.trans (hblock _)
    · exact .refl scene
  openLoop := fun _ _ _ _ _ => .of_techniques rfl rfl

theorem keepsScenery_step (e : Execution) (retreat : Option Action) (delay : Duration)
    (scene : Scene α) : scene.SameScenery (e.step retreat delay scene).scene :=
  (keepsScenery_law retreat).step (fun _ => .refl) e scene

end

/-! ## Answers in the trace -/

/-- A condition that is asked about, with the answer. -/
structure Asked where
  condition : String
  answer : Option Bool
deriving DecidableEq, Repr

/-- The lines of the trace that tell of an answer and of what it makes of the block. -/
def Asked.lines : Asked → List String
  | ⟨condition, some true⟩ =>
      ["Checking condition: " ++ condition ++ " is true",
        "Condition is true, executing if block"]
  | ⟨condition, some false⟩ =>
      ["Checking condition: " ++ condition ++ " is false",
        "Condition is false, skipping if block"]
  | ⟨condition, none⟩ =>
      [(Issue.unknownCondition condition).message, "Condition is false, skipping if block"]

/-- How the lines begin that tell of answers. -/
def verdictWords : List String :=
  ["Checking condition: ", "Condition is ", "Error: Unknown condition '"]

def isVerdict (line : String) : Bool :=
  verdictWords.any fun word => word.toList.isPrefixOf line.toList

/-- No line that begins so tells of an answer. -/
def isOtherWord (word : String) : Bool :=
  verdictWords.all fun v =>
    !v.toList.isPrefixOf word.toList && !word.toList.isPrefixOf v.toList

theorem isVerdict_of_otherWord {word : String} (h : isOtherWord word = true) (rest : String) :
    isVerdict (word ++ rest) = false := by
  rw [isVerdict, List.any_eq_false]
  intro v hv
  rw [isOtherWord, List.all_eq_true] at h
  have hapart := h v hv
  rw [Bool.and_eq_true, Bool.not_eq_true', Bool.not_eq_true'] at hapart
  rw [String.toList_append, List.isPrefixOf_iff_prefix]
  intro hprefix
  rcases List.prefix_or_prefix_of_prefix hprefix (List.prefix_append _ _) with hbegin | hbegin
  · rw [List.isPrefixOf_iff_prefix.mpr hbegin] at hapart
    cases hapart.1
  · rw [List.isPrefixOf_iff_prefix.mpr hbegin] at hapart
    cases hapart.2

theorem isVerdict_of_verdictWord {word : String} (h : word ∈ verdictWords) (rest : String) :
    isVerdict (word ++ rest) = true := by
  rw [isVerdict, List.any_eq_true]
  refine ⟨word, h, ?_⟩
  rw [String.toList_append, List.isPrefixOf_iff_prefix]
  exact List.prefix_append _ _

theorem isVerdict_lines (q : Asked) : ∀ line ∈ q.lines, isVerdict line = true := by
  have htrue : isVerdict "Condition is true, executing if block" = true := by decide +kernel
  have hfalse : isVerdict "Condition is false, skipping if block" = true := by decide +kernel
  obtain ⟨condition, answer⟩ := q
  cases answer with
  | none =>
      have hunknown : isVerdict (Issue.unknownCondition condition).message = true := by
        change isVerdict ("Error: Unknown condition '" ++ condition ++ "'") = true
        rw [String.append_assoc]
        exact isVerdict_of_verdictWord (.tail _ (.tail _ (.head _))) _
      exact List.forall_mem_cons.mpr ⟨hunknown, List.forall_mem_singleton.mpr hfalse⟩
  | some value =>
      have hchecked (rest : String) :
          isVerdict ("Checking condition: " ++ condition ++ rest) = true := by
        rw [String.append_assoc]
        exact isVerdict_of_verdictWord (.head _) _
      cases value with
      | true => exact List.forall_mem_cons.mpr ⟨hchecked _, List.forall_mem_singleton.mpr htrue⟩
      | false => exact List.forall_mem_cons.mpr ⟨hchecked _, List.forall_mem_singleton.mpr hfalse⟩

theorem isVerdict_message {i : Issue} (h : ∀ name, i ≠ .unknownCondition name) :
    isVerdict i.message = false := by
  -- Each message is written out, down to the word that it begins with.
  cases i with
  | unknownCondition name => exact absurd rfl (h name)
  | missingArgument action => cases action <;> decide +kernel
  | unrecognized text line =>
      change isVerdict ("Unrecognized command: " ++ text) = false
      exact isVerdict_of_otherWord (by decide +kernel) text
  | undefinedVariable name =>
      change isVerdict ("Error: Variable '" ++ name ++ "' not defined") = false
      rw [String.append_assoc]
      exact isVerdict_of_otherWord (by decide +kernel) _
  | outOfRange value =>
      change isVerdict ("Error: Speed " ++ toString value ++ " is out of range (" ++
        toString minSpeed ++ "-" ++ toString maxSpeed ++ ")") = false
      simp only [String.append_assoc]
      exact isVerdict_of_otherWord (by decide +kernel) _
  | malformedLoop header reason =>
      change isVerdict ("Error: Malformed loop bounds in `" ++ header ++ "`: " ++ reason ++
        ". Loop skipped.") = false
      simp only [String.append_assoc]
      exact isVerdict_of_otherWord (by decide +kernel) _

/-- These questions have the answers of a scene, and of all lines just theirs tell of answers. -/
structure Answered (scene : Scene α) (asked : List Asked) (trace : List String) : Prop where
  answers : ∀ q ∈ asked, q.answer = scene.world.condition? q.condition
  lines : trace.filter isVerdict = asked.flatMap Asked.lines

theorem Answered.congr {scene other : Scene α} {asked : List Asked} {trace : List String}
    (h : Answered scene asked trace) (henemy : scene.world.enemy = other.world.enemy) :
    Answered other asked trace := by
  refine ⟨?_, h.lines⟩
  intro q hq
  rw [h.answers q hq, World.condition?, World.condition?, henemy]

theorem Answered.append {scene : Scene α} {a b : List Asked} {first second : List String}
    (ha : Answered scene a first) (hb : Answered scene b second) :
    Answered scene (a ++ b) (first ++ second) where
  answers := List.forall_mem_append.mpr ⟨ha.answers, hb.answers⟩
  lines := by rw [List.filter_append, List.flatMap_append, ha.lines, hb.lines]

theorem answered_lines (scene : Scene α) (condition : String) :
    Answered scene [⟨condition, scene.world.condition? condition⟩]
      (Asked.lines ⟨condition, scene.world.condition? condition⟩) where
  answers := List.forall_mem_singleton.mpr rfl
  lines := by
    rw [List.flatMap_singleton]
    exact List.filter_eq_self.mpr (isVerdict_lines _)

/-- An effect that asks these questions, depending on the scene, and leaves the answers as they
are. -/
structure Asks (asked : Scene α → List Asked) (a : Effect α) : Prop where
  spares : SparesEnemy a
  answered : ∀ scene, Answered scene (asked scene) (a scene).2.trace

/-- An effect none of whose lines tells of an answer asks nothing. -/
theorem Asks.nothing {a : Effect α} (hspares : SparesEnemy a)
    (h : ∀ scene, ∀ line ∈ (a scene).2.trace, isVerdict line = false) : Asks (fun _ => []) a := by
  refine ⟨hspares, fun scene => ⟨List.forall_mem_nil _, List.filter_eq_nil_iff.mpr ?_⟩⟩
  intro line hline
  rw [h scene line hline]
  exact Bool.false_ne_true

theorem Asks.andThen {f g : Scene α → List Asked} {a b : Effect α} (ha : Asks f a)
    (hb : Asks g b) : Asks (fun scene => f scene ++ g (a scene).1) (a.andThen b) where
  spares := fun scene => (hb.spares _).trans (ha.spares scene)
  answered := fun scene =>
    (ha.answered scene).append ((hb.answered (a scene).1).congr (ha.spares scene))

theorem asks_line {text : String} (h : isVerdict text = false) :
    Asks (fun _ => []) (.tell (.line text) : Effect α) :=
  .nothing (fun _ => rfl) fun _ => List.forall_mem_singleton.mpr h

theorem asks_issue {i : Issue} (h : ∀ name, i ≠ .unknownCondition name) :
    Asks (fun _ => []) (.tell (.issue i) : Effect α) :=
  .nothing (fun _ => rfl) fun _ => List.forall_mem_singleton.mpr (isVerdict_message h)

theorem asks_assign (name : String) (value : Int64) :
    Asks (fun _ => []) (assign name value : Effect α) := by
  refine .nothing (fun _ => rfl) fun scene => List.forall_mem_singleton.mpr ?_
  simp only [String.append_assoc]
  exact isVerdict_of_otherWord (by decide +kernel) _

theorem asks_refuseLoop (counter : String) (first stop : Int64) :
    Asks (fun _ => []) (refuseLoop counter first stop : Effect α) :=
  asks_issue nofun

theorem asks_skipLoop (counter : String) (first stop : Int64) :
    Asks (fun _ => []) (skipLoop counter first stop : Effect α) := by
  apply asks_line
  simp only [String.append_assoc]
  exact isVerdict_of_otherWord (by decide +kernel) _

theorem asks_openLoop (counter : String) (first stop : Int64) (body : List Statement) :
    Asks (fun _ => []) (openLoop counter first stop body : Effect α) := by
  refine .nothing (fun _ => rfl) fun scene => List.forall_mem_singleton.mpr ?_
  simp only [String.append_assoc]
  exact isVerdict_of_otherWord (by decide +kernel) _

theorem asks_iterate (counter : String) (i : Int64) {asked : Scene α → List Asked}
    {block : Effect α} (hblock : Asks asked block) : Asks asked (iterate counter i block) := by
  refine Asks.andThen (asks_line ?_) hblock
  simp only [String.append_assoc]
  exact isVerdict_of_otherWord (by decide +kernel) _

theorem isVerdict_announced (action : Action) :
    isVerdict ("Executing: " ++ action.name ++ "()") = false := by
  rw [String.append_assoc]
  exact isVerdict_of_otherWord (by decide +kernel) _

theorem isVerdict_shoot (scene : Scene α) :
    ∀ line ∈ (shoot scene).2.trace, isVerdict line = false := by
  refine List.forall_mem_cons.mpr ⟨isVerdict_announced .shoot, List.forall_mem_singleton.mpr ?_⟩
  split
  · simp only [String.append_assoc]
    exact isVerdict_of_otherWord (by decide +kernel) _
  · decide +kernel

theorem value?_error {bindings : Variables} {argument : Option Argument} {issue : Issue}
    (h : Argument.value? bindings argument = .error issue) :
    ∀ name, issue ≠ .unknownCondition name := by
  unfold Argument.value? at h
  split at h
  · cases h
    exact nofun
  · cases h
  · split at h
    · cases h
    · cases h
      exact nofun

theorem isVerdict_setSpeed (argument : Option Argument) (scene : Scene α) :
    ∀ line ∈ (setSpeed argument scene).2.trace, isVerdict line = false := by
  unfold setSpeed
  split
  · rename_i issue herror
    exact List.forall_mem_singleton.mpr (isVerdict_message (value?_error herror))
  · rename_i value _
    split
    · dsimp only
      split <;> refine List.forall_mem_singleton.mpr ?_
      · simp only [String.append_assoc]
        exact isVerdict_of_otherWord (by decide +kernel) _
      · exact isVerdict_of_otherWord (by decide +kernel) _
    · exact List.forall_mem_singleton.mpr (isVerdict_message nofun)

/-! ## What is asked -/

/-- What is asked in so many rounds of a block, given what is asked in one. -/
def askedRounds (block : Effect α) (asked : Scene α → List Asked) : Nat → Scene α → List Asked
  | 0, _ => []
  | n + 1, scene => asked scene ++ askedRounds block asked n (block scene).1

theorem asks_rounds (counter : String) {asked : Scene α → List Asked} {block : Effect α}
    (hblock : Asks asked block) (rounds : List Int64) :
    Asks (askedRounds block asked rounds.length)
      (.all (rounds.map fun i => iterate counter i block)) := by
  induction rounds with
  | nil => exact .nothing (fun _ => rfl) fun _ => List.forall_mem_nil _
  | cons i rest ih => exact (asks_iterate counter i hblock).andThen ih

theorem asks_branch [Coordinate α] (retreat : Option Action) (condition : String)
    (body : List Statement) {asked : Scene α → List Asked} {block : Effect α}
    (hblock : Asks asked block) :
    Asks (fun scene => ⟨condition, scene.world.condition? condition⟩ ::
        if scene.world.condition? condition = some true then asked (taken retreat body scene)
        else [])
      (branch retreat condition body block) where
  spares := (enemy_law retreat).branch condition body hblock.spares
  answered := by
    intro scene
    have hlines := answered_lines scene condition
    have hinside := hblock.answered (taken retreat body scene)
    unfold branch
    cases hanswer : scene.world.condition? condition with
    | none =>
        rw [hanswer] at hlines
        exact hlines
    | some value =>
        rw [hanswer] at hlines
        cases value with
        | false => exact hlines
        | true => exact hlines.append (hinside.congr rfl)

variable [Coordinate α]

theorem asks_perform (action : Action) (argument : Option Argument) :
    Asks (fun _ => []) (perform action argument : Effect α) := by
  refine .nothing ((enemy_law none).perform action argument) fun scene => ?_
  cases action with
  | setSpeed => exact isVerdict_setSpeed argument scene
  | shoot => exact isVerdict_shoot scene
  | moveLeft | moveRight | moveBack | jump =>
      exact List.forall_mem_singleton.mpr (isVerdict_announced _)

mutual

/-- The conditions that a statement asks about when it is run in a scene, at any depth and in order,
with the answers that it gets. -/
def Statement.asked (retreat : Option Action) : Statement → Scene α → List Asked
  | .branch condition body => fun scene =>
      ⟨condition, scene.world.condition? condition⟩ ::
        if scene.world.condition? condition = some true then
          askedAll retreat body (taken retreat body scene)
        else []
  | .loop counter first stop body => fun scene =>
      if Loop.entry first stop = .entered then
        askedRounds (runAll retreat body) (askedAll retreat body) (Loop.span first stop).length
          (openLoop counter first stop body scene).1
      else []
  | .assign .. | .act .. | .unrecognized .. | .malformedLoop .. => fun _ => []

def askedAll (retreat : Option Action) : List Statement → Scene α → List Asked
  | [], _ => []
  | s :: rest, scene => s.asked retreat scene ++ askedAll retreat rest (s.run retreat scene).1

end

/-- What statements ask up to the first pause between two rounds of a loop. -/
def askedToPause (retreat : Option Action) : List Statement → Scene α → List Asked
  | [], _ => []
  | .loop counter first stop body :: rest, scene =>
      if Loop.entry first stop = .entered then
        let opened := (openLoop counter first stop body scene).1
        askedAll retreat body opened ++
          if first + 1 < stop then [] else askedToPause retreat rest (runAll retreat body opened).1
      else
        let s := Statement.loop counter first stop body
        s.asked retreat scene ++ askedToPause retreat rest (s.run retreat scene).1
  | s :: rest, scene => s.asked retreat scene ++ askedToPause retreat rest (s.run retreat scene).1

/-- What a script in progress asks in its next step. -/
def Execution.asked (e : Execution) (retreat : Option Action) (scene : Scene α) : List Asked :=
  match e.active with
  | some c =>
      askedAll retreat c.body scene ++
        if c.next + 1 < c.stop then []
        else askedToPause retreat e.rest (runAll retreat c.body scene).1
  | none => askedToPause retreat e.rest scene

theorem askedToPause_statement (retreat : Option Action) {s : Statement}
    (h : s.entersLoop = false) (rest : List Statement) (scene : Scene α) :
    askedToPause retreat (s :: rest) scene =
      s.asked retreat scene ++ askedToPause retreat rest (s.run retreat scene).1 := by
  cases s with
  | loop counter first stop body =>
      have hentry : Loop.entry first stop ≠ .entered := of_decide_eq_false h
      rw [askedToPause, if_neg hentry]
  | _ => rfl

theorem askedToPause_opened (retreat : Option Action) {c : Cursor}
    (h : Loop.entry c.next c.stop = .entered) (rest : List Statement) (scene : Scene α) :
    askedToPause retreat (c.statement :: rest) scene =
      Execution.asked ⟨some c, rest⟩ retreat (c.opening scene).1 := by
  rw [Cursor.statement, askedToPause, if_pos h]
  rfl

mutual

/-- A statement gets its answers from the scene in which it begins, and tells just of them. -/
theorem asks_run (retreat : Option Action) :
    ∀ s : Statement, Asks (s.asked retreat) (s.run retreat : Effect α)
  | .assign name value => asks_assign name value
  | .act action argument => asks_perform action argument
  | .branch condition body => asks_branch retreat condition body (asks_runAll retreat body)
  | .loop counter first stop body => by
      have hbody := asks_runAll retreat body
      unfold Statement.asked Statement.run
      cases Loop.entry first stop with
      | tooLong => exact asks_refuseLoop counter first stop
      | empty => exact asks_skipLoop counter first stop
      | entered =>
          exact (asks_openLoop counter first stop body).andThen
            (asks_rounds counter hbody (Loop.span first stop))
  | .unrecognized text line _ => asks_issue nofun
  | .malformedLoop header _ reason => asks_issue nofun

theorem asks_runAll (retreat : Option Action) :
    ∀ script : List Statement, Asks (askedAll retreat script) (runAll retreat script : Effect α)
  | [] => .nothing (fun _ => rfl) fun _ => List.forall_mem_nil _
  | s :: rest => (asks_run retreat s).andThen (asks_runAll retreat rest)

end

/-! ## One step, one enemy -/

theorem answered_of_advances {retreat : Option Action} {delay : Duration} {e : Execution}
    {scene : Scene α} {stepped : Stepped α} (h : Advances retreat delay e scene stepped) :
    Answered scene (e.asked retreat scene) stepped.output.trace := by
  -- What comes later is asked in another scene, but of the same enemy.
  induction h with
  | done scene => exact ⟨List.forall_mem_nil _, rfl⟩
  | @statement s rest scene later hs _ ih =>
      have hfirst := asks_run (α := α) retreat s
      have hasked := askedToPause_statement retreat hs rest scene
      rw [Execution.asked, Execution.start, hasked]
      exact (hfirst.answered scene).append (ih.congr (hfirst.spares scene))
  | @opened c rest scene later hentry _ ih =>
      have hopening := asks_openLoop (α := α) c.counter c.next c.stop c.body
      have hasked := askedToPause_opened retreat hentry rest scene
      rw [Execution.asked, Execution.start, hasked]
      exact (hopening.answered scene).append (ih.congr (hopening.spares scene))
  | @lastRound c rest scene later hlast _ ih =>
      have hround := asks_iterate (α := α) c.counter c.next (asks_runAll retreat c.body)
      simp only [Execution.asked, if_neg (not_next_lt_stop_of_last hlast)]
      exact (hround.answered scene).append (ih.congr (hround.spares scene))
  | @paused c next rest scene hnext =>
      have hround := asks_iterate (α := α) c.counter c.next (asks_runAll retreat c.body)
      have hpause : Answered scene [] ([] : List String) := ⟨List.forall_mem_nil _, rfl⟩
      simp only [Execution.asked, if_pos (next_lt_stop_of_advance? hnext)]
      exact (hround.answered scene).append hpause

/-- A step leaves the scenery as it is. All the conditions that it asks about, at any depth, have the
answers of the scene in which it begins, so the same condition has the same answer each time; and of
all lines of the trace just the lines of these answers tell of conditions. -/
theorem step_keeps_scenery (e : Execution) (retreat : Option Action) (delay : Duration)
    (scene : Scene α) :
    let stepped := e.step retreat delay scene
    let asked := e.asked retreat scene
    scene.SameScenery stepped.scene ∧
      stepped.output.trace.filter isVerdict = asked.flatMap Asked.lines ∧
      (∀ q ∈ asked, q.answer = scene.world.condition? q.condition) ∧
      ∀ q ∈ asked, ∀ r ∈ asked, q.condition = r.condition → q = r := by
  intro stepped asked
  have hanswered : Answered scene asked stepped.output.trace :=
    answered_of_advances (advances_step e retreat delay scene)
  refine ⟨keepsScenery_step e retreat delay scene, hanswered.lines, hanswered.answers, ?_⟩
  intro q hq r hr hcondition
  have hanswer : q.answer = r.answer := by
    rw [hanswered.answers q hq, hanswered.answers r hr, hcondition]
  obtain ⟨condition, answer⟩ := q
  cases hcondition
  cases hanswer
  rfl

/-- Two rounds, in which the enemy is asked about and inside the block once more. -/
def lookTwice : Statement :=
  .loop "i" 0 2 [.branch "enemyNear" [.act .moveLeft none, .branch "enemyNear" [.act .shoot none]]]

/-- With the enemy near, one step asks about it twice in the first round of a loop and twice in the
loop inside a block that comes next; it pauses after the first. -/
theorem step_keeps_scenery_looked :
    let scene : Scene Float :=
      { untouched with world := (untouched.world.withEnemyNear? true).getD untouched.world }
    let e := Execution.start [.branch "enemyNear" [lookTwice], .branch "raining" [], lookTwice]
    let stepped := e.step none .zero scene
    let near : Asked := ⟨"enemyNear", some true⟩
    e.asked none scene = List.replicate 5 near ++ ⟨"raining", none⟩ :: List.replicate 2 near ∧
      near ∈ e.asked none scene ∧
      near.answer = scene.world.condition? near.condition ∧
      stepped.output.trace.filter isVerdict =
        (List.replicate 5 near ++ ⟨"raining", none⟩ :: List.replicate 2 near).flatMap
          Asked.lines ∧
      stepped.scene.world.enemy = scene.world.enemy := by
  intro scene e stepped near
  have hasked : e.asked none scene =
      List.replicate 5 near ++ ⟨"raining", none⟩ :: List.replicate 2 near := by
    rfl
  have hnear : near ∈ e.asked none scene := by
    rw [hasked]
    exact .head _
  obtain ⟨hscenery, hlines, hanswers, -⟩ := step_keeps_scenery e none .zero scene
  rw [hasked] at hlines
  exact ⟨hasked, hnear, hanswers near hnear, hlines, hscenery.enemy⟩

end Script

end Playscript
