import Playscript.Run.Statement
/-! Properties of effects that pass from the parts of statements to statements of any depth. A part
has the property always, or only as long as a script calls certain actions and asks about certain
conditions: as long as it keeps to a licence. -/
namespace Playscript.Script

/-- The actions that a script may call and the conditions that it may ask about. -/
structure Licence where
  actions : Action → Prop
  conditions : String → Prop

/-- The licence of everything. -/
def Licence.any : Licence :=
  ⟨fun _ => True, fun _ => True⟩

mutual

/-- The statement, with all the statements inside it, keeps to a licence. -/
def Statement.Keeps (l : Licence) : Statement → Prop
  | .act action _ => l.actions action
  | .branch condition body => l.conditions condition ∧ AllKeep l body
  | .loop _ _ _ body => AllKeep l body
  | .assign .. | .unrecognized .. | .malformedLoop .. => True

def AllKeep (l : Licence) : List Statement → Prop
  | [] => True
  | s :: rest => s.Keeps l ∧ AllKeep l rest

end

variable {l : Licence}

theorem allKeep_iff {script : List Statement} : AllKeep l script ↔ ∀ s ∈ script, s.Keeps l := by
  induction script with
  | nil => exact ⟨fun _ => nofun, fun _ => trivial⟩
  | cons s rest ih => rw [AllKeep, List.forall_mem_cons, ih]

mutual

theorem Statement.keeps_any : ∀ s : Statement, s.Keeps .any
  | .act _ _ => trivial
  | .branch _ body => ⟨trivial, allKeep_any body⟩
  | .loop _ _ _ body => allKeep_any body
  | .assign .. | .unrecognized .. | .malformedLoop .. => trivial

theorem allKeep_any : ∀ script : List Statement, AllKeep .any script
  | [] => trivial
  | s :: rest => ⟨s.keeps_any, allKeep_any rest⟩

end

/-- The actions that the statements of a block call themselves are in the licence. -/
theorem AllKeep.called {body : List Statement} (h : AllKeep l body) {action : Action}
    (hcalled : action ∈ body.filterMap Statement.called?) : l.actions action := by
  obtain ⟨s, hs, haction⟩ := List.mem_filterMap.mp hcalled
  have hkeeps := allKeep_iff.mp h s hs
  cases s with
  | act own argument =>
      cases haction
      exact hkeeps
  | _ => cases haction

/-! ## Laws -/

variable {α : Type} [Coordinate α] {retreat : Option Action} {P : Effect α → Prop}

/-- A property of effects that the parts of statements have where they keep to a licence, and that
parts one after the other keep. -/
structure LicensedLaw (l : Licence) (retreat : Option Action) (P : Effect α → Prop) : Prop where
  skip : P .skip
  andThen : ∀ {a b : Effect α}, P a → P b → P (a.andThen b)
  line : ∀ text, P (.tell (.line text))
  issue : ∀ i, P (.tell (.issue i))
  assign : ∀ name value, P (assign name value)
  perform : ∀ {action} argument, l.actions action → P (perform action argument)
  branch : ∀ {condition body} {block : Effect α}, l.conditions condition → AllKeep l body →
    P block → P (branch retreat condition body block)
  openLoop : ∀ counter first stop {body}, AllKeep l body → P (openLoop counter first stop body)

namespace LicensedLaw

theorem all (h : LicensedLaw l retreat P) {effects : List (Effect α)}
    (he : ∀ a ∈ effects, P a) : P (.all effects) := by
  induction effects with
  | nil => exact h.skip
  | cons a rest ih =>
      rw [List.forall_mem_cons] at he
      exact h.andThen he.1 (ih he.2)

theorem iterate (h : LicensedLaw l retreat P) (counter : String) (i : Int64)
    {block : Effect α} (hb : P block) : P (iterate counter i block) :=
  h.andThen (h.line _) hb

mutual

theorem run (h : LicensedLaw l retreat P) :
    ∀ s : Statement, s.Keeps l → P (s.run retreat)
  | .assign name value, _ => h.assign name value
  | .act _ argument, haction => h.perform argument haction
  | .branch _ body, hkeeps => h.branch hkeeps.1 hkeeps.2 (h.runAll body hkeeps.2)
  | .loop counter first stop body, hkeeps => by
      have hbody := h.runAll body hkeeps
      unfold Statement.run
      split
      · exact h.issue _
      · exact h.line _
      · refine h.andThen (h.openLoop counter first stop hkeeps) (h.all ?_)
        intro a ha
        obtain ⟨i, -, rfl⟩ := List.mem_map.mp ha
        exact h.iterate counter i hbody
  | .unrecognized text line _, _ => h.issue (.unrecognized text line)
  | .malformedLoop header _ reason, _ => h.issue (.malformedLoop header reason)

theorem runAll (h : LicensedLaw l retreat P) :
    ∀ script : List Statement, AllKeep l script → P (runAll retreat script)
  | [], _ => h.skip
  | s :: rest, hkeeps => h.andThen (h.run s hkeeps.1) (h.runAll rest hkeeps.2)

end

end LicensedLaw

/-- A property of effects that the parts of all statements have, and that parts one after the other
keep. -/
structure StatementLaw (retreat : Option Action) (P : Effect α → Prop) : Prop where
  skip : P .skip
  andThen : ∀ {a b : Effect α}, P a → P b → P (a.andThen b)
  line : ∀ text, P (.tell (.line text))
  issue : ∀ i, P (.tell (.issue i))
  assign : ∀ name value, P (assign name value)
  perform : ∀ action argument, P (perform action argument)
  branch : ∀ condition body {block : Effect α}, P block →
    P (branch retreat condition body block)
  openLoop : ∀ counter first stop body, P (openLoop counter first stop body)

namespace StatementLaw

theorem licensed (h : StatementLaw retreat P) (l : Licence) : LicensedLaw l retreat P where
  skip := h.skip
  andThen := h.andThen
  line := h.line
  issue := h.issue
  assign := h.assign
  perform := fun argument _ => h.perform _ argument
  branch := fun _ _ => h.branch _ _
  openLoop := fun counter first stop _ _ => h.openLoop counter first stop _

theorem all (h : StatementLaw retreat P) {effects : List (Effect α)}
    (he : ∀ a ∈ effects, P a) : P (.all effects) :=
  (h.licensed .any).all he

theorem iterate (h : StatementLaw retreat P) (counter : String) (i : Int64)
    {block : Effect α} (hb : P block) : P (iterate counter i block) :=
  (h.licensed .any).iterate counter i hb

theorem run (h : StatementLaw retreat P) (s : Statement) : P (s.run retreat) :=
  (h.licensed .any).run s s.keeps_any

theorem runAll (h : StatementLaw retreat P) (script : List Statement) :
    P (runAll retreat script) :=
  (h.licensed .any).runAll script (allKeep_any script)

end StatementLaw

end Playscript.Script

namespace Playscript

variable {α : Type}

/-- The event of something that a statement has done. All other events come from the pauses of a
run, from its beginning and end, from the clock or from a reset. -/
def Event.isDeed : Event α → Bool
  | .moved .. | .jumped .. | .shot .. | .speedChanged .. | .variableSet .. => true
  | _ => false

/-- An effect all of whose events are deeds. -/
def Effect.OnlyDeeds (a : Effect α) : Prop :=
  ∀ scene, ∀ e ∈ (a scene).2.events, e.isDeed = true

theorem Effect.OnlyDeeds.andThen {a b : Effect α} (ha : a.OnlyDeeds) (hb : b.OnlyDeeds) :
    (a.andThen b).OnlyDeeds := by
  intro scene e he
  rcases List.mem_append.mp he with hfirst | hsecond
  · exact ha scene e hfirst
  · exact hb (a scene).1 e hsecond

theorem Effect.OnlyDeeds.of_silent {a : Effect α} (h : ∀ scene, (a scene).2.events = []) :
    a.OnlyDeeds := by
  intro scene e he
  rw [h scene] at he
  cases he

theorem Effect.OnlyDeeds.of_single {a : Effect α}
    (h : ∀ scene, ∃ e, e.isDeed = true ∧ (a scene).2.events = [e]) : a.OnlyDeeds := by
  intro scene e he
  obtain ⟨deed, hdeed, hevents⟩ := h scene
  rw [hevents, List.mem_singleton] at he
  exact he ▸ hdeed

namespace Script

theorem setSpeed_onlyDeeds (argument : Option Argument) :
    (setSpeed argument : Effect α).OnlyDeeds := by
  intro scene e he
  unfold setSpeed at he
  split at he
  · cases he
  · split at he
    · dsimp only at he
      split at he <;> exact List.mem_singleton.mp he ▸ rfl
    · cases he

theorem perform_onlyDeeds [Coordinate α] (action : Action) (argument : Option Argument) :
    (perform action argument : Effect α).OnlyDeeds := by
  cases action with
  | setSpeed => exact setSpeed_onlyDeeds argument
  | moveLeft | moveRight | moveBack | jump | shoot => exact .of_single fun _ => ⟨_, rfl, rfl⟩

theorem branch_onlyDeeds (retreat : Option Action) (condition : String) (body : List Statement)
    {block : Effect α} (hb : block.OnlyDeeds) :
    (branch retreat condition body block).OnlyDeeds := by
  intro scene
  unfold branch
  split
  · intro e he; cases he
  · intro e he; cases he
  · exact Effect.OnlyDeeds.andThen (.of_silent fun _ => rfl) hb scene

theorem deed_law [Coordinate α] (retreat : Option Action) :
    StatementLaw (α := α) retreat Effect.OnlyDeeds where
  skip := .of_silent fun _ => rfl
  andThen := .andThen
  line := fun _ => .of_silent fun _ => rfl
  issue := fun _ => .of_silent fun _ => rfl
  assign := fun _ _ => .of_single fun _ => ⟨_, rfl, rfl⟩
  perform := perform_onlyDeeds
  branch := fun condition body _ => branch_onlyDeeds retreat condition body
  openLoop := fun _ _ _ _ => .of_silent fun _ => rfl

end Script

end Playscript
