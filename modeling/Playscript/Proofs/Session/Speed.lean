import Playscript.Catalog.Builtin
import Playscript.Proofs.Run.Bounds
import Playscript.Proofs.Script.Line
import Playscript.Proofs.Session.Accounting
import Playscript.Proofs.Session.Techniques
/-! How a script sets the speed, from the text to the character. A value in range becomes the speed,
and it is noted when it comes from a variable; a value out of range is an issue and no more. -/
namespace Playscript

variable {α : Type} [Coordinate α]

namespace Script

/-! ## Scripts without loops -/

/-- Without a loop to enter, one step takes a script to its end. -/
theorem step_straight {script : List Statement} (h : ∀ s ∈ script, s.entersLoop = false)
    (retreat : Option Action) (delay : Duration) (scene : Scene α) :
    (Execution.start script).step retreat delay scene =
      ⟨.finished, .start [], (runAll retreat script scene).1, (runAll retreat script scene).2⟩ := by
  show stepAll retreat delay script scene = _
  induction script generalizing scene with
  | nil => rfl
  | cons s rest ih =>
      obtain ⟨hs, hrest⟩ := List.forall_mem_cons.mp h
      cases s with
      | loop counter first stop body =>
          have hentry : Loop.entry first stop ≠ .entered := of_decide_eq_false hs
          simp only [stepAll, dif_neg hentry, ih hrest]
          rfl
      | assign | act | branch | unrecognized | malformedLoop =>
          simp only [stepAll, ih hrest]
          rfl

theorem runAll_singleton (retreat : Option Action) (s : Statement) :
    (runAll retreat [s] : Effect α) = s.run retreat :=
  Effect.andThen_skip _

/-! ## Setting the speed -/

/-- What it is to set the speed to a value, given by name or not: how the speed, the note that it
was set from a variable, and the issues come out. -/
structure SetsSpeed (value : Int64) (named : Bool) (before after : Scene α) (issues : List Issue) :
    Prop where
  within : IsLegal value → after.world.character.speed = value ∧
    after.techniques.speedFromVariable = (before.techniques.speedFromVariable || named) ∧
    issues = []
  beyond : ¬ IsLegal value → after.world.character.speed = before.world.character.speed ∧
    after.techniques.speedFromVariable = before.techniques.speedFromVariable ∧
    issues = [.outOfRange value]

def Argument.isNamed : Argument → Bool
  | .named _ => true
  | .literal _ => false

section
omit [Coordinate α]

theorem setsSpeed_setSpeed {argument : Argument} {scene : Scene α} {value : Int64}
    (h : Argument.value? scene.bindings (some argument) = .ok value) :
    SetsSpeed value argument.isNamed scene (setSpeed (some argument) scene).1
      (setSpeed (some argument) scene).2.issues := by
  unfold setSpeed
  rw [h]
  dsimp only
  constructor
  · intro hlegal
    rw [if_pos ((isLegal_iff value).mpr hlegal)]
    cases argument with
    | named name => exact ⟨rfl, (Bool.or_true _).symm, rfl⟩
    | literal own => exact ⟨rfl, (Bool.or_false _).symm, rfl⟩
  · intro hillegal
    rw [if_neg (mt (isLegal_iff value).mp hillegal)]
    exact ⟨rfl, rfl, rfl⟩

theorem bindings_setSpeed (argument : Option Argument) (scene : Scene α) :
    (setSpeed argument scene).1.bindings = scene.bindings := by
  rcases setSpeed_cases argument scene with ⟨hscene, -⟩ | ⟨value, named, hscene, -, -⟩
  · rw [hscene]
  · rw [hscene]

theorem get?_assign (name : String) (value : Int64) (scene : Scene α) (other : String) :
    (assign name value scene).1.bindings.get? other =
      if other = name then some value else scene.bindings.get? other :=
  Variables.get?_set scene.bindings name other value

end

/-! ## The two ways to write it -/

section
variable {allowed : ActionSet} {name digits : String} {value : Int64}

theorem recognize_through_name (hallowed : .setSpeed ∈ allowed) (hname : IsName name)
    (hdigits : Grammar.IsNumeral digits.toList)
    (hvalue : Decimal.toInt64? digits.toList = some value) :
    recognize (name ++ " = " ++ digits ++ "; setSpeed(" ++ name ++ ");") allowed =
      [.assign name value, .act .setSpeed (some (.named name))] := by
  have hassign : Spells allowed _ _ := spells_assign hname hdigits hvalue
  have hcall := spells_call (some (.name name.toList)) hallowed rfl
    (fun v hv => Option.some.inj hv ▸ hname) rfl
  rw [String.ofList_toList] at hassign hcall
  refine recognize_line ?_ (.cons hassign (.cons hcall .nil))
  simp [line, Action.name, Grammar.Value.text]

theorem recognize_literal (hallowed : .setSpeed ∈ allowed)
    (hdigits : Grammar.IsNumeral digits.toList)
    (hvalue : Decimal.toInt64? digits.toList = some value) :
    recognize ("setSpeed(" ++ digits ++ ");") allowed =
      [.act .setSpeed (some (.literal value))] := by
  have hargument : argument? (some (.number digits.toList)) = .ok (some (.literal value)) := by
    simp only [argument?, number?, hvalue]
    rfl
  have hcall := spells_call (some (.number digits.toList)) hallowed rfl
    (fun v hv => Option.some.inj hv ▸ hdigits) hargument
  refine recognize_line ?_ (.cons hcall .nil)
  simp [line, Action.name, Grammar.Value.text]

end

end Script

namespace Session

open Script (Statement SetsSpeed)

/-- A run of a script without loops, from the scene it finds to the one it leaves. -/
theorem run_straight {s : Session α} (hidle : s.active = none) {source : String}
    {script : List Statement} (hscript : s.stage.recognize source = script)
    (hstraight : ∀ statement ∈ script, statement.entersLoop = false) :
    let done := Script.runAll s.stage.level.retreat script s.scene
    ∃ report, (s.run source).1 = .ok report ∧ report.issues = done.2.issues ∧
      (s.run source).2.scene = (penalty done.1).1 := by
  intro done
  have hactive : (s.begun source).active = some (s.newRun source) := rfl
  have hstepped : (s.begun source).stepped (s.newRun source) =
      ⟨.finished, .start [], done.1, done.2⟩ := by
    rw [stepped, newRun, hscript]
    exact Script.step_straight hstraight _ _ _
  have hend := runOn_of_finished
    (resume_of_finished hactive (congrArg Script.Stepped.status hstepped))
  rw [run_of_idle hidle, hend]
  refine ⟨_, rfl, ?_, ?_⟩
  · have hissues := congrArg (fun stepped => stepped.output.issues) hstepped
    rw [ended, finish_eq, Output.issues_append, issues_ending, List.append_nil]
    exact hissues
  · have hscene := congrArg (fun stepped => (penalty stepped.scene).1) hstepped
    exact hscene

/-- An obstacle in the way changes nothing about the speed. -/
theorem setsSpeed_penalty {value : Int64} {named : Bool} {before after : Scene α}
    {issues : List Issue} (h : SetsSpeed value named before after issues) :
    SetsSpeed value named before (penalty after).1 issues := by
  obtain ⟨x, hscene⟩ := penalty_eq after
  rw [hscene]
  exact ⟨h.within, h.beyond⟩

theorem bindings_penalty (scene : Scene α) : (penalty scene).1.bindings = scene.bindings := by
  obtain ⟨x, hscene⟩ := penalty_eq scene
  rw [hscene]

/-- A number of any length sets the speed if it is in range, and is an issue and no more if it is
not. Given through a variable, it is the value of the variable either way. -/
theorem speed_set_within_range {s : Session α} (hidle : s.active = none)
    (hallowed : .setSpeed ∈ s.stage.level.allowed) {name digits : String}
    (hname : Script.IsName name) (hdigits : Script.Grammar.IsNumeral digits.toList)
    (hmax : Decimal.value digits.toList ≤ Decimal.maxInt64) :
    let value := Int64.ofNat (Decimal.value digits.toList)
    let through := s.run (name ++ " = " ++ digits ++ "; setSpeed(" ++ name ++ ");")
    let direct := s.run ("setSpeed(" ++ digits ++ ");")
    value.toInt = Decimal.value digits.toList ∧
    (∃ report, through.1 = .ok report ∧
      SetsSpeed value true s.scene through.2.scene report.issues ∧
      ∀ other, through.2.scene.bindings.get? other =
        if other = name then some value else s.scene.bindings.get? other) ∧
    ∃ report, direct.1 = .ok report ∧
      SetsSpeed value false s.scene direct.2.scene report.issues ∧
      direct.2.scene.bindings = s.scene.bindings := by
  intro value through direct
  have hvalue : Decimal.toInt64? digits.toList = some value := if_pos hmax
  refine ⟨Int64.toInt_ofNat_of_lt (Nat.lt_succ_of_le hmax), ?_, ?_⟩
  · have hscript := Script.recognize_through_name hallowed hname hdigits hvalue
    obtain ⟨report, hreport, hissues, hscene⟩ :=
      run_straight hidle hscript (by simp [Statement.entersLoop])
    have hassigned := Script.get?_assign name value s.scene
    have hread : Script.Argument.value? (Script.assign name value s.scene).1.bindings
        (some (.named name)) = .ok value := by
      rw [Script.Argument.value?, hassigned, if_pos rfl]
    have hset := Script.setsSpeed_setSpeed hread
    refine ⟨report, hreport, ?_, ?_⟩
    · rw [hissues, hscene, Script.runAll, Script.runAll_singleton]
      exact setsSpeed_penalty ⟨hset.within, hset.beyond⟩
    · intro other
      rw [hscene, bindings_penalty, ← hassigned]
      exact congrArg (·.get? other) (Script.bindings_setSpeed _ _)
  · have hscript := Script.recognize_literal hallowed hdigits hvalue
    obtain ⟨report, hreport, hissues, hscene⟩ :=
      run_straight hidle hscript (by simp [Statement.entersLoop])
    have hread : Script.Argument.value? s.scene.bindings (some (.literal value)) = .ok value := rfl
    have hset := Script.setsSpeed_setSpeed hread
    refine ⟨report, hreport, ?_, ?_⟩
    · rw [hissues, hscene, Script.runAll_singleton]
      exact setsSpeed_penalty hset
    · rw [hscene, bindings_penalty]
      exact Script.bindings_setSpeed _ _

theorem speed_set_within_range_zeros :
    let s : Session Float := .start ⟨Catalog.Builtin.variablesLevel, .standard⟩ .standard
    let through := s.run ("for" ++ " = " ++ "0020" ++ "; setSpeed(" ++ "for" ++ ");")
    let direct := s.run ("setSpeed(" ++ "0020" ++ ");")
    s.active = none ∧ .setSpeed ∈ s.stage.level.allowed ∧ Script.IsName "for" ∧
      Script.Grammar.IsNumeral "0020".toList ∧
      Decimal.value "0020".toList ≤ Decimal.maxInt64 ∧
      through.2.scene.bindings.get? "for" = some 20 ∧
      through.2.scene.world.character.speed = 20 ∧ direct.2.scene.world.character.speed = 20 := by
  intro s through direct
  have hidle : s.active = none := rfl
  have hallowed : .setSpeed ∈ s.stage.level.allowed := by decide
  have hname : Script.IsName "for" := by decide
  have hdigits : Script.Grammar.IsNumeral "0020".toList := ⟨by simp, by simp⟩
  have hmax : Decimal.value "0020".toList ≤ Decimal.maxInt64 := by decide +kernel
  have hlegal : IsLegal 20 := ⟨by decide, by decide⟩
  obtain ⟨-, ⟨report, -, hthrough, hvalue⟩, ⟨other, -, hdirect, -⟩⟩ :=
    speed_set_within_range hidle hallowed hname hdigits hmax
  exact ⟨hidle, hallowed, hname, hdigits, hmax, hvalue "for", (hthrough.within hlegal).1,
    (hdirect.within hlegal).1⟩

end Session

end Playscript
