import Playscript.Proofs.Run.Law
import Playscript.Proofs.Run.Stepping
import Playscript.Proofs.Script.Shape
/-! What a script makes use of: the actions that it calls and the conditions that it asks about, at
any depth. A property of effects that the parts of a script have, as far as it makes use of them,
passes to its statements and to the steps that it is run in. -/
namespace Playscript.Script

variable {l : Licence}

/-! ## Recognized scripts -/

/-- The conditions that the blocks of a script depend on. -/
def conditions (script : List Statement) : List String :=
  script.filterMap fun
    | .branch condition _ => some condition
    | _ => none

theorem Statement.Inner.keeps {allowed : ActionSet} {s : Statement} (h : s.Inner allowed)
    (hallowed : ∀ a ∈ allowed, l.actions a) : s.Keeps l := by
  cases h with
  | flat hflat =>
      cases hflat with
      | assign _ _ => exact trivial
      | act haction _ _ => exact hallowed _ haction
  | unrecognized text line reason => exact trivial

theorem Statement.Outer.keeps {allowed : ActionSet} {s : Statement} (h : s.Outer allowed)
    (hallowed : ∀ a ∈ allowed, l.actions a) (hasked : ∀ c ∈ conditions [s], l.conditions c) :
    s.Keeps l := by
  cases h with
  | inner hinner => exact hinner.keeps hallowed
  | branch _ hbody =>
      refine ⟨hasked _ (List.mem_singleton_self _), ?_⟩
      exact allKeep_iff.mpr fun s hs => (hbody s hs).keeps hallowed
  | loop _ _ _ _ hbody => exact allKeep_iff.mpr fun s hs => (hbody s hs).keeps hallowed
  | malformedLoop header line reason => exact trivial

/-- A recognized script calls allowed actions only, and has conditions at its top level only. -/
theorem allKeep_recognize {source : String} {allowed : ActionSet}
    (hallowed : ∀ a ∈ allowed, l.actions a)
    (hasked : ∀ c ∈ conditions (recognize source allowed), l.conditions c) :
    AllKeep l (recognize source allowed) := by
  rw [allKeep_iff]
  intro s hs
  apply (outer_of_mem_recognize hs).keeps hallowed
  intro c hc
  obtain ⟨own, hown, hcondition⟩ := List.mem_filterMap.mp hc
  rw [List.mem_singleton.mp hown] at hcondition
  exact hasked c (List.mem_filterMap.mpr ⟨s, hs, hcondition⟩)

variable {α : Type} [Coordinate α] {retreat : Option Action} {P : Effect α → Prop}

/-! ## Steps -/

/-- A script in progress that keeps to a licence in all that is left of it. -/
structure Execution.Keeps (l : Licence) (e : Execution) : Prop where
  body : ∀ c, e.active = some c → AllKeep l c.body
  rest : AllKeep l e.rest

theorem AllKeep.start {script : List Statement} (h : AllKeep l script) :
    (Execution.start script).Keeps l :=
  ⟨nofun, h⟩

theorem keeps_of_advances {delay : Duration} {e : Execution} {scene : Scene α}
    {stepped : Stepped α} (h : Advances retreat delay e scene stepped) (he : e.Keeps l) :
    stepped.execution.Keeps l := by
  induction h with
  | done scene => exact he
  | statement _ _ ih => exact ih he.rest.2.start
  | opened _ _ ih => exact ih ⟨fun d hd => Option.some.inj hd ▸ he.rest.1, he.rest.2⟩
  | lastRound _ _ ih => exact ih he.rest.start
  | @paused c next rest scene hnext =>
      refine ⟨?_, he.rest⟩
      intro d hd
      cases hd
      rw [body_of_advance? hnext]
      exact he.body c rfl

/-- A way to go on, as an effect. -/
def stepEffect (go : Scene α → Stepped α) : Effect α := fun scene =>
  ((go scene).scene, (go scene).output)

variable {delay : Duration}

theorem stepEffect_paused {c next : Cursor} (hnext : c.advance? = some next)
    (rest : List Statement) (goOn : Scene α → Stepped α) :
    stepEffect (c.turn retreat delay rest goOn) =
      (c.round retreat).andThen (.tell (.event (.pacing c.next delay))) := by
  funext scene
  simp only [stepEffect, Cursor.turn, hnext]
  rfl

theorem stepEffect_lastRound {c : Cursor} (hlast : c.advance? = none) (rest : List Statement)
    (goOn : Scene α → Stepped α) :
    stepEffect (c.turn retreat delay rest goOn) =
      (c.round retreat).andThen (stepEffect goOn) := by
  funext scene
  simp only [stepEffect, Cursor.turn, hlast]
  rfl

theorem stepEffect_opened {c : Cursor} (hentry : Loop.entry c.next c.stop = .entered)
    (rest : List Statement) :
    stepEffect (stepAll (α := α) retreat delay (c.statement :: rest)) =
      c.opening.andThen (stepEffect (c.turn retreat delay rest (stepAll retreat delay rest))) := by
  funext scene
  simp only [stepEffect, Cursor.statement, stepAll, hentry]
  rfl

theorem stepEffect_passed {s : Statement} (h : s.entersLoop = false) (rest : List Statement) :
    stepEffect (stepAll (α := α) retreat delay (s :: rest)) =
      (s.run retreat).andThen (stepEffect (stepAll retreat delay rest)) := by
  funext scene
  cases s with
  | loop counter first stop body =>
      have hentry : Loop.entry first stop ≠ .entered := of_decide_eq_false h
      simp only [stepEffect, stepAll, hentry]
      rfl
  | assign | act | branch | unrecognized | malformedLoop => rfl

theorem exists_cursor {s : Statement} (h : s.entersLoop = true) :
    ∃ c : Cursor, s = c.statement ∧ Loop.entry c.next c.stop = .entered := by
  cases s with
  | loop counter first stop body =>
      have hentry : Loop.entry first stop = .entered := of_decide_eq_true h
      exact ⟨⟨counter, body, first, stop, Loop.lt_of_entry hentry⟩, rfl, hentry⟩
  | assign | act | branch | unrecognized | malformedLoop => cases h

namespace LicensedLaw

theorem turn (h : LicensedLaw l retreat P) (hpacing : ∀ i, P (.tell (.event (.pacing i delay))))
    {c : Cursor} (hbody : AllKeep l c.body) {rest : List Statement} {goOn : Scene α → Stepped α}
    (hgo : P (stepEffect goOn)) : P (stepEffect (c.turn retreat delay rest goOn)) := by
  have hround := h.iterate c.counter c.next (h.runAll c.body hbody)
  cases hnext : c.advance? with
  | some next =>
      rw [stepEffect_paused hnext]
      exact h.andThen hround (hpacing c.next)
  | none =>
      rw [stepEffect_lastRound hnext]
      exact h.andThen hround hgo

theorem stepAll (h : LicensedLaw l retreat P)
    (hpacing : ∀ i, P (.tell (.event (.pacing i delay)))) {script : List Statement}
    (hkeeps : AllKeep l script) : P (stepEffect (stepAll retreat delay script)) := by
  induction script with
  | nil => exact h.skip
  | cons s rest ih =>
      cases hloop : s.entersLoop with
      | false =>
          rw [stepEffect_passed hloop]
          exact h.andThen (h.run s hkeeps.1) (ih hkeeps.2)
      | true =>
          obtain ⟨c, rfl, hentry⟩ := exists_cursor hloop
          rw [stepEffect_opened hentry]
          exact h.andThen (h.openLoop c.counter c.next c.stop hkeeps.1)
            (h.turn hpacing hkeeps.1 (ih hkeeps.2))

/-- What the parts of a script have, its steps have. -/
theorem step (h : LicensedLaw l retreat P) (hpacing : ∀ i, P (.tell (.event (.pacing i delay))))
    {e : Execution} (he : e.Keeps l) : P (stepEffect (e.step retreat delay)) := by
  obtain ⟨active, rest⟩ := e
  cases active with
  | some c => exact h.turn hpacing (he.body c rfl) (h.stepAll hpacing he.rest)
  | none => exact h.stepAll hpacing he.rest

end LicensedLaw

theorem Execution.keeps_any (e : Execution) : e.Keeps .any :=
  ⟨fun c _ => allKeep_any c.body, allKeep_any e.rest⟩

theorem StatementLaw.step (h : StatementLaw retreat P)
    (hpacing : ∀ i, P (.tell (.event (.pacing i delay)))) (e : Execution) :
    P (stepEffect (e.step retreat delay)) :=
  (h.licensed .any).step hpacing e.keeps_any

end Playscript.Script
