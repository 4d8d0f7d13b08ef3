import Playscript.Proofs.Run.Law
import Playscript.Run.Execution
/-! What a step of a script can do. A step goes through statements and rounds of loops until a loop
has a further round, and there it pauses; without such a loop it goes through to the end. What a
step keeps is shown once for each of these moves. -/
namespace Playscript.Script

variable {α : Type} [Coordinate α]

/-- A loop that has rounds. At the top level it is run round by round. -/
def Statement.entersLoop : Statement → Bool
  | .loop _ first stop _ => Loop.entry first stop = .entered
  | _ => false

/-- The loop statement whose first round is the cursor's next one. -/
def Cursor.statement (c : Cursor) : Statement :=
  .loop c.counter c.next c.stop c.body

def Cursor.opening (c : Cursor) : Effect α :=
  openLoop c.counter c.next c.stop c.body

/-- The next round of a loop in progress. -/
def Cursor.round (c : Cursor) (retreat : Option Action) : Effect α :=
  iterate c.counter c.next (runAll retreat c.body)

theorem body_of_advance? {c next : Cursor} (h : c.advance? = some next) : next.body = c.body := by
  unfold Cursor.advance? at h
  split at h
  · cases h
    rfl
  · cases h

/-- The steps that a script in progress can make in a scene. -/
inductive Advances (retreat : Option Action) (delay : Duration) :
    Execution → Scene α → Stepped α → Prop
  | done (scene : Scene α) :
      Advances retreat delay (.start []) scene ⟨.finished, .start [], scene, .empty⟩
  | statement {s : Statement} {rest : List Statement} {scene : Scene α} {later : Stepped α} :
      s.entersLoop = false →
      Advances retreat delay (.start rest) (s.run retreat scene).1 later →
      Advances retreat delay (.start (s :: rest)) scene (later.after (s.run retreat scene).2)
  | opened {c : Cursor} {rest : List Statement} {scene : Scene α} {later : Stepped α} :
      Loop.entry c.next c.stop = .entered →
      Advances retreat delay ⟨some c, rest⟩ (c.opening scene).1 later →
      Advances retreat delay (.start (c.statement :: rest)) scene
        (later.after (c.opening scene).2)
  | lastRound {c : Cursor} {rest : List Statement} {scene : Scene α} {later : Stepped α} :
      c.advance? = none →
      Advances retreat delay (.start rest) (c.round retreat scene).1 later →
      Advances retreat delay ⟨some c, rest⟩ scene (later.after (c.round retreat scene).2)
  | paused {c next : Cursor} {rest : List Statement} {scene : Scene α} :
      c.advance? = some next →
      Advances retreat delay ⟨some c, rest⟩ scene
        ⟨.paused delay, ⟨some next, rest⟩, (c.round retreat scene).1,
          (c.round retreat scene).2 ++ .event (.pacing c.next delay)⟩

theorem advances_turn (c : Cursor) (retreat : Option Action) (delay : Duration)
    (rest : List Statement)
    (hgo : ∀ scene : Scene α,
      Advances retreat delay (.start rest) scene (stepAll retreat delay rest scene))
    (scene : Scene α) :
    Advances retreat delay ⟨some c, rest⟩ scene
      (c.turn retreat delay rest (stepAll retreat delay rest) scene) := by
  unfold Cursor.turn
  dsimp only
  split
  · rename_i next hnext
    exact .paused hnext
  · rename_i hlast
    exact .lastRound hlast (hgo _)

theorem advances_stepAll (retreat : Option Action) (delay : Duration)
    (script : List Statement) :
    ∀ scene : Scene α,
      Advances retreat delay (.start script) scene (stepAll retreat delay script scene) := by
  induction script with
  | nil => exact .done
  | cons s rest ih =>
      intro scene
      cases s with
      | loop counter first stop body =>
          simp only [stepAll]
          split
          · rename_i hentry
            have hlt := Loop.lt_of_entry hentry
            exact .opened (c := ⟨counter, body, first, stop, hlt⟩) hentry
              (advances_turn _ retreat delay rest ih _)
          · rename_i hentry
            refine .statement ?_ (ih _)
            simpa only [Statement.entersLoop, decide_eq_false_iff_not] using hentry
      | assign | act | branch | unrecognized | malformedLoop => exact .statement rfl (ih _)

theorem advances_step (e : Execution) (retreat : Option Action) (delay : Duration)
    (scene : Scene α) : Advances retreat delay e scene (e.step retreat delay scene) := by
  obtain ⟨active, rest⟩ := e
  cases active with
  | some c => exact advances_turn c retreat delay rest (advances_stepAll retreat delay rest) scene
  | none => exact advances_stepAll retreat delay rest scene

/-! ## The same as equations -/

section
variable (retreat : Option Action) (delay : Duration) (scene : Scene α) {s : Statement}
  {rest : List Statement} {c : Cursor}

theorem step_statement (h : s.entersLoop = false) :
    (Execution.start (s :: rest)).step retreat delay scene =
      ((Execution.start rest).step retreat delay (s.run retreat scene).1).after
        (s.run retreat scene).2 := by
  cases s with
  | loop counter first stop body =>
      have hentry : Loop.entry first stop ≠ .entered := of_decide_eq_false h
      simp only [Execution.step, Execution.start, stepAll, dif_neg hentry]
  | assign | act | branch | unrecognized | malformedLoop => rfl

theorem step_opened (h : Loop.entry c.next c.stop = .entered) :
    (Execution.start (c.statement :: rest)).step retreat delay scene =
      ((⟨some c, rest⟩ : Execution).step retreat delay (c.opening scene).1).after
        (c.opening scene).2 := by
  simp only [Execution.step, Execution.start, Cursor.statement, stepAll, dif_pos h]
  rfl

theorem step_lastRound (h : c.advance? = none) :
    (⟨some c, rest⟩ : Execution).step retreat delay scene =
      ((Execution.start rest).step retreat delay (c.round retreat scene).1).after
        (c.round retreat scene).2 := by
  simp only [Execution.step, Cursor.turn, h]
  rfl

theorem step_paused (rest : List Statement) {next : Cursor} (h : c.advance? = some next) :
    (⟨some c, rest⟩ : Execution).step retreat delay scene =
      ⟨.paused delay, ⟨some next, rest⟩, (c.round retreat scene).1,
        (c.round retreat scene).2 ++ .event (.pacing c.next delay)⟩ := by
  simp only [Execution.step, Cursor.turn, h]
  rfl

end

/-! ## Where a script pauses -/

/-- The rounds of a statement at the top level that are followed by a pause: all rounds of a loop
but the last. -/
def Statement.pausedRounds : Statement → List Int64
  | .loop _ first stop _ =>
      if Loop.entry first stop = .entered then (Loop.span first stop).dropLast else []
  | _ => []

def Cursor.pausedRounds (c : Cursor) : List Int64 :=
  (Loop.span c.next c.stop).dropLast

/-- The rounds after which a script in progress has still to pause, in order. -/
def Execution.pausedRounds (e : Execution) : List Int64 :=
  e.active.elim [] Cursor.pausedRounds ++ e.rest.flatMap Statement.pausedRounds

/-- The limit lies well within the range of words, so it is passed before a difference is cut off at
the end of the range. -/
theorem Loop.lt_saturatingSub_iff {first stop : Int64} :
    maxIterations < saturatingSub stop first ↔
      maxIterations.toInt < stop.toInt - first.toInt := by
  have hlimit : maxIterations.toInt = 100 := rfl
  have hmin : Int64.minValue.toInt = -9223372036854775808 := rfl
  have hmax : Int64.maxValue.toInt = 9223372036854775807 := rfl
  rw [Int64.lt_iff_toInt_lt]
  unfold saturatingSub
  dsimp only
  split
  · omega
  · split
    · omega
    · rw [Int64.toInt_ofInt_of_le (by omega) (by omega)]

/-- A loop is entered if it has rounds, and no more than the limit. -/
theorem Loop.entry_eq_entered_iff {first stop : Int64} :
    entry first stop = .entered ↔
      first < stop ∧ stop.toInt - first.toInt ≤ maxIterations.toInt := by
  constructor
  · intro h
    have hshort : ¬ maxIterations < saturatingSub stop first := by
      intro hlong
      rw [entry, if_pos hlong] at h
      cases h
    exact ⟨lt_of_entry h, Int.not_lt.mp (mt lt_saturatingSub_iff.mpr hshort)⟩
  · rintro ⟨hlt, hshort⟩
    rw [entry, if_neg (mt lt_saturatingSub_iff.mp (Int.not_lt.mpr hshort)),
      if_neg (Int64.not_le.mpr hlt)]

/-- A loop within the limit is not refused. -/
theorem Loop.entry_ne_tooLong {first stop : Int64}
    (h : stop.toInt - first.toInt ≤ maxIterations.toInt) : Loop.entry first stop ≠ .tooLong := by
  rw [entry, if_neg (mt lt_saturatingSub_iff.mp (Int.not_lt.mpr h))]
  split <;> simp

theorem Cursor.pausedRounds_of_advance? {c next : Cursor} (h : c.advance? = some next) :
    c.pausedRounds = c.next :: next.pausedRounds := by
  unfold advance? at h
  split at h
  · rename_i hlt
    cases h
    simp only [pausedRounds, Loop.span_eq_cons c.next_lt_stop]
    rw [Loop.span_eq_cons hlt, List.dropLast_cons_cons]
  · cases h

theorem Cursor.pausedRounds_of_last {c : Cursor} (h : c.advance? = none) :
    c.pausedRounds = [] := by
  unfold advance? at h
  split at h
  · cases h
  · rename_i hlast
    rw [pausedRounds, Loop.span_eq_cons c.next_lt_stop, Loop.span_eq_nil (Int64.not_lt.mp hlast)]
    rfl

theorem pausedRounds_of_not_entersLoop {s : Statement} (h : s.entersLoop = false) :
    s.pausedRounds = [] := by
  cases s with
  | loop counter first stop body =>
      have hentry : Loop.entry first stop ≠ .entered := by
        simpa only [Statement.entersLoop, decide_eq_false_iff_not] using h
      rw [Statement.pausedRounds, if_neg hentry]
  | _ => rfl

/-- What a step makes of the rounds that have to be followed by a pause. It pauses after the first
of them and tells of this last; if there is none it finishes. -/
inductive Paces (delay : Duration) (stepped : Stepped α) : List Int64 → Prop
  | finished : stepped.status = .finished →
      (∀ e ∈ stepped.output.events, e.isDeed = true) → Paces delay stepped []
  | paused {round : Int64} {deeds : List (Event α)} : stepped.status = .paused delay →
      stepped.output.events = deeds ++ [.pacing round delay] →
      (∀ e ∈ deeds, e.isDeed = true) →
      Paces delay stepped (round :: stepped.execution.pausedRounds)

omit [Coordinate α] in
theorem Paces.after {delay : Duration} {stepped : Stepped α} {rounds : List Int64}
    (h : Paces delay stepped rounds) {earlier : Output α}
    (hearlier : ∀ e ∈ earlier.events, e.isDeed = true) :
    Paces delay (stepped.after earlier) rounds := by
  cases h with
  | finished hstatus hdeeds =>
      refine .finished hstatus ?_
      intro e he
      rcases List.mem_append.mp he with hbefore | hafter
      · exact hearlier e hbefore
      · exact hdeeds e hafter
  | @paused round deeds hstatus hevents hdeeds =>
      have hall : (stepped.after earlier).output.events =
          (earlier.events ++ deeds) ++ [.pacing round delay] := by
        rw [Stepped.after, Output.events_append, hevents, List.append_assoc]
      refine .paused hstatus hall ?_
      intro e he
      rcases List.mem_append.mp he with hbefore | hafter
      · exact hearlier e hbefore
      · exact hdeeds e hafter

theorem Cursor.round_onlyDeeds (c : Cursor) (retreat : Option Action) :
    (c.round retreat : Effect α).OnlyDeeds :=
  (deed_law retreat).iterate c.counter c.next ((deed_law retreat).runAll c.body)

theorem paces_of_advances {retreat : Option Action} {delay : Duration} {e : Execution}
    {scene : Scene α} {stepped : Stepped α} (h : Advances retreat delay e scene stepped) :
    Paces delay stepped e.pausedRounds := by
  induction h with
  | done scene => exact .finished rfl nofun
  | @statement s rest scene later hs _ ih =>
      have hrounds : (Execution.start (s :: rest)).pausedRounds =
          (Execution.start rest).pausedRounds := by
        simp only [Execution.pausedRounds, Execution.start, List.flatMap_cons,
          pausedRounds_of_not_entersLoop hs, List.nil_append]
      rw [hrounds]
      exact ih.after ((deed_law retreat).run s scene)
  | @opened c rest scene later hentry _ ih =>
      have hrounds : (Execution.start (c.statement :: rest)).pausedRounds =
          Execution.pausedRounds ⟨some c, rest⟩ := by
        simp only [Execution.pausedRounds, Execution.start, List.flatMap_cons, Cursor.statement,
          Statement.pausedRounds, if_pos hentry]
        rfl
      rw [hrounds]
      exact ih.after ((deed_law retreat).openLoop c.counter c.next c.stop c.body scene)
  | @lastRound c rest scene later hlast _ ih =>
      have hrounds : Execution.pausedRounds ⟨some c, rest⟩ =
          (Execution.start rest).pausedRounds := by
        simp only [Execution.pausedRounds, Execution.start, Option.elim_some,
          Cursor.pausedRounds_of_last hlast]
        rfl
      rw [hrounds]
      exact ih.after (c.round_onlyDeeds retreat scene)
  | @paused c next rest scene hnext =>
      have hrounds : Execution.pausedRounds ⟨some c, rest⟩ =
          c.next :: Execution.pausedRounds ⟨some next, rest⟩ := by
        simp only [Execution.pausedRounds, Option.elim_some,
          Cursor.pausedRounds_of_advance? hnext, List.cons_append]
      rw [hrounds]
      exact .paused rfl rfl (c.round_onlyDeeds retreat scene)

/-- A step pauses exactly when a round with a pause is left, after the first such round. -/
theorem paces_step (e : Execution) (retreat : Option Action) (delay : Duration)
    (scene : Scene α) : Paces delay (e.step retreat delay scene) e.pausedRounds :=
  paces_of_advances (advances_step e retreat delay scene)

end Playscript.Script
