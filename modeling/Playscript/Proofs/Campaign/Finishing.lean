import Playscript.Proofs.Campaign.Unlocking
import Playscript.Proofs.Session.Completion
/-! What it means that a campaign is finished. Going on from the completed last level finishes it,
and entering a level takes that back. A reset makes the level as open as entering it anew does, but
the campaign does not hear of it, so a finished campaign may have its last level still to complete.
-/
namespace Playscript.Campaign

variable {α : Type}

/-! ## Since the campaign was finished -/

def Entry.finishes (e : Entry α) : Bool :=
  match e.reply with
  | .advanced (.ok .finished) => true
  | _ => false

/-- What has been asked of sessions since the campaign was last finished. -/
def playedSinceFinish (entries : List (Entry α)) : List (Session.Entry α) :=
  (entries.rtakeWhile fun e => !e.finishes).filterMap Entry.played?

theorem playedSinceFinish_concat (entries : List (Entry α)) (e : Entry α) :
    playedSinceFinish (entries ++ [e]) =
      if e.finishes then [] else playedSinceFinish entries ++ e.played?.toList := by
  rw [playedSinceFinish, List.rtakeWhile_concat]
  cases e.finishes with
  | true => rfl
  | false =>
      rw [Bool.not_false, if_pos rfl, if_neg Bool.false_ne_true, List.filterMap_append]
      rfl

variable [Coordinate α]

/-- The level is completed after these entries of its session, if it was before the first. -/
def StaysCompleted (entries : List (Session.Entry α)) : Prop :=
  (∀ e ∈ entries, e.operation.isReset = false) ∨ ∃ e ∈ Session.sinceReset entries, e.Completes

theorem staysCompleted_concat (entries : List (Session.Entry α)) (s : Session α)
    (op : Session.Operation) :
    StaysCompleted (entries ++ [s.entry op]) ↔
      op.isReset = false ∧ (StaysCompleted entries ∨ (s.entry op).Completes) := by
  cases hreset : op.isReset with
  | true =>
      have hentry : (s.entry op).operation.isReset = true := hreset
      rw [StaysCompleted, Session.sinceReset_append, hentry, if_pos rfl]
      refine ⟨?_, nofun⟩
      rintro (hnone | ⟨e, he, -⟩)
      · cases hentry.symm.trans (hnone _ (List.mem_append_right _ (List.mem_singleton_self _)))
      · cases he
  | false =>
      have hentry : (s.entry op).operation.isReset = false := hreset
      rw [StaysCompleted, StaysCompleted, Session.exists_completes_entry hreset,
        List.forall_mem_append, List.forall_mem_singleton, hentry, and_iff_left rfl,
        and_iff_right rfl, or_assoc]

/-- What holds of a finished campaign: it is at its last level, which was completed then. -/
structure Finished (entries : List (Entry α)) (c : Campaign α) : Prop where
  last : c.order.length ≤ c.current + 1
  completed : c.session.completed = true ↔ StaysCompleted (playedSinceFinish entries)

section
variable {entries : List (Entry α)} {c : Campaign α}

/-- An operation that leaves the session and the place alone. -/
theorem Finished.keep (h : Finished entries c) {e : Entry α} (hfinishes : e.finishes = false)
    (hplayed : e.played? = none) : Finished (entries ++ [e]) c where
  last := h.last
  completed := by
    rw [playedSinceFinish_concat, hfinishes, hplayed, Option.toList_none, List.append_nil]
    exact h.completed

theorem Finished.play (h : Finished entries c) (op : Session.Operation) :
    let next := { c with session := (c.session.perform op).2 }
    Finished (entries ++ [⟨c, .play op, .played (c.session.perform op).1, next⟩]) next where
  last := h.last
  completed := by
    have hplayed : playedSinceFinish (entries ++ [⟨c, .play op, .played (c.session.perform op).1,
        { c with session := (c.session.perform op).2 }⟩]) =
        playedSinceFinish entries ++ [c.session.entry op] :=
      playedSinceFinish_concat _ _
    rw [hplayed, staysCompleted_concat, ← h.completed]
    cases hreset : op.isReset with
    | false => exact (Session.completed_perform hreset).trans (and_iff_right rfl).symm
    | true =>
        cases op with
        | reset => exact ⟨nofun, nofun⟩
        | _ => cases hreset

theorem finished_step (h : c.finished = true → Finished entries c) {op : Operation}
    {reply : Reply α} {next : Campaign α} (hstep : Step c op reply next)
    (hfinished : next.finished = true) : Finished (entries ++ [⟨c, op, reply, next⟩]) next := by
  cases hstep with
  | select | advance | restart => cases hfinished
  | selectUnknown | advanceEarly => exact (h hfinished).keep rfl rfl
  | advanceLast hcompleted hlast =>
      refine ⟨hlast, ?_⟩
      rw [playedSinceFinish_concat]
      exact iff_of_true hcompleted (.inl (List.forall_mem_nil _))
  | play op => exact (h hfinished).play op

theorem finished_history (hcatalog : OnCatalog c) (h : c.finished = true → Finished entries c)
    (ops : List Operation) (hfinished : (c.performAll ops).2.finished = true) :
    Finished (entries ++ c.history ops) (c.performAll ops).2 := by
  induction ops generalizing c entries with
  | nil =>
      rw [history, List.append_nil]
      exact h hfinished
  | cons op rest ih =>
      have hlater := ih (hcatalog.perform op) (finished_step h (hcatalog.step op)) hfinished
      rwa [List.append_assoc] at hlater

end

/-- A campaign that is finished is at its last level. That level is completed unless it was reset
since the campaign was finished and no run since then has completed it again. -/
theorem finished_at_last_level {catalog : Catalog α} {settings : Settings} {c : Campaign α}
    (hstart : start catalog settings = .ok c) (ops : List Operation) :
    let last := (c.performAll ops).2
    let played := playedSinceFinish (c.history ops)
    last.finished = true →
      last.current + 1 = catalog.levels.length ∧
      catalog.ordered.getLast?.map Level.kind = some last.currentKind ∧
      (last.session.completed = true ↔
        (∀ e ∈ played, e.operation.isReset = false) ∨
          ∃ e ∈ Session.sinceReset played, e.Completes) := by
  intro last played hfinished
  have hplaying : Playing catalog settings (sinceRestart (c.history ops)) last :=
    (playing_start hstart).history ops
  have hunfinished : c.finished = true → Finished [] c := by
    obtain ⟨-, -, -, -, rfl⟩ := start_eq hstart
    exact nofun
  have hall : Finished (c.history ops) last :=
    finished_history (onCatalog_start hstart) hunfinished ops hfinished
  have hstage := hplaying.attempt.stageAt?
  have hplace : last.current + 1 = catalog.levels.length := by
    have hlt := lt_of_stageAt? hstage
    have hle := hplaying.length_order ▸ hall.last
    omega
  refine ⟨hplace, ?_, hall.completed⟩
  have hkind := kind_of_stageAt? hstage
  rwa [List.getLast?_eq_getElem?, Catalog.ordered, List.length_mergeSort, ← hplace,
    Nat.add_sub_cancel]

/-! ## A game of one level -/

def oneLevel : Catalog Float :=
  ⟨.standard, [Catalog.Builtin.commandsLevel]⟩

def oneLevelCampaign : Campaign Float :=
  { catalog := oneLevel
    settings := .standard
    order := [.commands]
    current := 0
    session := .start ⟨Catalog.Builtin.commandsLevel, .standard⟩ .standard
    finished := false }

theorem start_oneLevel : start oneLevel .standard = .ok oneLevelCampaign := by
  have hordered : oneLevel.ordered = oneLevel.levels := List.mergeSort_singleton _
  rw [start, hordered]
  rfl

/-- The level is completed, and the campaign with it. -/
def oneClimb : List Operation :=
  [.play (.begin "moveLeft(); jump();"), .play (.resume ⟨1⟩), .advance]

/-- After that, the level is put back to its start and completed again. -/
def climbedAgain : List Operation :=
  oneClimb ++ [.play .reset, .play (.begin "moveLeft(); jump();"), .play (.resume ⟨2⟩)]

theorem finished_at_last_level_climbedAgain :
    let last := (oneLevelCampaign.performAll climbedAgain).2
    let played := playedSinceFinish (oneLevelCampaign.history climbedAgain)
    start oneLevel .standard = .ok oneLevelCampaign ∧ last.finished = true ∧
      last.current + 1 = oneLevel.levels.length ∧ last.session.completed = true ∧
      (∃ e ∈ played, e.operation.isReset = true) ∧
      ∃ e ∈ Session.sinceReset played, e.Completes := by
  intro last played
  have hfinished : last.finished = true := by decide +kernel
  have hcompleted : last.session.completed = true := by decide +kernel
  have hreset : ∃ e ∈ played, e.operation.isReset = true := by
    apply List.any_eq_true.mp
    decide +kernel
  obtain ⟨hplace, -, hagain⟩ := finished_at_last_level start_oneLevel climbedAgain hfinished
  refine ⟨start_oneLevel, hfinished, hplace, hcompleted, hreset, ?_⟩
  rcases hagain.mp hcompleted with hnone | hsome
  · obtain ⟨e, he, his⟩ := hreset
    cases his.symm.trans (hnone e he)
  · exact hsome

/-- A reset of the last level leaves the campaign finished. -/
theorem finished_campaign_reopened :
    let last := (oneLevelCampaign.performAll (oneClimb ++ [.play .reset])).2
    start oneLevel .standard = .ok oneLevelCampaign ∧ last.finished = true ∧
      last.session.completed = false := by
  intro last
  have hfinished : last.finished = true := by decide +kernel
  have hopen : last.session.completed = false := by decide +kernel
  exact ⟨start_oneLevel, hfinished, hopen⟩

end Playscript.Campaign
