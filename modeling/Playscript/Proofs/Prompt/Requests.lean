import Playscript.Proofs.Prompt.Relay
import Playscript.Proofs.Session.Pausing
/-! What the prompt asks of its campaign. Entering a level makes the prompt the first listener of
the new session, and a script is played to its end, one pause after the other. So once a command is
answered no run is active, and all that was published meanwhile is shown. -/
namespace Playscript.Prompt

variable {α : Type} [Coordinate α] {p q : Prompt α} {t : Ticket}

/-! ## Entering levels -/

omit [Coordinate α] in
/-- The prompt is the first listener. -/
theorem listens_enterLevel (hnone : p.session.listeners = []) (now : Duration) :
    (p.enterLevel now).listener = 0 ∧ (p.enterLevel now).session.listeners = [⟨[], true⟩] := by
  change p.session.listeners.length = 0 ∧ p.session.listeners ++ [⟨[], true⟩] = _
  rw [hnone]
  exact ⟨rfl, rfl⟩

omit [Coordinate α] in
theorem queued_enterLevel (hnone : p.session.listeners = []) (now : Duration) :
    (p.enterLevel now).queued = [] := by
  obtain ⟨hlistener, halone⟩ := listens_enterLevel hnone now
  exact queued_of_alone hlistener halone

theorem relays_enterLevel (hnone : p.session.listeners = []) (now : Duration) :
    p.Relays [.play .subscribe] [] (p.enterLevel now) := by
  obtain ⟨hlistener, halone⟩ := listens_enterLevel hnone now
  refine ⟨rfl, attends_of_alone hlistener halone, ?_⟩
  have hbefore : p.queued = [] := by rw [queued, hnone]; rfl
  have hitems : (p.enterLevel now).items.filterMap Item.event? = p.items.filterMap Item.event? := by
    rw [enterLevel, Prompt.push, List.filterMap_append]
    exact List.append_nil _
  rw [shownBy_nil, List.nil_append, unshown, unshown, queued_enterLevel hnone, hbefore, hitems,
    Campaign.published_play, Session.published_subscribe, List.filter_nil]
  simp only [List.append_nil]
  rfl

/-- The prompt follows its campaign to another level. -/
theorem relays_follow (hempty : p.queued = []) {op : Campaign.Operation} {index : Nat}
    {stage : Stage α} (hnext : (p.campaign.perform op).2 = p.campaign.entered index stage)
    (hsilent : p.campaign.published [op] = []) (now : Duration) :
    p.Relays [op, .play .subscribe] []
      ({ p with campaign := p.campaign.entered index stage }.enterLevel now) := by
  have hthere := relays_enterLevel (p := { p with campaign := p.campaign.entered index stage })
    rfl now
  have hsplit : p.campaign.published [op, .play .subscribe] =
      p.campaign.published [op] ++ (p.campaign.perform op).2.published [.play .subscribe] :=
    p.campaign.published_append [op] _
  refine ⟨?_, hthere.attends, ?_⟩
  · rw [hthere.campaign, ← hnext]
    rfl
  · rw [hthere.shown, hsplit, hsilent, List.nil_append, hnext, unshown, unshown, hempty]
    rfl

/-- An operation of the campaign that stays at its level. -/
theorem Attends.remain (h : p.Attends) {op : Campaign.Operation} {c : Campaign α}
    (hnext : (p.campaign.perform op).2 = c) (hsession : c.session = p.campaign.session)
    (hsilent : p.campaign.published [op] = []) : p.Relays [op] [] { p with campaign := c } := by
  have hqueued : ({ p with campaign := c } : Prompt α).queued = p.queued := by
    rw [queued, session, hsession]
    rfl
  refine ⟨hnext.symm, ⟨h.listener, ?_⟩, ?_⟩
  · rw [hqueued, session, hsession]
    exact h.alone
  · rw [hsilent, List.filter_nil, List.append_nil, unshown, hqueued]
    rfl

/-! ## Playing a script -/

/-- Going on with a run until it has ended, each time with what is heard taken. -/
def playing (listener : Nat) (t : Ticket) : Nat → List Campaign.Operation
  | 0 => [.play (.resume t), .play (.collect listener)]
  | pauses + 1 =>
      [.play (.resume t), .play (.collect listener)] ++ playing listener t pauses

/-- The page once a run has ended. -/
def reported (p : Prompt α) (report : Report α) : Prompt α :=
  let q := p.drain.push (.trace report.log)
  if report.newlyCompleted then q.push (.praise completedHint) else q

/-- A run is played to its end with this many pauses. -/
inductive Plays (t : Ticket) : Nat → Prompt α → List (Act α) → Prompt α → Prop
  | ends {p : Prompt α} {report : Report α} :
      (p.session.resume t).1 = .finished report →
      Plays t 0 p [] ((p.withSession (p.session.resume t).2).reported report)
  | pauses {p q : Prompt α} {u : Ticket} {d : Duration} {n : Nat} {acts : List (Act α)} :
      (p.session.resume t).1 = .paused u d →
      Plays t n (p.withSession (p.session.resume t).2).settle.2 acts q →
      Plays t (n + 1) p ((p.withSession (p.session.resume t).2).settle.1 ++ .wait d :: acts) q

theorem playOn_of_finished {report : Report α}
    (h : (p.session.resume t).1 = .finished report) :
    p.playOn t = ([], (p.withSession (p.session.resume t).2).reported report) := by
  rw [playOn]
  split
  all_goals
    rename_i hresume
    rw [hresume] at h ⊢
    cases h
  rfl

theorem playOn_of_paused {u : Ticket} {d : Duration} (h : (p.session.resume t).1 = .paused u d) :
    p.playOn t =
      ((p.withSession (p.session.resume t).2).settle.1 ++
          .wait d :: ((p.withSession (p.session.resume t).2).settle.2.playOn t).1,
        ((p.withSession (p.session.resume t).2).settle.2.playOn t).2) := by
  rw [playOn]
  split
  all_goals
    rename_i hresume
    rw [hresume] at h ⊢
    cases h
  rfl

theorem plays_playOn {rounds : List Int64} (hrun : p.session.Underway t rounds) :
    Plays t rounds.length p (p.playOn t).1 (p.playOn t).2 := by
  induction rounds generalizing p with
  | nil =>
      obtain ⟨⟨report, hreport⟩, -⟩ := hrun.finish
      rw [playOn_of_finished hreport]
      exact .ends hreport
  | cons round later ih =>
      obtain ⟨hpaused, -, hlater⟩ := hrun.pause
      rw [playOn_of_paused hpaused]
      have htaken : ((p.session.resume t).2.perform (.collect p.listener)).2.Underway t later :=
        hlater.perform rfl rfl
      exact .pauses hpaused (ih htaken)

omit [Coordinate α] in
theorem active_gather (p : Prompt α) : p.gather.session.active = p.session.active := by
  obtain ⟨listeners, hlisteners⟩ := Session.exists_collect_eq p.session p.listener
  change (p.session.collect p.listener).2.active = _
  rw [hlisteners]

omit [Coordinate α] in
theorem active_reported (p : Prompt α) (report : Report α) :
    (p.reported report).session.active = p.session.active := by
  rw [reported]
  split <;> exact p.active_gather

omit [Coordinate α] in
theorem typed_reported (p : Prompt α) (report : Report α) :
    (p.reported report).typed = p.typed := by
  rw [reported]
  split <;> rfl

theorem Attends.reported (h : p.Attends) (report : Report α) :
    p.Relays [.play (.collect p.listener)] [] (p.reported report) := by
  have htrace : p.Relays [.play (.collect p.listener)] [] (p.drain.push (.trace report.log)) :=
    h.drain.push rfl
  rw [Prompt.reported]
  split
  · exact htrace.push rfl
  · exact htrace

omit [Coordinate α] in
theorem faultless_reported (h : Faultless p.items) (report : Report α) :
    Faultless (p.reported report).items := by
  have htrace : Faultless (p.drain.push (.trace report.log)).items :=
    List.forall_mem_append.mpr ⟨faultless_drain h, List.forall_mem_singleton.mpr rfl⟩
  rw [Prompt.reported]
  split
  · exact List.forall_mem_append.mpr ⟨htrace, List.forall_mem_singleton.mpr rfl⟩
  · exact htrace

namespace Plays

variable {n : Nat} {acts : List (Act α)}

theorem relays (hplays : Plays t n p acts q) (h : p.Attends) :
    p.Relays (playing p.listener t n) acts q := by
  induction hplays with
  | @ends p report hreport =>
      have hresumed := h.play (.resume t) rfl
      exact hresumed.trans (hresumed.attends.reported report)
  | @pauses p q u d n acts hpaused hrest ih =>
      have hresumed := h.play (.resume t) rfl
      have hsettled := hresumed.trans hresumed.attends.settle
      exact hsettled.trans ((hsettled.attends.wait d).trans (ih hsettled.attends))

theorem active_eq_none (hplays : Plays t n p acts q) : q.session.active = none := by
  induction hplays with
  | @ends p report hreport =>
      rw [active_reported]
      change (p.session.resume t).2.active = none
      have hout := Session.resumption p.session t
      generalize p.session.resume t = out at hreport hout ⊢
      cases hout with
      | finished => rfl
      | _ => cases hreport
  | pauses _ _ ih => exact ih

theorem typed_eq (hplays : Plays t n p acts q) : q.typed = p.typed := by
  induction hplays with
  | ends => exact typed_reported _ _
  | pauses _ _ ih => exact ih

theorem faultless (hplays : Plays t n p acts q) (h : Faultless p.items) :
    Faultless (acts.flatMap Act.items ++ q.items) := by
  induction hplays with
  | @ends p report hreport =>
      exact faultless_reported (p := p.withSession (p.session.resume t).2) h report
  | @pauses p q u d n acts hpaused hrest ih =>
      rw [List.flatMap_append, List.append_assoc]
      refine List.forall_mem_append.mpr ⟨?_, ih (List.forall_mem_nil _)⟩
      have hpage := faultless_drain (p := p.withSession (p.session.resume t).2) h
      rwa [settle, Prompt.flush, List.flatMap_singleton]

end Plays

/-! ## Commands -/

/-- What the prompt asks of its campaign to perform a command. -/
def requestsOf (p : Prompt α) : Command → List Campaign.Operation
  | .level name =>
      match p.campaign.catalog.kindNamed? name with
      | none => []
      | some kind =>
          match (p.campaign.select kind).1 with
          | .ok _ => [.select kind, .play .subscribe]
          | .error _ => [.select kind]
  | .next =>
      match p.campaign.advance.1 with
      | .ok (.level _) => [.advance, .play .subscribe]
      | _ => [.advance]
  | .reset => [.play .reset]
  | .run =>
      .play (.begin p.script) :: playing p.listener ⟨p.session.nextTicket⟩
        (Script.waits (p.session.stage.recognize p.script))
  | _ => []

/-- No run is active, and the prompt has taken what was published. -/
structure Idle (p : Prompt α) : Prop where
  onCatalog : p.campaign.OnCatalog
  attends : p.Attends
  queued : p.queued = []
  active : p.session.active = none

/-- A command is done: no run is active, and what is typed is still the same. -/
structure Completes (p : Prompt α) (ops : List Campaign.Operation) (acts : List (Act α))
    (q : Prompt α) : Prop extends Relays p ops acts q where
  active : q.session.active = none
  typed : q.typed = p.typed

namespace Idle

theorem selectLevel (h : p.Idle) (now : Duration) (name : String) :
    p.Completes (p.requestsOf (.level name)) [] (p.selectLevel now name) := by
  unfold requestsOf Prompt.selectLevel
  dsimp only
  cases hkind : p.campaign.catalog.kindNamed? name with
  | none => exact ⟨h.attends.stay.push rfl, h.active, rfl⟩
  | some kind =>
      dsimp only
      rcases h.onCatalog.select_cases kind with ⟨index, stage, hselect⟩ | ⟨e, hselect⟩
      · rw [hselect]
        have hnext : (p.campaign.perform (.select kind)).2 = p.campaign.entered index stage :=
          congrArg Prod.snd hselect
        exact ⟨relays_follow h.queued hnext rfl now, rfl, rfl⟩
      · rw [hselect]
        have hnext : (p.campaign.perform (.select kind)).2 = p.campaign :=
          congrArg Prod.snd hselect
        exact ⟨(h.attends.remain hnext rfl rfl).push rfl, h.active, rfl⟩

theorem nextLevel (h : p.Idle) (now : Duration) :
    p.Completes (p.requestsOf .next) [] (p.nextLevel now) := by
  unfold requestsOf Prompt.nextLevel
  dsimp only
  rcases h.onCatalog.advance_cases with ⟨kind, index, stage, hadvance⟩ | hadvance | ⟨e, hadvance⟩
  · rw [hadvance]
    have hnext : (p.campaign.perform .advance).2 = p.campaign.entered index stage :=
      congrArg Prod.snd hadvance
    exact ⟨relays_follow h.queued hnext rfl now, rfl, rfl⟩
  · rw [hadvance]
    have hnext : (p.campaign.perform .advance).2 = { p.campaign with finished := true } :=
      congrArg Prod.snd hadvance
    exact ⟨(h.attends.remain hnext rfl rfl).push rfl, h.active, rfl⟩
  · rw [hadvance]
    have hnext : (p.campaign.perform .advance).2 = p.campaign := congrArg Prod.snd hadvance
    exact ⟨(h.attends.remain hnext rfl rfl).push rfl, h.active, rfl⟩

theorem loadScript (h : p.Idle) (o : Outside) (path : String) :
    p.Completes [] [] (p.loadScript o path) := by
  rw [Prompt.loadScript]
  cases o.file path with
  | ok text =>
      have hloaded : p.Relays [] [] { p with script := text } := h.attends.stay.note ..
      exact ⟨hloaded.push rfl, h.active, rfl⟩
  | error reason => exact ⟨h.attends.stay.push rfl, h.active, rfl⟩

theorem plays_runScript (h : p.Idle) :
    Plays ⟨p.session.nextTicket⟩ (Script.waits (p.session.stage.recognize p.script))
      (p.withSession (p.session.begin p.script).2) p.runScript.1 p.runScript.2 := by
  have hrun : p.runScript =
      (p.withSession (p.session.begin p.script).2).playOn ⟨p.session.nextTicket⟩ := by
    rw [Prompt.runScript, Session.begin_of_idle h.active]
  rw [hrun, ← Script.length_flatMap_earlierRounds]
  exact plays_playOn (Session.underway_begun h.active p.script)

theorem runScript (h : p.Idle) :
    p.Completes (p.requestsOf .run) p.runScript.1 p.runScript.2 := by
  have hbegun := h.attends.play (.begin p.script) rfl
  have hplays := h.plays_runScript
  exact ⟨hbegun.trans (hplays.relays hbegun.attends), hplays.active_eq_none, hplays.typed_eq⟩

/-- A command leaves no run behind. Only after `edit` a script is typed. -/
theorem perform (h : p.Idle) (o : Outside) {c : Command} (hc : c ≠ .edit) :
    p.Completes (p.requestsOf c) (p.perform o c).1 (p.perform o c).2 := by
  cases c with
  | help => exact ⟨(h.attends.stay.push rfl).push rfl, h.active, rfl⟩
  | instructions | levels | look | snapshot | code | unknown =>
      exact ⟨h.attends.stay.push rfl, h.active, rfl⟩
  | level name =>
      unfold Prompt.perform
      dsimp only
      exact h.selectLevel o.now name
  | edit => exact absurd rfl hc
  | load path => exact h.loadScript o path
  | run => exact h.runScript
  | reset => exact ⟨(((h.attends.play .reset rfl).note ..).push rfl).push rfl, rfl, rfl⟩
  | next => exact h.nextLevel o.now
  | quit =>
      have hclosed : p.Relays [] [] { p with closed := true } := h.attends.stay.note ..
      exact ⟨hclosed.push rfl, h.active, rfl⟩

end Idle

end Playscript.Prompt
