import Mathlib.Data.List.DropRight
import Playscript.Proofs.Campaign.Journey
/-! How levels are unlocked. The level that is played is always the one at the campaign's place in
the play order, in an attempt that began with a new session; and unless a level was selected, the
levels before it have been completed one after the other, each in the attempt that was then left. -/
namespace Playscript.Campaign

variable {α : Type}

/-- The level at a place in play order, set up as the campaign enters it. -/
def stageAt? (catalog : Catalog α) (index : Nat) : Option (Stage α) :=
  catalog.ordered[index]?.bind fun l => Stage.ofCatalog? catalog l.kind

theorem stageAt?_of_kind {catalog : Catalog α} {index : Nat} {kind : Level.Kind} {stage : Stage α}
    (hkind : (catalog.ordered.map Level.kind)[index]? = some kind)
    (hstage : Stage.ofCatalog? catalog kind = some stage) :
    stageAt? catalog index = some stage := by
  rw [List.getElem?_map, Option.map_eq_some_iff] at hkind
  obtain ⟨l, hl, rfl⟩ := hkind
  rw [stageAt?, hl]
  exact hstage

theorem kind_of_stageAt? {catalog : Catalog α} {index : Nat} {stage : Stage α}
    (h : stageAt? catalog index = some stage) :
    catalog.ordered[index]?.map Level.kind = some stage.level.kind := by
  obtain ⟨l, hl, hstage⟩ := Option.bind_eq_some_iff.mp h
  obtain ⟨found, hfound, rfl⟩ := Option.map_eq_some_iff.mp hstage
  rw [hl, Option.map_some, Catalog.kind_of_level? hfound]

theorem lt_of_stageAt? {catalog : Catalog α} {index : Nat} {stage : Stage α}
    (h : stageAt? catalog index = some stage) : index < catalog.levels.length := by
  obtain ⟨l, hl, -⟩ := Option.bind_eq_some_iff.mp h
  obtain ⟨hlt, -⟩ := List.getElem?_eq_some_iff.mp hl
  rwa [Catalog.ordered, List.length_mergeSort] at hlt

variable [Coordinate α] {catalog : Catalog α} {settings : Settings}

/-- What was asked, and the session that was reached, in an attempt at the level at a place. -/
def Attempted (catalog : Catalog α) (settings : Settings) (index : Nat)
    (entries : List (Session.Entry α)) (s : Session α) : Prop :=
  ∃ stage ops, stageAt? catalog index = some stage ∧
    entries = (Session.start stage settings).history ops ∧
    s = ((Session.start stage settings).performAll ops).2

theorem Attempted.new {index : Nat} {stage : Stage α} (h : stageAt? catalog index = some stage) :
    Attempted catalog settings index [] (.start stage settings) :=
  ⟨stage, [], h, rfl, rfl⟩

theorem Attempted.play {index : Nat} {entries : List (Session.Entry α)} {s : Session α}
    (h : Attempted catalog settings index entries s) (op : Session.Operation) :
    Attempted catalog settings index (entries ++ [s.entry op]) (s.perform op).2 := by
  obtain ⟨stage, ops, hstage, rfl, rfl⟩ := h
  refine ⟨stage, ops ++ [op], hstage, ?_, ?_⟩
  · rw [Session.history_append]
    rfl
  · rw [Session.performAll_append]
    rfl

theorem Attempted.stageAt? {index : Nat} {entries : List (Session.Entry α)} {s : Session α}
    (h : Attempted catalog settings index entries s) :
    stageAt? catalog index = some s.stage := by
  obtain ⟨stage, ops, hstage, -, rfl⟩ := h
  have hsame := ((Session.setup_law stage settings).performAll ops
    (s := Session.start stage settings) ⟨rfl, rfl⟩).1
  rw [hstage, hsame]

/-- Attempts at the first levels in play order, as many as that, each of which has completed its
level. -/
def Climbed (catalog : Catalog α) (settings : Settings) (levels : Nat)
    (attempts : List (List (Session.Entry α))) : Prop :=
  attempts.length = levels ∧
    ∀ index attempt, attempts[index]? = some attempt →
      ∃ s, Attempted catalog settings index attempt s ∧ s.completed = true

theorem Climbed.next {levels : Nat} {attempts : List (List (Session.Entry α))}
    (h : Climbed catalog settings levels attempts) {attempt : List (Session.Entry α)}
    {s : Session α} (hattempt : Attempted catalog settings levels attempt s)
    (hcompleted : s.completed = true) :
    Climbed catalog settings (levels + 1) (attempts ++ [attempt]) := by
  obtain ⟨hlength, hall⟩ := h
  refine ⟨?_, ?_⟩
  · rw [List.length_append, hlength]
    rfl
  · intro index own hown
    rcases Nat.lt_or_ge index attempts.length with hold | hnew
    · rw [List.getElem?_append_left hold] at hown
      exact hall index own hown
    · rw [List.getElem?_append_right hnew] at hown
      obtain ⟨hindex, hsame⟩ := List.getElem?_eq_some_iff.mp hown
      have hlast : index = levels := by
        rw [List.length_singleton] at hindex
        omega
      rw [List.getElem_singleton] at hsame
      subst hlast hsame
      exact ⟨s, hattempt, hcompleted⟩

/-! ## Operations -/

/-- A level is selected. To ask for a level that there is not selects nothing. -/
def Entry.selects (e : Entry α) : Bool :=
  match e.reply with
  | .selected (.ok _) => true
  | _ => false

def Entry.restarts (e : Entry α) : Bool :=
  match e.operation with
  | .restart => true
  | _ => false

/-- The entries after the last restart. -/
def sinceRestart (entries : List (Entry α)) : List (Entry α) :=
  entries.rtakeWhile fun e => !e.restarts

omit [Coordinate α] in
theorem sinceRestart_concat (entries : List (Entry α)) (e : Entry α) :
    sinceRestart (entries ++ [e]) =
      if e.restarts then [] else sinceRestart entries ++ [e] := by
  rw [sinceRestart, List.rtakeWhile_concat]
  cases e.restarts <;> rfl

omit [Coordinate α] in
theorem journey_concat (entries : List (Entry α)) (e : Entry α) :
    journey (entries ++ [e]) = (journey entries).add e :=
  List.foldl_concat ..

/-- A campaign on a catalog, and what has been asked of it since its last restart. It plays the level
at its place, in the current attempt of its journey. If no level was selected since, it has come
there by completing the levels before. -/
structure Playing (catalog : Catalog α) (settings : Settings) (since : List (Entry α))
    (c : Campaign α) : Prop where
  onCatalog : OnCatalog c
  catalog_eq : c.catalog = catalog
  settings_eq : c.settings = settings
  attempt : Attempted catalog settings c.current (journey since).current c.session
  climbed : (∀ e ∈ since, e.selects = false) →
    Climbed catalog settings c.current (journey since).left

namespace Playing

variable {since entries : List (Entry α)} {c : Campaign α}

/-- An operation that leaves the session and the place alone. -/
theorem keep (h : Playing catalog settings since c) {e : Entry α} (henters : e.enters = false)
    (hplayed : e.played? = none) {next : Campaign α} (hcatalog : OnCatalog next)
    (hsame : next.catalog = c.catalog ∧ next.settings = c.settings ∧ next.session = c.session ∧
      next.current = c.current) : Playing catalog settings (since ++ [e]) next := by
  obtain ⟨hcatalog_eq, hsettings, hsession, hcurrent⟩ := hsame
  have hjourney : journey (since ++ [e]) = journey since := by
    rw [journey_concat, Journey.add, henters, hplayed, Option.toList_none, List.append_nil]
    rfl
  refine ⟨hcatalog, hcatalog_eq.trans h.catalog_eq, hsettings.trans h.settings_eq, ?_, ?_⟩
  · rw [hjourney, hsession, hcurrent]
    exact h.attempt
  · intro hnone
    rw [hjourney, hcurrent]
    exact h.climbed fun e he => hnone e (List.mem_append_left _ he)

/-- A level is entered, and the attempt at the one before is left. -/
theorem enter (h : Playing catalog settings since c) {e : Entry α} (henters : e.enters = true)
    {index : Nat} {kind : Level.Kind} {stage : Stage α} (hkind : c.order[index]? = some kind)
    (hstage : Stage.ofCatalog? c.catalog kind = some stage)
    (hclimbed : (∀ own ∈ since ++ [e], own.selects = false) →
      Climbed catalog settings index ((journey since).left ++ [(journey since).current])) :
    Playing catalog settings (since ++ [e]) (c.entered index stage) := by
  have hjourney : journey (since ++ [e]) =
      ⟨(journey since).left ++ [(journey since).current], []⟩ := by
    rw [journey_concat, Journey.add, henters]
    rfl
  have hplace : stageAt? catalog index = some stage := by
    rw [h.onCatalog.order_eq, h.catalog_eq] at hkind
    rw [h.catalog_eq] at hstage
    exact stageAt?_of_kind hkind hstage
  refine ⟨⟨h.onCatalog.order_eq, h.onCatalog.order_ne_nil⟩, h.catalog_eq, h.settings_eq, ?_, ?_⟩
  · rw [hjourney, entered, h.settings_eq]
    exact .new hplace
  · rw [hjourney]
    exact hclimbed

/-- The level is played. -/
theorem play (h : Playing catalog settings since c) (op : Session.Operation) :
    let next := { c with session := (c.session.perform op).2 }
    Playing catalog settings
      (since ++ [⟨c, .play op, .played (c.session.perform op).1, next⟩]) next := by
  intro next
  have hjourney : journey (since ++ [⟨c, .play op, .played (c.session.perform op).1, next⟩]) =
      { journey since with current := (journey since).current ++ [c.session.entry op] } :=
    journey_concat _ _
  refine ⟨⟨h.onCatalog.order_eq, h.onCatalog.order_ne_nil⟩, h.catalog_eq, h.settings_eq, ?_, ?_⟩
  · rw [hjourney]
    exact h.attempt.play op
  · rw [hjourney]
    exact fun hnone => h.climbed fun e he => hnone e (List.mem_append_left _ he)

theorem step (h : Playing catalog settings (sinceRestart entries) c) {op : Operation}
    {reply : Reply α} {next : Campaign α} (hstep : Step c op reply next) :
    Playing catalog settings (sinceRestart (entries ++ [⟨c, op, reply, next⟩])) next := by
  rw [sinceRestart_concat]
  cases hstep with
  | select hindex hstage =>
      obtain ⟨hlt, hkind, -⟩ := List.idxOf?_eq_some_iff.mp hindex
      refine h.enter rfl ((List.getElem?_eq_getElem hlt).trans (congrArg some hkind)) hstage ?_
      intro hnone
      cases hnone _ (List.mem_append_right _ (List.mem_singleton_self _))
  | selectUnknown => exact h.keep rfl rfl h.onCatalog ⟨rfl, rfl, rfl, rfl⟩
  | advance hcompleted hkind hstage =>
      refine h.enter rfl hkind hstage fun hnone => ?_
      have hbefore := h.climbed fun e he => hnone e (List.mem_append_left _ he)
      exact hbefore.next h.attempt hcompleted
  | advanceLast =>
      exact h.keep rfl rfl ⟨h.onCatalog.order_eq, h.onCatalog.order_ne_nil⟩ ⟨rfl, rfl, rfl, rfl⟩
  | advanceEarly => exact h.keep rfl rfl h.onCatalog ⟨rfl, rfl, rfl, rfl⟩
  | restart hkind hstage =>
      rw [h.onCatalog.order_eq, h.catalog_eq] at hkind
      rw [h.catalog_eq] at hstage
      refine ⟨⟨h.onCatalog.order_eq, h.onCatalog.order_ne_nil⟩, h.catalog_eq, h.settings_eq, ?_, ?_⟩
      · rw [entered, h.settings_eq]
        exact .new (stageAt?_of_kind hkind hstage)
      · exact fun _ => ⟨rfl, nofun⟩
  | play op => exact h.play op

theorem history (h : Playing catalog settings (sinceRestart entries) c) (ops : List Operation) :
    Playing catalog settings (sinceRestart (entries ++ c.history ops)) (c.performAll ops).2 := by
  induction ops generalizing entries c with
  | nil => rwa [Campaign.history, List.append_nil]
  | cons op rest ih =>
      have hlater := ih (h.step (h.onCatalog.step op))
      rwa [List.append_assoc] at hlater

end Playing

variable {c : Campaign α}

theorem playing_start (h : start catalog settings = .ok c) :
    Playing catalog settings (sinceRestart []) c := by
  have hcatalog := onCatalog_start h
  obtain ⟨kind, stage, hkind, hstage, rfl⟩ := start_eq h
  exact ⟨hcatalog, rfl, rfl, .new (stageAt?_of_kind hkind hstage), fun _ => ⟨rfl, nofun⟩⟩

omit [Coordinate α] in
theorem exists_start (settings : Settings) (hlevels : catalog.levels ≠ []) :
    ∃ c, start catalog settings = .ok c := by
  have hordered : catalog.ordered.map Level.kind ≠ [] := by
    intro hnil
    have hlength := congrArg List.length hnil
    rw [List.length_map, Catalog.ordered, List.length_mergeSort, List.length_nil] at hlength
    exact hlevels (List.length_eq_zero_iff.mp hlength)
  obtain ⟨kind, rest, horder⟩ := List.exists_cons_of_ne_nil hordered
  obtain ⟨stage, hstage, -⟩ := exists_stage (horder ▸ List.mem_cons_self)
  rw [start, horder]
  dsimp only
  rw [openLevel_of_stage hstage]
  exact ⟨_, rfl⟩

/-- What it is to go on: from a completed level to a new session on the next one, if there is one,
and nowhere else. -/
structure Entry.GoesOn (catalog : Catalog α) (settings : Settings) (e : Entry α) : Prop where
  next : e.before.session.completed = true → e.before.current + 1 < catalog.levels.length →
    e.after.current = e.before.current + 1 ∧
      ∃ stage, stageAt? catalog e.after.current = some stage ∧
        e.after.session = .start stage settings
  stay : e.before.session.completed = false ∨ catalog.levels.length ≤ e.before.current + 1 →
    e.after.current = e.before.current ∧ e.after.session = e.before.session

theorem Playing.length_order {since : List (Entry α)} (h : Playing catalog settings since c) :
    c.order.length = catalog.levels.length := by
  rw [h.onCatalog.order_eq, h.catalog_eq, List.length_map, Catalog.ordered,
    List.length_mergeSort]

theorem Playing.goesOn {since : List (Entry α)} (h : Playing catalog settings since c)
    {reply : Reply α} {next : Campaign α} (hstep : Step c .advance reply next) :
    Entry.GoesOn catalog settings ⟨c, .advance, reply, next⟩ := by
  have hlength := h.length_order
  cases hstep with
  | advance hcompleted hkind hstage =>
      obtain ⟨hlt, -⟩ := List.getElem?_eq_some_iff.mp hkind
      rw [h.onCatalog.order_eq, h.catalog_eq] at hkind
      rw [h.catalog_eq] at hstage
      refine ⟨fun _ _ => ⟨rfl, _, stageAt?_of_kind hkind hstage, ?_⟩, ?_⟩
      · rw [entered, h.settings_eq]
      · rintro (hopen | hlast)
        · cases hcompleted.symm.trans hopen
        · exact absurd (hlength ▸ hlt) (Nat.not_lt_of_le hlast)
  | advanceLast hcompleted hlast =>
      exact ⟨fun _ hlt => absurd hlt (Nat.not_lt_of_le (hlength ▸ hlast)), fun _ => ⟨rfl, rfl⟩⟩
  | advanceEarly hopen =>
      refine ⟨fun hcompleted _ => ?_, fun _ => ⟨rfl, rfl⟩⟩
      cases hopen.symm.trans hcompleted

end Playscript.Campaign
