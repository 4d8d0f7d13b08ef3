import Playscript.Proofs.Campaign.Unlocking
/-! What a campaign refuses. It refuses a level that its catalog lacks and to go on from a level that
is not completed, and a refusal leaves everything as it was. As every level of the play order is in
the catalog, there is no third reason: a level that is left is always followed by another one. -/
namespace Playscript.Campaign

variable {α : Type}

/-- Why going from level to level was refused. -/
def Reply.refusal? : Reply α → Option SessionError
  | .selected (.error e) | .advanced (.error e) | .restarted (.error e) => some e
  | _ => none

variable {c : Campaign α}

/-- The play order has the kinds of the catalog's levels and no others. -/
theorem OnCatalog.mem_order_iff (h : OnCatalog c) {kind : Level.Kind} :
    kind ∈ c.order ↔ ∃ l ∈ c.catalog.levels, l.kind = kind := by
  have hlisted {l : Level α} : l ∈ c.catalog.ordered ↔ l ∈ c.catalog.levels := List.mem_mergeSort
  rw [h.order_eq, List.mem_map]
  exact exists_congr fun l => and_congr_left' hlisted

theorem select_of_not_mem {kind : Level.Kind} (h : kind ∉ c.order) :
    c.select kind = (.error (.unknownLevel kind.slug), c) := by
  rw [select, List.idxOf?_eq_none_iff.mpr h]

theorem advance_of_open (h : c.session.completed = false) :
    c.advance = (.error (.levelNotCompleted c.session.stage.level.title), c) := by
  rw [advance, h, if_neg Bool.false_ne_true]

variable [Coordinate α]

/-- A refusal changes nothing, and there are two reasons for one. -/
theorem Step.refused {op : Operation} {reply : Reply α} {next : Campaign α}
    (h : Step c op reply next) {e : SessionError} (hrefusal : reply.refusal? = some e) :
    next = c ∧ ((∃ kind, op = .select kind ∧ kind ∉ c.order ∧ e = .unknownLevel kind.slug) ∨
      op = .advance ∧ c.session.completed = false ∧
        e = .levelNotCompleted c.session.stage.level.title) := by
  cases h with
  | select | advance | advanceLast | restart | play => cases hrefusal
  | selectUnknown hkind =>
      cases hrefusal
      exact ⟨rfl, .inl ⟨_, rfl, hkind, rfl⟩⟩
  | advanceEarly hopen =>
      cases hrefusal
      exact ⟨rfl, .inr ⟨rfl, hopen, rfl⟩⟩

namespace OnCatalog

theorem refused (h : OnCatalog c) {op : Operation} {e : SessionError}
    (hrefusal : (c.perform op).1.refusal? = some e) :
    (c.perform op).2 = c ∧
      ((∃ kind, op = .select kind ∧ kind ∉ c.order ∧ e = .unknownLevel kind.slug) ∨
        op = .advance ∧ c.session.completed = false ∧
          e = .levelNotCompleted c.session.stage.level.title) :=
  (h.step op).refused hrefusal

theorem select_of_mem (h : OnCatalog c) {kind : Level.Kind} (hkind : kind ∈ c.order) :
    (c.select kind).1 = .ok () := by
  cases hresult : (c.select kind).1 with
  | ok _ => rfl
  | error e =>
      have hrefusal : (c.perform (.select kind)).1.refusal? = some e :=
        congrArg (fun result => (Reply.selected result : Reply α).refusal?) hresult
      obtain ⟨-, ⟨other, hop, hother, -⟩ | ⟨hop, -⟩⟩ := h.refused hrefusal
      · cases hop
        exact absurd hkind hother
      · cases hop

theorem advance_of_completed (h : OnCatalog c) (hcompleted : c.session.completed = true) :
    ∃ progress, c.advance.1 = .ok progress := by
  cases hresult : c.advance.1 with
  | ok progress => exact ⟨progress, rfl⟩
  | error e =>
      have hrefusal : (c.perform .advance).1.refusal? = some e :=
        congrArg (fun result => (Reply.advanced result : Reply α).refusal?) hresult
      obtain ⟨-, ⟨kind, hop, -⟩ | ⟨-, hopen, -⟩⟩ := h.refused hrefusal
      · cases hop
      · cases hcompleted.symm.trans hopen

theorem restart_ok (h : OnCatalog c) : c.restart.1 = .ok () := by
  cases hresult : c.restart.1 with
  | ok _ => rfl
  | error e =>
      have hrefusal : (c.perform .restart).1.refusal? = some e :=
        congrArg (fun result => (Reply.restarted result : Reply α).refusal?) hresult
      obtain ⟨-, ⟨kind, hop, -⟩ | ⟨hop, -⟩⟩ := h.refused hrefusal
      · cases hop
      · cases hop

end OnCatalog

/-- Whatever was done in a campaign, over whatever catalog, a request that is refused changes nothing
of it, be it the place, the level's session or the run that is active there. To select a level is
refused just where no level of the catalog is of that kind, to go on just where the current level is
not completed, and to restart never. -/
theorem refusals_change_nothing {catalog : Catalog α} {settings : Settings} {c : Campaign α}
    (hstart : start catalog settings = .ok c) (ops : List Operation) :
    let reached := (c.performAll ops).2
    (∀ op e, (reached.perform op).1.refusal? = some e → (reached.perform op).2 = reached) ∧
      (∀ kind, (∀ l ∈ catalog.levels, l.kind ≠ kind) →
        reached.select kind = (.error (.unknownLevel kind.slug), reached)) ∧
      (∀ kind, (∃ l ∈ catalog.levels, l.kind = kind) → (reached.select kind).1 = .ok ()) ∧
      (reached.session.completed = false → reached.advance =
        (.error (.levelNotCompleted reached.session.stage.level.title), reached)) ∧
      (reached.session.completed = true → ∃ progress, reached.advance.1 = .ok progress) ∧
      reached.restart.1 = .ok () := by
  intro reached
  have hplaying := (playing_start hstart).history ops
  have hcatalog : OnCatalog reached := hplaying.onCatalog
  have hsame : reached.catalog = catalog := hplaying.catalog_eq
  have hkinds {kind : Level.Kind} : kind ∈ reached.order ↔ ∃ l ∈ catalog.levels, l.kind = kind := by
    rw [← hsame]
    exact hcatalog.mem_order_iff
  refine ⟨fun op e hrefusal => (hcatalog.refused hrefusal).1, ?_, ?_, advance_of_open,
    hcatalog.advance_of_completed, hcatalog.restart_ok⟩
  · intro kind hother
    apply select_of_not_mem
    intro hmem
    obtain ⟨l, hl, hkind⟩ := hkinds.mp hmem
    exact hother l hl hkind
  · intro kind hlisted
    exact hcatalog.select_of_mem (hkinds.mpr hlisted)

/-- Two levels of the same kind and number. -/
def twice : Catalog Float :=
  ⟨.standard, [Catalog.Builtin.commandsLevel, { Catalog.Builtin.commandsLevel with name := "Again" }]⟩

def twiceCampaign : Campaign Float :=
  { catalog := twice
    settings := .standard
    order := [.commands, .commands]
    current := 0
    session := .start ⟨Catalog.Builtin.commandsLevel, .standard⟩ .standard
    finished := false }

theorem start_twice : start twice .standard = .ok twiceCampaign := by
  have hordered : twice.ordered = twice.levels := by
    apply List.mergeSort_of_pairwise
    decide
  rw [start, hordered]
  rfl

/-- A listener joins, and a run is begun. -/
def runHeard : List Operation :=
  [.play .subscribe, .play (.begin "moveLeft(); jump();")]

/-- Another kind of level, and to go on, are refused while the run is active, and it stays so. Once it
has ended the level is completed, and to go on is not refused. -/
theorem refusals_change_nothing_twice :
    let reached := (twiceCampaign.performAll runHeard).2
    let done := (twiceCampaign.performAll (runHeard ++ [.play (.resume ⟨1⟩)])).2
    start twice .standard = .ok twiceCampaign ∧
      reached.session.active.isSome = true ∧ reached.session.listeners.length = 1 ∧
      reached.select .loops = (.error (.unknownLevel "loops"), reached) ∧
      (reached.perform (.select .loops)).1.refusal? = some (.unknownLevel "loops") ∧
      (reached.perform (.select .loops)).2 = reached ∧
      (reached.select .commands).1 = .ok () ∧
      reached.session.completed = false ∧
      reached.advance =
        (.error (.levelNotCompleted reached.session.stage.level.title), reached) ∧
      reached.restart.1 = .ok () ∧
      done.session.completed = true ∧ ∃ progress, done.advance.1 = .ok progress := by
  intro reached done
  have hopen : reached.session.completed = false := rfl
  have hcompleted : done.session.completed = true := by decide +kernel
  have hother : ∀ l ∈ twice.levels, l.kind ≠ .loops := by
    intro l hl hkind
    rcases List.mem_pair.mp hl with rfl | rfl <;> cases hkind
  obtain ⟨hatomic, hunknown, hlisted, hearly, -, hrestart⟩ :=
    refusals_change_nothing start_twice runHeard
  obtain ⟨-, -, -, -, honward, -⟩ :=
    refusals_change_nothing start_twice (runHeard ++ [.play (.resume ⟨1⟩)])
  have hrefusal : (reached.perform (.select .loops)).1.refusal? = some (.unknownLevel "loops") := by
    rw [perform, hunknown .loops hother]
    rfl
  exact ⟨start_twice, rfl, rfl, hunknown _ hother, hrefusal, hatomic _ _ hrefusal,
    hlisted _ ⟨_, List.mem_cons_self, rfl⟩, hopen, hearly hopen, hrestart, hcompleted,
    honward hcompleted⟩

end Playscript.Campaign
