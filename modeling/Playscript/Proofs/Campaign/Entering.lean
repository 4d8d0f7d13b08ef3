import Playscript.Campaign.Operation
import Playscript.Proofs.Catalog.Validity
/-! How a campaign goes from level to level. Every level of its play order is in its catalog, so
a level that is entered is always found, and what an operation does to a campaign is said in full
by one step relation. -/
namespace Playscript.Campaign

variable {α : Type}

/-! ## The play order -/

/-- The play order of a campaign is that of its catalog, which is not empty. -/
structure OnCatalog (c : Campaign α) : Prop where
  order_eq : c.order = c.catalog.ordered.map Level.kind
  order_ne_nil : c.order ≠ []

theorem exists_stage {catalog : Catalog α} {kind : Level.Kind}
    (h : kind ∈ catalog.ordered.map Level.kind) :
    ∃ stage, Stage.ofCatalog? catalog kind = some stage ∧ stage.level.kind = kind := by
  obtain ⟨level, hlevel, rfl⟩ := List.mem_map.mp h
  have hlisted : level ∈ catalog.levels := List.mem_mergeSort.mp hlevel
  obtain ⟨found, -, hfound⟩ := Catalog.exists_level?_kind hlisted
  refine ⟨⟨found, catalog.playfield⟩, ?_, ?_⟩
  · rw [Stage.ofCatalog?, hfound, Option.map_some]
  · exact Catalog.kind_of_level? hfound

/-- The campaign that has just entered a level. -/
def entered (c : Campaign α) (index : Nat) (stage : Stage α) : Campaign α :=
  { c with session := .start stage c.settings, current := index, finished := false }

theorem openLevel_of_stage {catalog : Catalog α} {settings : Settings} {kind : Level.Kind}
    {stage : Stage α} (h : Stage.ofCatalog? catalog kind = some stage) :
    openLevel catalog settings kind = .ok (.start stage settings) := by
  rw [openLevel, h]

theorem OnCatalog.enter {c : Campaign α} (h : OnCatalog c) {index : Nat} {kind : Level.Kind}
    (hkind : c.order[index]? = some kind) :
    ∃ stage, Stage.ofCatalog? c.catalog kind = some stage ∧ stage.level.kind = kind ∧
      c.enter index = (.ok (), c.entered index stage) := by
  have hmem : kind ∈ c.catalog.ordered.map Level.kind := by
    rw [← h.order_eq]
    exact List.mem_of_getElem? hkind
  obtain ⟨stage, hstage, hown⟩ := exists_stage hmem
  refine ⟨stage, hstage, hown, ?_⟩
  rw [Campaign.enter, hkind]
  dsimp only
  rw [openLevel_of_stage hstage]
  rfl

/-- A campaign starts on the first level of its catalog. -/
theorem start_eq {catalog : Catalog α} {settings : Settings} {c : Campaign α}
    (h : start catalog settings = .ok c) :
    ∃ kind stage, (catalog.ordered.map Level.kind)[0]? = some kind ∧
      Stage.ofCatalog? catalog kind = some stage ∧
      c = ⟨catalog, settings, catalog.ordered.map Level.kind, 0, .start stage settings, false⟩ := by
  unfold start at h
  cases horder : catalog.ordered.map Level.kind with
  | nil =>
      rw [horder] at h
      cases h
  | cons kind rest =>
      have hmem : kind ∈ catalog.ordered.map Level.kind := horder ▸ List.mem_cons_self
      obtain ⟨stage, hstage, -⟩ := exists_stage hmem
      rw [horder] at h
      dsimp only at h
      rw [openLevel_of_stage hstage] at h
      cases h
      exact ⟨kind, stage, rfl, hstage, rfl⟩

theorem session_of_start {catalog : Catalog α} {settings : Settings} {c : Campaign α}
    (h : start catalog settings = .ok c) :
    c.session.active = none ∧ c.session.listeners = [] := by
  obtain ⟨kind, stage, -, -, rfl⟩ := start_eq h
  exact ⟨rfl, rfl⟩

theorem onCatalog_start {catalog : Catalog α} {settings : Settings} {c : Campaign α}
    (h : start catalog settings = .ok c) : OnCatalog c := by
  obtain ⟨kind, stage, hkind, -, rfl⟩ := start_eq h
  constructor
  · rfl
  · intro hnil
    rw [show catalog.ordered.map Level.kind = [] from hnil] at hkind
    cases hkind

/-! ## Single operations -/

variable [Coordinate α]

/-- What an operation does to a campaign and what it answers. -/
inductive Step (c : Campaign α) : Operation → Reply α → Campaign α → Prop
  | select {kind : Level.Kind} {index : Nat} {stage : Stage α} :
      c.order.idxOf? kind = some index → Stage.ofCatalog? c.catalog kind = some stage →
      Step c (.select kind) (.selected (.ok ())) (c.entered index stage)
  | selectUnknown {kind : Level.Kind} : kind ∉ c.order →
      Step c (.select kind) (.selected (.error (.unknownLevel kind.slug))) c
  | advance {kind : Level.Kind} {stage : Stage α} : c.session.completed = true →
      c.order[c.current + 1]? = some kind → Stage.ofCatalog? c.catalog kind = some stage →
      Step c .advance (.advanced (.ok (.level kind))) (c.entered (c.current + 1) stage)
  | advanceLast : c.session.completed = true → c.order.length ≤ c.current + 1 →
      Step c .advance (.advanced (.ok .finished)) { c with finished := true }
  | advanceEarly : c.session.completed = false →
      Step c .advance (.advanced (.error (.levelNotCompleted c.session.stage.level.title))) c
  | restart {kind : Level.Kind} {stage : Stage α} : c.order[0]? = some kind →
      Stage.ofCatalog? c.catalog kind = some stage →
      Step c .restart (.restarted (.ok ())) (c.entered 0 stage)
  | play (op : Session.Operation) :
      Step c (.play op) (.played (c.session.perform op).1)
        { c with session := (c.session.perform op).2 }

namespace OnCatalog

variable {c : Campaign α}

theorem step (h : OnCatalog c) (op : Operation) :
    Step c op (c.perform op).1 (c.perform op).2 := by
  cases op with
  | select kind =>
      rw [Campaign.perform, Campaign.select]
      cases hindex : c.order.idxOf? kind with
      | none =>
          apply Step.selectUnknown
          exact List.idxOf?_eq_none_iff.mp hindex
      | some index =>
          have hkind : c.order[index]? = some kind := by
            obtain ⟨hlt, hkind, -⟩ := List.idxOf?_eq_some_iff.mp hindex
            rw [List.getElem?_eq_getElem hlt, hkind]
          obtain ⟨stage, hstage, -, henter⟩ := h.enter hkind
          dsimp only
          rw [henter]
          exact .select hindex hstage
  | advance =>
      rw [Campaign.perform, Campaign.advance]
      cases hcompleted : c.session.completed with
      | false =>
          rw [if_neg Bool.false_ne_true]
          exact .advanceEarly hcompleted
      | true =>
          rw [if_pos rfl]
          by_cases hnext : c.current + 1 < c.order.length
          · obtain ⟨stage, hstage, hown, henter⟩ := h.enter (List.getElem?_eq_getElem hnext)
            rw [if_pos hnext, henter]
            have hstep := Step.advance hcompleted (List.getElem?_eq_getElem hnext) hstage
            rw [← hown] at hstep
            exact hstep
          · rw [if_neg hnext]
            exact .advanceLast hcompleted (Nat.le_of_not_lt hnext)
  | restart =>
      obtain ⟨kind, rest, horder⟩ := List.exists_cons_of_ne_nil h.order_ne_nil
      have hkind : c.order[0]? = some kind := by
        rw [horder]
        rfl
      obtain ⟨stage, hstage, -, henter⟩ := h.enter hkind
      rw [Campaign.perform, Campaign.restart, henter]
      exact .restart hkind hstage
  | play op => exact .play op

theorem perform (h : OnCatalog c) (op : Operation) : OnCatalog (c.perform op).2 := by
  have hstep := h.step op
  generalize (c.perform op).1 = reply at hstep
  generalize (c.perform op).2 = next at hstep ⊢
  cases hstep <;> exact ⟨h.order_eq, h.order_ne_nil⟩

theorem performAll (h : OnCatalog c) (ops : List Operation) :
    OnCatalog (c.performAll ops).2 := by
  induction ops generalizing c with
  | nil => exact h
  | cons op rest ih => exact ih (h.perform op)

theorem select_cases (h : OnCatalog c) (kind : Level.Kind) :
    (∃ index stage, c.select kind = (.ok (), c.entered index stage)) ∨
      ∃ e, c.select kind = (.error e, c) := by
  have hstep := h.step (.select kind)
  rw [Campaign.perform] at hstep
  generalize c.select kind = out at hstep ⊢
  obtain ⟨result, next⟩ := out
  change Step c _ (.selected result) next at hstep
  cases hstep with
  | select => exact .inl ⟨_, _, rfl⟩
  | selectUnknown => exact .inr ⟨_, rfl⟩

theorem advance_cases (h : OnCatalog c) :
    (∃ kind index stage, c.advance = (.ok (.level kind), c.entered index stage)) ∨
      c.advance = (.ok .finished, { c with finished := true }) ∨
      ∃ e, c.advance = (.error e, c) := by
  have hstep := h.step .advance
  rw [Campaign.perform] at hstep
  generalize c.advance = out at hstep ⊢
  obtain ⟨result, next⟩ := out
  change Step c _ (.advanced result) next at hstep
  cases hstep with
  | advance => exact .inl ⟨_, _, _, rfl⟩
  | advanceLast => exact .inr (.inl rfl)
  | advanceEarly => exact .inr (.inr ⟨_, rfl⟩)

end OnCatalog

end Playscript.Campaign
