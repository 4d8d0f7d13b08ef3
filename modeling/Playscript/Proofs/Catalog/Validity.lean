import Mathlib.Data.List.Nodup
import Playscript.Catalog.Fault
import Playscript.Stage
/-! What it means that a catalog has no faults. No kind and no number is given twice, so every level
is found by its kind; and the playfield and each level pass their own checks. -/
namespace Playscript.Catalog

variable {α : Type}

/-! ## Levels by their kinds -/

theorem kind_of_level? {c : Catalog α} {kind : Level.Kind} {l : Level α}
    (h : c.level? kind = some l) : l.kind = kind := by
  unfold level? at h
  have hown := List.find?_some h
  exact beq_iff_eq.mp hown

/-- A level is listed under its kind, or another one of that kind before it. -/
theorem exists_level?_kind {c : Catalog α} {l : Level α} (hl : l ∈ c.levels) :
    ∃ found ∈ c.levels, c.level? l.kind = some found := by
  have hfound : (c.level? l.kind).isSome := by
    rw [level?, List.find?_isSome]
    exact ⟨l, hl, beq_self_eq_true _⟩
  obtain ⟨found, hfound⟩ := Option.isSome_iff_exists.mp hfound
  exact ⟨found, List.mem_of_find?_eq_some hfound, hfound⟩

/-! ## No faults -/

variable [Coordinate α]

omit [Coordinate α] in
theorem ite_fault_eq_nil_iff {p : Prop} [Decidable p] (f : Fault α) :
    (if p then [f] else []) = [] ↔ ¬ p := by
  split
  · rename_i hp
    exact ⟨nofun, fun hn => absurd hp hn⟩
  · rename_i hn
    exact ⟨fun _ => hn, fun _ => rfl⟩

/-- A level without faults has the character start at a speed that it may have and at a place where
it fits. -/
theorem start_of_levelFaults {field : Playfield α} {l : Level α} (h : levelFaults field l = []) :
    isSpeed l.speed = true ∧ ¬ l.start.x < Coordinate.ofInt 0 ∧ ¬ field.maxX < l.start.x := by
  simp only [levelFaults, List.append_eq_nil_iff] at h
  obtain ⟨⟨⟨⟨⟨hspeed, hstart⟩, -⟩, -⟩, -⟩, -⟩ := h
  refine ⟨?_, not_or.mp ((ite_fault_eq_nil_iff _).mp hstart)⟩
  cases hlegal : isSpeed l.speed with
  | true => rfl
  | false =>
      rw [hlegal, if_neg Bool.false_ne_true] at hspeed
      cases hspeed

theorem room_of_sharedFaults {c : Catalog α} (h : sharedFaults c = []) :
    ¬ c.playfield.width ≤ c.playfield.characterWidth := by
  rw [sharedFaults, List.append_eq_nil_iff, ite_fault_eq_nil_iff] at h
  exact h.2

theorem faultsAfter_eq_nil_iff (field : Playfield α) (kinds : List Level.Kind)
    (numbers : List UInt32) (levels : List (Level α)) :
    faultsAfter field kinds numbers levels = [] ↔
      (∀ l ∈ levels, l.kind ∉ kinds ∧ l.number ∉ numbers ∧ levelFaults field l = []) ∧
        (levels.map Level.kind).Nodup ∧ (levels.map Level.number).Nodup := by
  induction levels generalizing kinds numbers with
  | nil => exact ⟨fun _ => ⟨nofun, .nil, .nil⟩, fun _ => rfl⟩
  | cons l rest ih =>
      rw [faultsAfter, List.append_eq_nil_iff, List.append_eq_nil_iff, List.append_eq_nil_iff, ih,
        ite_fault_eq_nil_iff, ite_fault_eq_nil_iff, List.forall_mem_cons, List.map_cons,
        List.map_cons, List.nodup_cons, List.nodup_cons]
      constructor
      · rintro ⟨⟨⟨hkind, hnumber⟩, hown⟩, hall, hkinds, hnumbers⟩
        refine ⟨⟨⟨hkind, hnumber, hown⟩, ?_⟩, ⟨?_, hkinds⟩, ?_, hnumbers⟩
        · intro m hm
          obtain ⟨hk, hn, hfaults⟩ := hall m hm
          exact ⟨fun h => hk (List.mem_cons_of_mem _ h), fun h => hn (List.mem_cons_of_mem _ h),
            hfaults⟩
        · intro hmem
          obtain ⟨m, hm, hsame⟩ := List.mem_map.mp hmem
          exact (hall m hm).1 (hsame ▸ List.mem_cons_self)
        · intro hmem
          obtain ⟨m, hm, hsame⟩ := List.mem_map.mp hmem
          exact (hall m hm).2.1 (hsame ▸ List.mem_cons_self)
      · rintro ⟨⟨⟨hkind, hnumber, hown⟩, hall⟩, ⟨hfirst, hkinds⟩, hfirst', hnumbers⟩
        refine ⟨⟨⟨hkind, hnumber⟩, hown⟩, ?_, hkinds, hnumbers⟩
        intro m hm
        obtain ⟨hk, hn, hfaults⟩ := hall m hm
        refine ⟨?_, ?_, hfaults⟩
        · intro h
          rcases List.mem_cons.mp h with hsame | hold
          · exact hfirst (hsame ▸ List.mem_map_of_mem hm)
          · exact hk hold
        · intro h
          rcases List.mem_cons.mp h with hsame | hold
          · exact hfirst' (hsame ▸ List.mem_map_of_mem hm)
          · exact hn hold

/-- A catalog has no faults when its levels have kinds and numbers of their own, and neither what
they share nor a level has a fault. -/
theorem faults_eq_nil_iff (c : Catalog α) :
    c.faults = [] ↔
      sharedFaults c = [] ∧ (∀ l ∈ c.levels, levelFaults c.playfield l = []) ∧
        (c.levels.map Level.kind).Nodup ∧ (c.levels.map Level.number).Nodup := by
  rw [faults, List.append_eq_nil_iff, faultsAfter_eq_nil_iff]
  apply and_congr_right
  intro _
  apply and_congr_left
  intro _
  exact forall₂_congr fun l _ =>
    ⟨fun h => h.2.2, fun h => ⟨List.not_mem_nil, List.not_mem_nil, h⟩⟩

theorem nodup_kinds {c : Catalog α} (h : c.faults = []) : (c.levels.map Level.kind).Nodup :=
  ((faults_eq_nil_iff c).mp h).2.2.1

/-- In a catalog without faults every level is found by its kind. -/
theorem level?_kind {c : Catalog α} (h : c.faults = []) {l : Level α} (hl : l ∈ c.levels) :
    c.level? l.kind = some l := by
  obtain ⟨found, hlisted, hfound⟩ := exists_level?_kind hl
  rw [hfound, List.inj_on_of_nodup_map (nodup_kinds h) hlisted hl (kind_of_level? hfound)]

end Playscript.Catalog
