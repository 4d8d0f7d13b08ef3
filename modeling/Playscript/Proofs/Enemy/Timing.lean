import Playscript.Session.Basic
/-! The places of the enemy in time. A schedule that has been running for some time has taken as many
places of its pattern as whole periods have passed; however the time was told to it, it is then the
same schedule. Of the places that it takes only the changes move the enemy, and these alternate. -/
namespace Playscript

namespace Schedule

/-- A schedule after so many nanoseconds of running time, be it still running or stopped. -/
def after (s : Schedule) (time : Nat) (running : Bool) : Schedule :=
  { s with
    elapsed := ⟨time % s.period.nanos⟩
    phase := UInt64.ofNat (time / s.period.nanos)
    running }

/-- The first places of a pattern, where it tosses no coins. -/
def firstPlaces (pattern : Pattern) (count : Nat) : List Proximity :=
  (List.range count).map fun i => pattern.place (UInt64.ofNat i).toNat false

/-- The places that a schedule without coins has taken after so many nanoseconds of running time. -/
def placesTaken (s : Schedule) (time : Nat) : List Proximity :=
  firstPlaces s.pattern (time / s.period.nanos)

theorem placesTaken_zero (s : Schedule) : s.placesTaken 0 = [] := by
  rw [placesTaken, Nat.zero_div]
  rfl

theorem start_after_zero (pattern : Pattern) (period : Duration) :
    (start pattern period).after 0 true = start pattern period := by
  unfold after
  rw [Nat.zero_mod, Nat.zero_div]
  rfl

/-- A schedule that catches up takes a place for each whole period that has passed and keeps the rest
of the time. -/
theorem catchUp_eq (s : Schedule) (coin : Nat → Bool) (n : Nat) :
    s.catchUp coin n =
      ((List.range (s.elapsed.nanos / s.period.nanos)).map fun i =>
          s.pattern.place (s.phase + UInt64.ofNat i).toNat (coin (n + i)),
        { s with
          elapsed := ⟨s.elapsed.nanos % s.period.nanos⟩
          phase := s.phase + UInt64.ofNat (s.elapsed.nanos / s.period.nanos) }) := by
  fun_induction catchUp s coin n with
  | case1 s n hdue ticked later ih =>
      have hcount : s.elapsed.nanos / s.period.nanos =
          (s.elapsed.nanos - s.period.nanos) / s.period.nanos + 1 :=
        Nat.div_eq_sub_div s.period_pos hdue
      have hphase (i : Nat) :
          s.phase + 1 + UInt64.ofNat i = s.phase + UInt64.ofNat (i + 1) := by
        rw [UInt64.ofNat_add, UInt64.add_assoc, UInt64.add_comm 1]
        rfl
      have hcoin (i : Nat) : n + 1 + i = n + (i + 1) := by omega
      have hzero : s.phase + UInt64.ofNat 0 = s.phase := UInt64.add_zero s.phase
      simp only [ticked, tick, hphase, hcoin] at ih
      rw [hcount, List.range_succ_eq_map, List.map_cons, List.map_map, hzero,
        Nat.mod_eq_sub_mod hdue]
      simp only [later, ticked, tick, ih]
      rfl
  | case2 s n hearly =>
      have hless := Nat.lt_of_not_le hearly
      rw [Nat.div_eq_of_lt hless, Nat.mod_eq_of_lt hless]
      exact congrArg (fun phase => ([], { s with phase })) (UInt64.add_zero s.phase).symm

theorem firstPlaces_add (pattern : Pattern) (m n : Nat) :
    firstPlaces pattern (m + n) =
      firstPlaces pattern m ++ (List.range n).map fun i =>
        pattern.place (UInt64.ofNat m + UInt64.ofNat i).toNat false := by
  simp only [firstPlaces, List.range_add, List.map_append, List.map_map, Function.comp_def,
    UInt64.ofNat_add]

/-- Further time fills up the period that was left incomplete. -/
theorem periods_add (s : Schedule) (time more : Nat) :
    (time + more) / s.period.nanos =
      time / s.period.nanos + (time % s.period.nanos + more) / s.period.nanos := by
  rw [← Nat.mul_add_div s.period_pos, ← Nat.add_assoc, Nat.div_add_mod]

/-- A schedule after so many nanoseconds of running time in which it was also told so many times to
take a place at once. -/
def along (s : Schedule) (time ticks : Nat) (running : Bool) : Schedule :=
  { s.after time running with phase := UInt64.ofNat (time / s.period.nanos + ticks) }

/-- Time that is told to a schedule adds to the time that it was told before, while it is running. -/
theorem advance_along (s : Schedule) (time ticks : Nat) (running : Bool) (elapsed : Duration)
    (coin : Nat → Bool) :
    ((s.along time ticks running).advance elapsed coin).2 =
      s.along (time + if running then elapsed.nanos else 0) ticks running := by
  cases running with
  | false => rfl
  | true =>
      have hcount := periods_add s time elapsed.nanos
      have hrest : (time + elapsed.nanos) % s.period.nanos =
          (time % s.period.nanos + elapsed.nanos) % s.period.nanos :=
        (Nat.mod_add_mod ..).symm
      have hphase : time / s.period.nanos + (time % s.period.nanos + elapsed.nanos) / s.period.nanos +
          ticks = time / s.period.nanos + ticks +
            (time % s.period.nanos + elapsed.nanos) / s.period.nanos := Nat.add_right_comm ..
      rw [advance, if_pos (show (s.along time ticks true).running = true from rfl), catchUp_eq]
      simp only [along, after, if_true, hcount, hrest, hphase, UInt64.ofNat_add]

theorem tick_along (s : Schedule) (time ticks : Nat) (running coin : Bool) :
    ((s.along time ticks running).tick coin).2 = s.along time (ticks + 1) running := by
  simp only [along, tick, ← Nat.add_assoc, UInt64.ofNat_add]
  rfl

/-- The places of a cycle that are taken meanwhile follow those that were taken before. -/
theorem firstPlaces_advance {s : Schedule} {phases : List Proximity}
    (hpattern : s.pattern = .cycle phases) (time ticks : Nat) (running : Bool) (elapsed : Duration)
    (coin : Nat → Bool) :
    firstPlaces s.pattern
        ((time + if running then elapsed.nanos else 0) / s.period.nanos + ticks) =
      firstPlaces s.pattern (time / s.period.nanos + ticks) ++
        ((s.along time ticks running).advance elapsed coin).1 := by
  cases running with
  | false => exact (List.append_nil _).symm
  | true =>
      rw [if_pos rfl, periods_add, Nat.add_right_comm, firstPlaces_add, advance,
        if_pos (show (s.along time ticks true).running = true from rfl), catchUp_eq]
      simp only [along, after, hpattern]
      rfl

theorem advance_after (s : Schedule) (time : Nat) (running : Bool) (elapsed : Duration)
    (coin : Nat → Bool) :
    ((s.after time running).advance elapsed coin).2 =
      s.after (time + if running then elapsed.nanos else 0) running :=
  advance_along s time 0 running elapsed coin

theorem placesTaken_advance {s : Schedule} {phases : List Proximity}
    (hpattern : s.pattern = .cycle phases) (time : Nat) (running : Bool) (elapsed : Duration)
    (coin : Nat → Bool) :
    s.placesTaken (time + if running then elapsed.nanos else 0) =
      s.placesTaken time ++ ((s.after time running).advance elapsed coin).1 :=
  firstPlaces_advance hpattern time 0 running elapsed coin

/-- The places of a cycle come round, as long as the count of the phases does not. -/
theorem firstPlaces_cycle (phases : List Proximity) {count : Nat} (hcount : count < UInt64.size) :
    firstPlaces (.cycle phases) count =
      (List.range count).map fun i => (phases[i % phases.length]?).getD .far := by
  apply List.map_congr_left
  intro i hi
  have hsmall : i < UInt64.size := Nat.lt_trans (List.mem_range.mp hi) hcount
  rw [UInt64.toNat_ofNat_of_lt' hsmall]
  rfl

end Schedule

namespace Session

variable {α : Type}

/-! ## Moves of the enemy -/

/-- Where the enemy is after some places. -/
def endsNear (near : Bool) (places : List Proximity) : Bool :=
  (places.getLast?.map Proximity.isNear).getD near

/-- The places where the enemy is not already. -/
def turns (near : Bool) : List Proximity → List Bool
  | [] => []
  | p :: rest => if p.isNear = near then turns near rest else p.isNear :: turns p.isNear rest

theorem endsNear_cons (near : Bool) (p : Proximity) (rest : List Proximity) :
    endsNear near (p :: rest) = endsNear p.isNear rest := by
  rw [endsNear, endsNear, List.getLast?_cons]
  cases rest.getLast? <;> rfl

theorem endsNear_append (near : Bool) (a b : List Proximity) :
    endsNear near (a ++ b) = endsNear (endsNear near a) b := by
  induction a generalizing near with
  | nil => rfl
  | cons p rest ih => rw [List.cons_append, endsNear_cons, endsNear_cons, ih]

theorem turns_append (near : Bool) (a b : List Proximity) :
    turns near (a ++ b) = turns near a ++ turns (endsNear near a) b := by
  induction a generalizing near with
  | nil => rfl
  | cons p rest ih =>
      rw [List.cons_append, turns, turns, endsNear_cons]
      split
      · rename_i hsame
        rw [ih, hsame]
      · rw [ih, List.cons_append]

/-- The turns alternate, and the first is away from where the enemy is. -/
theorem turns_eq (near : Bool) (places : List Proximity) :
    turns near places =
      (List.range (turns near places).length).map fun i => (i % 2 == 0) != near := by
  induction places generalizing near with
  | nil => rfl
  | cons p rest ih =>
      rw [turns]
      split
      · exact ih near
      · rename_i hother
        have hturn : p.isNear = !near := Bool.eq_not.mpr hother
        rw [List.length_cons, List.range_succ_eq_map, List.map_cons, List.map_map, hturn]
        -- The turns after this one start from the other side, so each index is one higher.
        refine List.cons_eq_cons.mpr ⟨(Bool.true_bne near).symm, ?_⟩
        refine (ih (!near)).trans (List.map_congr_left ?_)
        intro i _
        rcases Nat.mod_two_eq_zero_or_one i with heven | hodd
        · have hnext : (i + 1) % 2 = 1 := by omega
          simp [heven, hnext]
        · have hnext : (i + 1) % 2 = 0 := by omega
          simp [hodd, hnext]

/-- After some places of a cycle the enemy is where the last of them is, and far before the first. -/
theorem endsNear_cycle (phases : List Proximity) (count : Nat) :
    endsNear false
        ((List.range count).map fun i => (phases[i % phases.length]?).getD Proximity.far) =
      (decide (0 < count) && phases[(count - 1) % phases.length]? == some .near) := by
  cases count with
  | zero => rfl
  | succ n =>
      have hlast : (phases[n % phases.length]?.getD .far).isNear =
          (phases[n % phases.length]? == some .near) := by
        cases phases[n % phases.length]? with
        | none => rfl
        | some p => cases p <;> rfl
      rw [List.range_succ, List.map_append, endsNear_append, Nat.add_sub_cancel,
        decide_eq_true (Nat.succ_pos n), Bool.true_and]
      exact hlast

/-- The enemy makes the turns that its places make it take, and ends at the last place. -/
theorem enemyMoves_eq_turns {w : World α} {e : Enemy α} (he : w.enemy = some e)
    (places : List Proximity) :
    enemyMoves w places =
      ((turns e.near places).map .enemyMoved,
        { w with enemy := some { e with near := endsNear e.near places } }) := by
  induction places generalizing w e with
  | nil =>
      obtain ⟨character, start, playfield, goal, obstacles, targets, enemy⟩ := w
      cases he
      rfl
  | cons p rest ih =>
      rw [endsNear_cons]
      by_cases hsame : p.isNear = e.near
      · have hstays : w.withEnemyNear? p.isNear = none := by
          simp only [World.withEnemyNear?, he, hsame, bne_self_eq_false, Bool.false_eq_true,
            if_false]
        simp only [enemyMoves, hstays, turns, if_pos hsame]
        rw [hsame]
        exact ih he
      · have hmoves : w.withEnemyNear? p.isNear =
            some { w with enemy := some { e with near := p.isNear } } := by
          simp only [World.withEnemyNear?, he]
          exact if_pos (bne_iff_ne.mpr (Ne.symm hsame))
        simp only [enemyMoves, hmoves, turns, if_neg hsame]
        have hlater := ih (w := { w with enemy := some { e with near := p.isNear } }) rfl
        rw [hlater]
        rfl

end Session

end Playscript
