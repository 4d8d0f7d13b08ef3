import Mathlib.Algebra.Ring.Nat
import Mathlib.Data.List.Basic
import Playscript.Proofs.Enemy.Timing
/-! The course of a schedule. Whatever is asked of a schedule, what it has answered since its last
restart and how far it has come follow from two numbers: the time for which it has been running since
then, and how often it was told to take a place at once. -/
namespace Playscript.Schedule

/-! ## Requests -/

/-- What can be asked of a schedule, with the coins that it may toss meanwhile. -/
inductive Request
  | advance (elapsed : Duration) (coin : Nat → Bool)
  | tick (coin : Bool)
  | resume
  | stop
  | restart

def Request.isAdvance : Request → Bool
  | .advance .. => true
  | _ => false

def Request.isTick : Request → Bool
  | .tick _ => true
  | _ => false

def Request.isRestart : Request → Bool
  | .restart => true
  | _ => false

/-- The places that a schedule takes on a request, and the schedule afterwards. -/
def answer (s : Schedule) : Request → List Proximity × Schedule
  | .advance elapsed coin => s.advance elapsed coin
  | .tick coin => ([(s.tick coin).1], (s.tick coin).2)
  | .resume => ([], s.resume)
  | .stop => ([], s.stop)
  | .restart => ([], s.restart)

def answerAll (s : Schedule) : List Request → Schedule
  | [] => s
  | r :: rest => (s.answer r).2.answerAll rest

/-- A request with the schedule of which it was made. -/
structure Entry where
  before : Schedule
  request : Request

def Entry.places (e : Entry) : List Proximity :=
  (e.before.answer e.request).1

/-- The time that a request lets pass for a schedule, if it is running. -/
def Entry.runningTime (e : Entry) : Nat :=
  match e.request with
  | .advance elapsed _ => if e.before.running then elapsed.nanos else 0
  | _ => 0

def history (s : Schedule) : List Request → List Entry
  | [] => []
  | r :: rest => ⟨s, r⟩ :: (s.answer r).2.history rest

/-- The entries after the last restart. -/
def sinceRestart (entries : List Entry) : List Entry :=
  (entries.reverse.takeWhile fun e => !e.request.isRestart).reverse

def runningTime (entries : List Entry) : Nat :=
  (entries.map Entry.runningTime).sum

def ticks (entries : List Entry) : Nat :=
  entries.countP fun e => e.request.isTick

/-- All places that were taken, in order. -/
def placesOf (entries : List Entry) : List Proximity :=
  entries.flatMap Entry.places

/-- The places that were taken because time passed. -/
def placesByTime (entries : List Entry) : List Proximity :=
  placesOf (entries.filter fun e => e.request.isAdvance)

theorem sinceRestart_append (entries : List Entry) (e : Entry) :
    sinceRestart (entries ++ [e]) =
      if e.request.isRestart then [] else sinceRestart entries ++ [e] := by
  unfold sinceRestart
  rw [List.reverse_append, List.reverse_singleton, List.singleton_append, List.takeWhile_cons]
  cases e.request.isRestart with
  | true => rfl
  | false => exact List.reverse_cons

theorem runningTime_append (entries : List Entry) (e : Entry) :
    runningTime (entries ++ [e]) = runningTime entries + e.runningTime := by
  rw [runningTime, List.map_append, List.sum_append, List.map_singleton, List.sum_singleton]
  rfl

theorem ticks_append (entries : List Entry) (e : Entry) :
    ticks (entries ++ [e]) = ticks entries + if e.request.isTick then 1 else 0 := by
  rw [ticks, List.countP_append, List.countP_singleton]
  rfl

theorem placesOf_append (entries : List Entry) (e : Entry) :
    placesOf (entries ++ [e]) = placesOf entries ++ e.places := by
  rw [placesOf, List.flatMap_append, List.flatMap_singleton]
  rfl

theorem placesByTime_append (entries : List Entry) (e : Entry) :
    placesByTime (entries ++ [e]) =
      placesByTime entries ++ if e.request.isAdvance then e.places else [] := by
  rw [placesByTime, List.filter_append]
  cases hadvance : e.request.isAdvance with
  | true =>
      rw [List.filter_singleton, hadvance, if_pos rfl]
      exact placesOf_append _ e
  | false =>
      rw [List.filter_singleton, hadvance, if_neg Bool.false_ne_true, List.append_nil]
      exact congrArg placesOf (List.append_nil _)

/-! ## The course -/

theorem firstPlaces_succ (pattern : Pattern) (n : Nat) :
    firstPlaces pattern (n + 1) =
      firstPlaces pattern n ++ [pattern.place (UInt64.ofNat n).toNat false] := by
  rw [firstPlaces, List.range_succ, List.map_append]
  rfl

theorem length_firstPlaces (pattern : Pattern) (n : Nat) : (firstPlaces pattern n).length = n := by
  rw [firstPlaces, List.length_map, List.length_range]

/-- A schedule that is where the entries since its last restart have brought it from its first phase,
and has answered them with the first places of its pattern. -/
structure OnCourse (first : Schedule) (since : List Entry) (s : Schedule) : Prop where
  along : s = first.along (runningTime since) (ticks since) s.running
  byTime : (placesByTime since).length = runningTime since / first.period.nanos
  places : placesOf since =
    firstPlaces first.pattern (runningTime since / first.period.nanos + ticks since)

variable {first s : Schedule} {since : List Entry}

/-- A request that neither takes time nor a place only starts or stops the schedule. -/
theorem OnCourse.switch (h : OnCourse first since s) {r : Request} (running : Bool)
    (hanswer : s.answer r = ([], { s with running })) (hadvance : r.isAdvance = false)
    (htick : r.isTick = false) (htime : (⟨s, r⟩ : Entry).runningTime = 0) :
    OnCourse first (since ++ [⟨s, r⟩]) (s.answer r).2 := by
  have hplaces : (⟨s, r⟩ : Entry).places = [] := congrArg Prod.fst hanswer
  have hsame : runningTime (since ++ [⟨s, r⟩]) = runningTime since := by
    rw [runningTime_append, htime, Nat.add_zero]
  have hticks : ticks (since ++ [⟨s, r⟩]) = ticks since := by
    rw [ticks_append, htick, if_neg Bool.false_ne_true, Nat.add_zero]
  constructor
  · rw [hsame, hticks, hanswer]
    have halong := congrArg (fun s : Schedule => { s with running }) h.along
    exact halong
  · rw [placesByTime_append, hadvance, if_neg Bool.false_ne_true, List.append_nil, hsame]
    exact h.byTime
  · rw [placesOf_append, hplaces, List.append_nil, hsame, hticks]
    exact h.places

theorem OnCourse.advance (h : OnCourse first since s) {phases : List Proximity}
    (hpattern : first.pattern = .cycle phases) (elapsed : Duration) (coin : Nat → Bool) :
    OnCourse first (since ++ [⟨s, .advance elapsed coin⟩]) (s.advance elapsed coin).2 := by
  have htime : runningTime (since ++ [⟨s, .advance elapsed coin⟩]) =
      runningTime since + if s.running then elapsed.nanos else 0 := runningTime_append ..
  have hticks : ticks (since ++ [⟨s, .advance elapsed coin⟩]) = ticks since := ticks_append ..
  have hbyTime : placesByTime (since ++ [⟨s, .advance elapsed coin⟩]) =
      placesByTime since ++ (s.advance elapsed coin).1 := placesByTime_append ..
  have hall : placesOf (since ++ [⟨s, .advance elapsed coin⟩]) =
      placesOf since ++ (s.advance elapsed coin).1 := placesOf_append ..
  have hnext := advance_along first (runningTime since) (ticks since) s.running elapsed coin
  have hplaces := firstPlaces_advance hpattern (runningTime since) (ticks since) s.running elapsed
    coin
  rw [← h.along] at hnext hplaces
  refine ⟨?_, ?_, ?_⟩
  · rw [htime, hticks, running_advance]
    exact hnext
  · have hlength := congrArg List.length hplaces
    rw [List.length_append, length_firstPlaces, length_firstPlaces] at hlength
    rw [hbyTime, List.length_append, h.byTime, htime]
    omega
  · rw [hall, h.places, htime, hticks, hplaces]

theorem OnCourse.tick (h : OnCourse first since s) {phases : List Proximity}
    (hpattern : first.pattern = .cycle phases) (coin : Bool) :
    OnCourse first (since ++ [⟨s, .tick coin⟩]) (s.tick coin).2 := by
  have htime : runningTime (since ++ [⟨s, .tick coin⟩]) = runningTime since := runningTime_append ..
  have hticks : ticks (since ++ [⟨s, .tick coin⟩]) = ticks since + 1 := ticks_append ..
  have hbyTime : placesByTime (since ++ [⟨s, .tick coin⟩]) = placesByTime since :=
    (placesByTime_append ..).trans (List.append_nil _)
  have hall : placesOf (since ++ [⟨s, .tick coin⟩]) = placesOf since ++ [(s.tick coin).1] :=
    placesOf_append ..
  obtain ⟨halong, hlength, hplaces⟩ := h
  generalize s.running = running at halong
  -- A cycle takes no notice of the coin.
  have hplace : (s.tick coin).1 = first.pattern.place
      (UInt64.ofNat (runningTime since / first.period.nanos + ticks since)).toNat false := by
    rw [halong, hpattern]
    change first.pattern.place _ coin = _
    rw [hpattern]
    rfl
  refine ⟨?_, ?_, ?_⟩
  · rw [htime, hticks]
    have hnext := tick_along first (runningTime since) (ticks since) running coin
    rw [← halong] at hnext
    rw [hnext]
    rfl
  · rw [hbyTime, htime, hlength]
  · rw [hall, hplaces, hplace, htime, hticks, ← Nat.add_assoc, firstPlaces_succ]

theorem onCourse_start (pattern : Pattern) (period : Duration) :
    OnCourse (start pattern period) [] (start pattern period) := by
  have hnone : runningTime [] / (start pattern period).period.nanos = 0 := Nat.zero_div _
  refine ⟨(start_after_zero pattern period).symm, ?_, ?_⟩
  · rw [hnone]
    rfl
  · rw [hnone]
    rfl

/-- A restart brings a schedule back to where it was when it was made. -/
theorem OnCourse.restart {pattern : Pattern} {period : Duration}
    (h : OnCourse (start pattern period) since s) :
    OnCourse (start pattern period) [] s.restart := by
  have hback : s.restart = start pattern period := by
    rw [h.along]
    rfl
  rw [hback]
  exact onCourse_start pattern period

theorem OnCourse.answer {phases : List Proximity} {period : Duration}
    (h : OnCourse (start (.cycle phases) period) since s) {r : Request}
    (hrestart : r.isRestart = false) :
    OnCourse (start (.cycle phases) period) (since ++ [⟨s, r⟩]) (s.answer r).2 := by
  cases r with
  | advance elapsed coin => exact h.advance rfl elapsed coin
  | tick coin => exact h.tick rfl coin
  | resume => exact h.switch true rfl rfl rfl rfl
  | stop => exact h.switch false rfl rfl rfl rfl
  | restart => cases hrestart

theorem onCourse_history {phases : List Proximity} {period : Duration} {entries : List Entry}
    (h : OnCourse (start (.cycle phases) period) (sinceRestart entries) s)
    (requests : List Request) :
    OnCourse (start (.cycle phases) period) (sinceRestart (entries ++ s.history requests))
      (s.answerAll requests) := by
  induction requests generalizing s entries with
  | nil =>
      rw [history, List.append_nil]
      exact h
  | cons r rest ih =>
      rw [history, List.append_cons]
      apply ih
      rw [sinceRestart_append]
      split
      · rename_i hrestart
        cases r with
        | restart => exact h.restart
        | _ => cases hrestart
      · rename_i hrestart
        exact h.answer (Bool.eq_false_iff.mpr hrestart)

/-- Whatever was asked of a schedule that goes through a cycle, let `T` be the time for which it has
been running since its last restart and `j` the number of times it was told to take a place at once.
Time has made it take a place for each whole period in `T`; in the order in which they were taken, all
its places are those of the cycle, over and over; and it keeps the rest of `T`, which is less than a
period. Time that passes while it is stopped does nothing, to stop and start it changes nothing else,
and all requests with the same `T` and `j` have been answered the same. -/
theorem places_fixed_by_running_time (phases : List Proximity) (period : Duration)
    (requests : List Request) :
    let first := start (.cycle phases) period
    let s := first.answerAll requests
    let entries := sinceRestart (first.history requests)
    let P := max period.nanos (Duration.ofMillis 1).nanos
    let T := runningTime entries
    let j := ticks entries
    (placesByTime entries).length = T / P ∧
      (T / P + j < 2 ^ 64 → s.phase.toNat = T / P + j ∧
        placesOf entries =
          (List.range (T / P + j)).map fun i => (phases[i % phases.length]?).getD .far) ∧
      s.period.nanos = P ∧ s.elapsed.nanos = T % P ∧ s.elapsed.nanos < s.period.nanos ∧
      (s.running = false → ∀ elapsed coin, s.advance elapsed coin = ([], s)) ∧
      s.stop = { s with running := false } ∧ s.resume = { s with running := true } ∧
      ∀ others, runningTime (sinceRestart (first.history others)) = T →
        ticks (sinceRestart (first.history others)) = j →
          placesOf (sinceRestart (first.history others)) = placesOf entries ∧
            first.answerAll others =
              { s with running := (first.answerAll others).running } := by
  intro first s entries P T j
  have hall (requests : List Request) :
      OnCourse first (sinceRestart (first.history requests)) (first.answerAll requests) := by
    have hstart : OnCourse first (sinceRestart []) first := onCourse_start _ period
    exact onCourse_history hstart requests
  have hcourse : OnCourse first entries s := hall requests
  have hperiod : s.period.nanos = P := by
    rw [hcourse.along]
    rfl
  have helapsed : s.elapsed.nanos = T % P := by
    rw [hcourse.along]
    rfl
  refine ⟨hcourse.byTime, ?_, hperiod, helapsed, ?_, ?_, rfl, rfl, ?_⟩
  · intro hcount
    constructor
    · rw [hcourse.along]
      exact UInt64.toNat_ofNat_of_lt' hcount
    · rw [hcourse.places]
      exact firstPlaces_cycle phases hcount
  · rw [helapsed, hperiod]
    exact Nat.mod_lt _ (hperiod ▸ s.period_pos)
  · intro hstopped elapsed coin
    rw [Schedule.advance, hstopped, if_neg Bool.false_ne_true]
  · intro others htime hticks
    have hother := hall others
    constructor
    · rw [hother.places, hcourse.places, htime, hticks]
    · have hthere := hother.along
      rw [htime, hticks] at hthere
      have hhere := congrArg
        (fun s : Schedule => { s with running := (first.answerAll others).running }) hcourse.along
      exact hthere.trans hhere.symm

/-- After a restart, ten seconds and a half in three pieces, the second of which passes while the
schedule is stopped, and two ticks, one of them meanwhile. -/
def interrupted : List Request :=
  [.advance (.ofMillis 2500) fun _ => true, .stop, .restart, .advance (.ofMillis 3500) fun _ => true,
    .tick true, .stop, .advance (.ofMillis 6000) fun _ => true, .tick false, .resume,
    .advance (.ofMillis 1000) fun _ => false]

theorem places_fixed_by_running_time_interrupted :
    let first := start (.cycle [.far, .near, .near]) (.ofMillis 2000)
    let entries := sinceRestart (first.history interrupted)
    runningTime entries = 4500000000 ∧ ticks entries = 2 ∧ (placesByTime entries).length = 2 ∧
      placesOf entries = [.far, .near, .near, .far] ∧
      (first.answerAll interrupted).elapsed.nanos = 500000000 := by
  intro first entries
  have hperiod : max (Duration.ofMillis 2000).nanos (Duration.ofMillis 1).nanos = 2000000000 := rfl
  have htime : runningTime entries = 4500000000 := by decide +kernel
  have hticks : ticks entries = 2 := by decide +kernel
  have hall := places_fixed_by_running_time [.far, .near, .near] (.ofMillis 2000) interrupted
  simp only [hperiod, show runningTime (sinceRestart (first.history interrupted)) = _ from htime,
    show ticks (sinceRestart (first.history interrupted)) = _ from hticks, first] at hall
  obtain ⟨hbyTime, hplaces, -, helapsed, -⟩ := hall
  obtain ⟨-, hplaces⟩ := hplaces (by decide)
  exact ⟨htime, hticks, hbyTime, hplaces.trans (by decide), helapsed⟩

end Playscript.Schedule
