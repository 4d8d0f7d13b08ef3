import Playscript.Duration
/-! The enemy's schedule. The enemy moves on a clock of its own: whenever a period of running time
has passed, it takes the next place of its pattern. Time is told to the schedule from outside, and
so are the coins of the random pattern. -/
namespace Playscript

inductive Proximity
  | far
  | near
deriving DecidableEq, Repr

namespace Proximity

def all : List Proximity := [.far, .near]

def word : Proximity → String
  | .far => "far"
  | .near => "near"

def ofWord? (w : String) : Option Proximity :=
  all.find? fun p => p.word == w

def isNear : Proximity → Bool
  | .far => false
  | .near => true

end Proximity

inductive Pattern
  /-- These places in turn, over and over; always far if there are none. -/
  | cycle (phases : List Proximity)
  /-- By the toss of a coin. -/
  | random
deriving DecidableEq, Repr

def Pattern.standard : Pattern := .cycle [.far, .near, .far, .far, .near]

def Pattern.place (p : Pattern) (phase : Nat) (coin : Bool) : Proximity :=
  match p with
  | .cycle phases => (phases[phase % phases.length]?).getD .far
  | .random => if coin then .near else .far

/-- A schedule with the running time since its last move. Phases are counted in words of 64 bits
and start again at zero after the last one. -/
structure Schedule where
  pattern : Pattern
  period : Duration
  elapsed : Duration
  phase : UInt64
  running : Bool
  period_pos : 0 < period.nanos

namespace Schedule

/-- A running schedule at its first phase. A period is at least a millisecond. -/
def start (pattern : Pattern) (period : Duration) : Schedule :=
  { pattern
    period := ⟨max period.nanos (Duration.ofMillis 1).nanos⟩
    elapsed := .zero
    phase := 0
    running := true
    period_pos := Nat.lt_of_lt_of_le (by decide) (Nat.le_max_right _ _) }

def resume (s : Schedule) : Schedule := { s with running := true }

def stop (s : Schedule) : Schedule := { s with running := false }

def restart (s : Schedule) : Schedule :=
  { s with elapsed := .zero, phase := 0, running := true }

def tick (s : Schedule) (coin : Bool) : Proximity × Schedule :=
  (s.pattern.place s.phase.toNat coin, { s with phase := s.phase + 1 })

/-- Takes a place for every whole period that has passed. The coins are those of one call, counted
from `n`. -/
def catchUp (s : Schedule) (coin : Nat → Bool) (n : Nat) : List Proximity × Schedule :=
  if s.period.nanos ≤ s.elapsed.nanos then
    let ticked := { s with elapsed := ⟨s.elapsed.nanos - s.period.nanos⟩ }.tick (coin n)
    let later := ticked.2.catchUp coin (n + 1)
    (ticked.1 :: later.1, later.2)
  else
    ([], s)
termination_by s.elapsed.nanos
decreasing_by
  have := s.period_pos
  simp only [tick]
  omega

/-- Lets time pass. It counts only while the schedule is running. -/
def advance (s : Schedule) (elapsed : Duration) (coin : Nat → Bool) :
    List Proximity × Schedule :=
  if s.running then
    { s with elapsed := ⟨s.elapsed.nanos + elapsed.nanos⟩ }.catchUp coin 0
  else
    ([], s)

/-! Whatever happens to a schedule, it keeps its pattern and its period; only stopping, starting
and restarting change whether it is running. -/

@[simp] theorem restart_stop (s : Schedule) : s.stop.restart = s.restart := rfl

@[simp] theorem restart_restart (s : Schedule) : s.restart.restart = s.restart := rfl

theorem restart_catchUp (s : Schedule) (coin : Nat → Bool) (n : Nat) :
    (s.catchUp coin n).2.restart = s.restart := by
  fun_induction catchUp s coin n with
  | case1 s n _ ticked later ih => exact ih
  | case2 s n _ => rfl

theorem running_catchUp (s : Schedule) (coin : Nat → Bool) (n : Nat) :
    (s.catchUp coin n).2.running = s.running := by
  fun_induction catchUp s coin n with
  | case1 s n _ ticked later ih => exact ih
  | case2 s n _ => rfl

@[simp] theorem restart_advance (s : Schedule) (elapsed : Duration) (coin : Nat → Bool) :
    (s.advance elapsed coin).2.restart = s.restart := by
  unfold advance
  split
  · exact restart_catchUp _ coin 0
  · rfl

@[simp] theorem running_advance (s : Schedule) (elapsed : Duration) (coin : Nat → Bool) :
    (s.advance elapsed coin).2.running = s.running := by
  unfold advance
  split
  · exact running_catchUp _ coin 0
  · rfl

end Schedule

end Playscript
