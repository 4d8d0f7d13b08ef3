import Playscript.Script.Statement
/-! The bounds of a loop, as signed words of 64 bits: whether a loop is entered and which values its
counter takes. -/
namespace Playscript.Script.Loop

/-- The difference of two words, or the end of the range that it lies beyond. -/
def saturatingSub (a b : Int64) : Int64 :=
  let difference := a.toInt - b.toInt
  if Int64.maxValue.toInt < difference then Int64.maxValue
  else if difference < Int64.minValue.toInt then Int64.minValue
  else Int64.ofInt difference

/-- What becomes of a loop when it is reached. -/
inductive Entry
  | tooLong
  | empty
  | entered
deriving DecidableEq, Repr

def entry (first stop : Int64) : Entry :=
  if maxIterations < saturatingSub stop first then .tooLong
  else if stop ≤ first then .empty
  else .entered

/-- The values from `first` up to but without `stop`. -/
def span (first stop : Int64) : List Int64 :=
  (List.range (stop.toInt - first.toInt).toNat).map fun (k : Nat) =>
    Int64.ofInt (first.toInt + Int.ofNat k)

theorem lt_of_entry {first stop : Int64} (h : entry first stop = .entered) : first < stop := by
  unfold entry at h
  split at h
  · simp at h
  · split at h
    · simp at h
    · rename_i _ hn
      exact Int64.not_le.mp hn

/-- Below a word there is room for one more. -/
theorem toInt_add_one {first stop : Int64} (h : first < stop) :
    (first + 1).toInt = first.toInt + 1 := by
  have hlt := Int64.lt_iff_toInt_lt.mp h
  have hmin := Int64.le_toInt first
  have hmax := Int64.toInt_lt stop
  have hone : (1 : Int64).toInt = 1 := rfl
  rw [Int64.toInt_add, hone, Int.bmod_eq_of_le] <;> omega

theorem span_eq_nil {first stop : Int64} (h : stop ≤ first) : span first stop = [] := by
  have hle := Int64.le_iff_toInt_le.mp h
  have hzero : (stop.toInt - first.toInt).toNat = 0 := by omega
  simp only [span, hzero, List.range_zero, List.map_nil]

/-- A loop begins with its first value and goes on as the loop from the next one. -/
theorem span_eq_cons {first stop : Int64} (h : first < stop) :
    span first stop = first :: span (first + 1) stop := by
  have hlt := Int64.lt_iff_toInt_lt.mp h
  have hnext := toInt_add_one h
  have hlength : (stop.toInt - first.toInt).toNat =
      (stop.toInt - (first + 1).toInt).toNat + 1 := by omega
  simp only [span, hlength, List.range_succ_eq_map, List.map_cons, List.map_map]
  refine List.cons_eq_cons.mpr ⟨?_, List.map_congr_left ?_⟩
  · rw [Int.ofNat_eq_natCast, Int.natCast_zero, Int.add_zero, Int64.ofInt_toInt]
  · intro k _
    simp only [Function.comp_apply, hnext]
    congr 1
    simp only [Int.ofNat_eq_natCast, Nat.succ_eq_add_one, Int.natCast_add, Int.cast_ofNat_Int]
    omega

end Playscript.Script.Loop
