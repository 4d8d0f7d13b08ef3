/-! Places in a text. A place is counted in the bytes of UTF-8 that stand before it; the line of a
place is found among the places at which the lines begin. -/
namespace Playscript.Text

/-! ## Sizes -/

/-- The number of bytes of a text in UTF-8. -/
def size (text : List Char) : Nat :=
  (String.ofList text).utf8ByteSize

@[simp] theorem size_nil : size [] = 0 := rfl

@[simp] theorem size_append (a b : List Char) : size (a ++ b) = size a + size b := by
  rw [size, String.ofList_append, String.utf8ByteSize_append]
  rfl

@[simp] theorem size_cons (c : Char) (cs : List Char) :
    size (c :: cs) = c.utf8Size + size cs := by
  rw [← List.singleton_append, size_append, size, ← String.singleton_eq_ofList,
    String.utf8ByteSize_singleton]

theorem size_pos {text : List Char} (h : text ≠ []) : 0 < size text := by
  cases text with
  | nil => exact absurd rfl h
  | cons c cs =>
      rw [size_cons]
      exact Nat.add_pos_left c.utf8Size_pos (size cs)

theorem size_le_of_suffix {back text : List Char} (h : back <:+ text) : size back ≤ size text := by
  obtain ⟨front, rfl⟩ := h
  rw [size_append]
  exact Nat.le_add_left (size back) (size front)

/-! ## Lines -/

/-- The places after the line feeds of a text that itself begins at a place. -/
def startsAfter (place : Nat) : List Char → List Nat
  | [] => []
  | c :: cs =>
      let later := startsAfter (place + c.utf8Size) cs
      if c = '\n' then (place + 1) :: later else later

theorem lt_of_mem_startsAfter {text : List Char} {place start : Nat}
    (h : start ∈ startsAfter place text) : place < start := by
  induction text generalizing place with
  | nil => cases h
  | cons c cs ih =>
      have hlater : start ∈ startsAfter (place + c.utf8Size) cs → place < start := by
        intro hmem
        exact Nat.lt_of_le_of_lt (Nat.le_add_right place c.utf8Size) (ih hmem)
      simp only [startsAfter] at h
      split at h
      · rcases List.mem_cons.mp h with rfl | hmem
        · exact Nat.lt_succ_self place
        · exact hlater hmem
      · exact hlater h

theorem pairwise_startsAfter (place : Nat) (text : List Char) :
    (startsAfter place text).Pairwise (· < ·) := by
  induction text generalizing place with
  | nil => exact .nil
  | cons c cs ih =>
      simp only [startsAfter]
      split
      · rename_i hfeed
        subst hfeed
        exact .cons (fun _ hmem => lt_of_mem_startsAfter hmem) (ih _)
      · exact ih _

/-- The places at which the lines of a text begin, in their order. -/
structure LineIndex where
  starts : Array Nat
  increasing : starts.toList.Pairwise (· < ·)

namespace LineIndex

def of (text : List Char) : LineIndex where
  starts := (0 :: startsAfter 0 text).toArray
  increasing := .cons (fun _ hmem => lt_of_mem_startsAfter hmem) (pairwise_startsAfter 0 text)

/-- Looks for a place among the numbers from the index `first` on and before the index `stop`. The
answer is its index, or else the index at which it would have to be inserted. -/
def search (starts : Array Nat) (place first stop : Nat) (h : stop ≤ starts.size) :
    Except Nat Nat :=
  if hless : first < stop then
    let middle := first + (stop - first) / 2
    have hmiddle : middle < stop := by omega
    if starts[middle] = place then .ok middle
    else if starts[middle] < place then search starts place (middle + 1) stop h
    else search starts place first middle (by omega)
  else
    .error first
termination_by stop - first

/-- The number of the line of a place, counted from one. -/
def lineOf (index : LineIndex) (place : Nat) : Nat :=
  match search index.starts place 0 index.starts.size (Nat.le_refl _) with
  | .ok i => i + 1
  | .error i => i

end LineIndex

end Playscript.Text
