import Playscript.Text.Position
/-! The line of a place. Looking a place up among the places at which the lines begin answers one
more than there are line feeds before it. -/
namespace Playscript.Text

/-! ## Line feeds before a place -/

/-- The characters of a text that begin before a place. -/
def before : List Char → Nat → List Char
  | [], _ => []
  | c :: cs, place => if place = 0 then [] else c :: before cs (place - c.utf8Size)

/-- The number of the line of a place: one more than there are line feeds before it. -/
def lineAt (text : List Char) (place : Nat) : Nat :=
  (before text place).count '\n' + 1

@[simp] theorem before_zero (text : List Char) : before text 0 = [] := by
  cases text <;> rfl

theorem before_append (front text : List Char) (place : Nat) :
    before (front ++ text) (size front + place) = front ++ before text place := by
  induction front with
  | nil => rw [List.nil_append, size_nil, Nat.zero_add, List.nil_append]
  | cons c cs ih =>
      have hpos := c.utf8Size_pos
      rw [List.cons_append, size_cons, before, if_neg (by omega), Nat.add_assoc,
        Nat.add_sub_cancel_left, ih, List.cons_append]

theorem before_append_left {text : List Char} (more : List Char) {place : Nat}
    (h : place ≤ size text) : before (text ++ more) place = before text place := by
  induction text generalizing place with
  | nil => rw [Nat.le_zero.mp h, before_zero, before_zero]
  | cons c cs ih =>
      rw [size_cons] at h
      rw [List.cons_append, before, before, ih (by omega)]

theorem before_prefix (text : List Char) {a b : Nat} (h : a ≤ b) :
    before text a <+: before text b := by
  induction text generalizing a b with
  | nil => exact List.prefix_rfl
  | cons c cs ih =>
      rw [before, before]
      split
      · exact List.nil_prefix
      · rw [if_neg (by omega), List.cons_prefix_cons]
        exact ⟨rfl, ih (Nat.sub_le_sub_right h _)⟩

/-- As many lines begin after a line feed, at or before a place, as line feeds stand before it. -/
theorem countP_startsAfter (text : List Char) (start place : Nat) :
    (startsAfter start text).countP (· ≤ place) = (before text (place - start)).count '\n' := by
  induction text generalizing start with
  | nil => rfl
  | cons c cs ih =>
      have hlater := ih (start + c.utf8Size)
      rw [Nat.sub_add_eq] at hlater
      have hhead : (startsAfter start (c :: cs)).countP (· ≤ place) =
          (startsAfter (start + c.utf8Size) cs).countP (· ≤ place) +
            if c = '\n' ∧ start < place then 1 else 0 := by
        simp only [startsAfter]
        split
        · rename_i hfeed
          simp only [List.countP_cons, hfeed, true_and, decide_eq_true_eq]
          rfl
        · rename_i hother
          simp [hother]
      rw [hhead, hlater, before]
      by_cases hplace : place ≤ start
      · rw [if_neg (by omega), if_pos (by omega), Nat.sub_eq_zero_of_le hplace, Nat.zero_sub,
          before_zero]
        rfl
      · rw [if_neg (show place - start ≠ 0 by omega), List.count_cons]
        simp [Nat.lt_of_not_le hplace]

/-! ## The search -/

namespace LineIndex

/-- The first `n` of the numbers are at most the place, and the others are more. -/
structure Divides (starts : Array Nat) (place n : Nat) : Prop where
  bound : n ≤ starts.size
  below : ∀ i (h : i < starts.size), i < n → starts[i] ≤ place
  above : ∀ i (h : i < starts.size), n ≤ i → place < starts[i]

theorem Divides.countP_eq {starts : Array Nat} {place n : Nat} (h : Divides starts place n) :
    starts.toList.countP (· ≤ place) = n := by
  have hfirst : (starts.toList.take n).countP (· ≤ place) = n := by
    rw [List.countP_eq_length.mpr, List.length_take_of_le h.bound]
    intro start hmem
    obtain ⟨i, hi, rfl⟩ := List.mem_take_iff_getElem.mp hmem
    rw [Array.length_toList] at hi
    exact decide_eq_true (h.below i (by omega) (by omega))
  have hlater : (starts.toList.drop n).countP (· ≤ place) = 0 := by
    rw [List.countP_eq_zero]
    intro start hmem
    obtain ⟨i, hi, rfl⟩ := List.mem_drop_iff_getElem.mp hmem
    rw [Array.length_toList] at hi
    have hmore := h.above (n + i) (by omega) (Nat.le_add_right n i)
    rw [decide_eq_true_eq, Nat.not_le, Array.getElem_toList]
    simpa only [Nat.add_comm] using hmore
  rw [← List.take_append_drop n starts.toList, List.countP_append, hfirst, hlater, Nat.add_zero]

theorem lt_of_increasing {starts : Array Nat} (h : starts.toList.Pairwise (· < ·)) {i j : Nat}
    (hij : i < j) (hj : j < starts.size) : starts[i] < starts[j] := by
  have hlist := List.pairwise_iff_getElem.mp h i j (Nat.lt_trans hij hj) hj hij
  rwa [Array.getElem_toList, Array.getElem_toList] at hlist

theorem divides_search {starts : Array Nat} (hsorted : starts.toList.Pairwise (· < ·))
    {place first stop : Nat} {h : stop ≤ starts.size} (hle : first ≤ stop)
    (hbelow : ∀ i (hi : i < starts.size), i < first → starts[i] < place)
    (habove : ∀ i (hi : i < starts.size), stop ≤ i → place < starts[i]) :
    Divides starts place
      (match search starts place first stop h with
      | .ok i => i + 1
      | .error i => i) := by
  fun_induction search starts place first stop h with
  | case1 first stop h hless middle hmiddle hfound =>
      change Divides starts place (middle + 1)
      refine ⟨by omega, ?_, ?_⟩
      · intro i hi hin
        rcases Nat.lt_or_eq_of_le (Nat.le_of_lt_succ hin) with hlt | rfl
        · exact hfound ▸ Nat.le_of_lt (lt_of_increasing hsorted hlt _)
        · exact Nat.le_of_eq hfound
      · intro i hi hin
        exact hfound ▸ lt_of_increasing hsorted hin hi
  | case2 first stop h hless middle hmiddle hother hbefore ih =>
      apply ih (by omega) _ habove
      intro i hi hin
      rcases Nat.lt_or_eq_of_le (Nat.le_of_lt_succ hin) with hlt | rfl
      · exact Nat.lt_trans (lt_of_increasing hsorted hlt _) hbefore
      · exact hbefore
  | case3 first stop h hless middle hmiddle hother hafter ih =>
      apply ih (by omega) hbelow
      intro i hi hin
      have hmore : place < starts[middle] := by omega
      rcases Nat.lt_or_eq_of_le hin with hlt | rfl
      · exact Nat.lt_trans hmore (lt_of_increasing hsorted hlt hi)
      · exact hmore
  | case4 first stop h hless =>
      change Divides starts place first
      refine ⟨by omega, fun i hi hin => Nat.le_of_lt (hbelow i hi hin), ?_⟩
      intro i hi hin
      exact habove i hi (by omega)

theorem lineOf_eq_countP (index : LineIndex) (place : Nat) :
    index.lineOf place = index.starts.toList.countP (· ≤ place) := by
  have hdivides : Divides index.starts place (index.lineOf place) :=
    divides_search index.increasing (Nat.zero_le _) (fun i hi hin => absurd hin (Nat.not_lt_zero i))
      fun i hi hin => absurd hi (Nat.not_lt.mpr hin)
  exact hdivides.countP_eq.symm

/-- The index of a text finds the line of every place. -/
theorem lineOf_of (text : List Char) (place : Nat) :
    (LineIndex.of text).lineOf place = lineAt text place := by
  rw [lineOf_eq_countP, of, List.toList_toArray, List.countP_cons, countP_startsAfter]
  simp [lineAt]

end LineIndex

end Playscript.Text
