import Playscript.Proofs.Script.Cutting
/-! Balanced braces. What stands between the braces of a block opens no brace before it closes it and
closes all that it opens; so a header inside of a block always finds the brace that closes it. -/
namespace Playscript.Script

/-- The text closes the braces that it opens and `depth` more, and none before it is opened. -/
structure Balanced (depth : Nat) (text : List Char) : Prop where
  never_over : ∀ front, front <+: text → front.count '\x7d' ≤ front.count '\x7b' + depth
  all_closed : text.count '\x7d' = text.count '\x7b' + depth

/-- From every place of the text on, as many braces are closed as are opened, or more. -/
def Closes (text : List Char) : Prop :=
  ∀ back, back <:+ text → back.count '\x7b' ≤ back.count '\x7d'

theorem Closes.suffix {text back : List Char} (h : Closes text) (hback : back <:+ text) :
    Closes back := by
  intro rest hrest
  apply h
  exact hrest.trans hback

theorem Balanced.closes {text : List Char} (h : Balanced 0 text) : Closes text := by
  rintro back ⟨front, rfl⟩
  have hfront := h.never_over front (List.prefix_append front back)
  have hall := h.all_closed
  rw [List.count_append, List.count_append] at hall
  omega

theorem balanced_nil : Balanced 0 [] where
  never_over := by
    intro front hfront
    rw [List.prefix_nil.mp hfront]
    apply Nat.zero_le
  all_closed := rfl

/-- One character more in front of a balanced text. -/
theorem Balanced.cons {c : Char} {depth below : Nat} {text : List Char} (h : Balanced below text)
    (hc : [c].count '\x7d' + below = [c].count '\x7b' + depth) : Balanced depth (c :: text) where
  never_over := by
    intro front hfront
    rcases List.prefix_cons_iff.mp hfront with rfl | ⟨rest, rfl, hrest⟩
    · apply Nat.zero_le
    · have hless := h.never_over rest hrest
      rw [← List.singleton_append, List.count_append, List.count_append]
      omega
  all_closed := by
    have hall := h.all_closed
    rw [← List.singleton_append, List.count_append, List.count_append]
    omega

theorem balanced_of_closeBody? {depth : Nat} {text body rest : List Char}
    (h : Segment.closeBody? depth text = some (body, rest)) : Balanced depth body := by
  induction text generalizing depth body rest with
  | nil => cases h
  | cons c cs ih =>
      simp only [Segment.closeBody?] at h
      split at h
      · rename_i hc
        subst hc
        cases depth with
        | zero =>
            cases h
            exact balanced_nil
        | succ depth =>
            obtain ⟨⟨inner, after⟩, hinner, heq⟩ := Option.map_eq_some_iff.mp h
            cases heq
            apply (ih hinner).cons
            rw [show ['\x7d'].count '\x7d' = 1 from rfl, show ['\x7d'].count '\x7b' = 0 from rfl]
            omega
      · rename_i hclose
        obtain ⟨⟨inner, after⟩, hinner, heq⟩ := Option.map_eq_some_iff.mp h
        cases heq
        apply (ih hinner).cons
        rw [List.count_eq_zero_of_not_mem (by simpa using Ne.symm hclose), Nat.zero_add]
        by_cases hopen : c = '\x7b'
        · subst hopen
          exact Nat.add_comm depth 1
        · rw [if_neg hopen, List.count_eq_zero_of_not_mem (by simpa using Ne.symm hopen),
            Nat.zero_add]

/-- Where no closing brace is found, no more braces are closed than are open. -/
theorem count_le_of_closeBody?_eq_none {depth : Nat} {text : List Char}
    (h : Segment.closeBody? depth text = none) :
    text.count '\x7d' ≤ text.count '\x7b' + depth := by
  induction text generalizing depth with
  | nil => apply Nat.zero_le
  | cons c cs ih =>
      simp only [Segment.closeBody?] at h
      split at h
      · rename_i hc
        subst hc
        cases depth with
        | zero => cases h
        | succ depth =>
            have hless := ih (Option.map_eq_none_iff.mp h)
            rw [List.count_cons_self, List.count_cons_of_ne (by decide)]
            omega
      · rename_i hclose
        have hless := ih (Option.map_eq_none_iff.mp h)
        by_cases hopen : c = '\x7b'
        · subst hopen
          rw [if_pos rfl] at hless
          rw [List.count_cons_self, List.count_cons_of_ne (by decide)]
          omega
        · rw [if_neg hopen] at hless
          rw [List.count_cons_of_ne hclose, List.count_cons_of_ne hopen]
          exact hless

end Playscript.Script
