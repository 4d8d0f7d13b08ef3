import Mathlib
import Playscript.Decimal.Numeral
import Playscript.Script.Grammar
import Playscript.Text.Blank
/-! The readers of tokens take back a token as it is written, whatever stands after it. -/
namespace Playscript.Script.Grammar

/-! ## Characters -/

theorem toNat_of_isNameStart {c : Char} (h : isNameStart c = true) :
    65 ≤ c.toNat ∧ c.toNat ≤ 90 ∨ 97 ≤ c.toNat ∧ c.toNat ≤ 122 ∨ c.toNat = 95 := by
  simp only [isNameStart, Char.isAlpha, Char.isUpper, Char.isLower, Bool.or_eq_true,
    Bool.and_eq_true, decide_eq_true_eq, ge_iff_le, UInt32.le_iff_toNat_le] at h
  rcases h with (h | h) | h
  · exact .inl h
  · exact .inr (.inl h)
  · rw [beq_iff_eq.mp h]
    exact .inr (.inr rfl)

theorem toNat_of_isNameChar {c : Char} (h : isNameChar c = true) :
    48 ≤ c.toNat ∧ c.toNat ≤ 57 ∨ 65 ≤ c.toNat ∧ c.toNat ≤ 90 ∨
      97 ≤ c.toNat ∧ c.toNat ≤ 122 ∨ c.toNat = 95 := by
  simp only [isNameChar, Char.isAlphanum, Bool.or_eq_true] at h
  rcases h with (h | h) | h
  · exact .inr (toNat_of_isNameStart (by simp [isNameStart, h]))
  · exact .inl (Char.isDigit_iff_toNat.mp h)
  · exact .inr (toNat_of_isNameStart (by simpa [isNameStart] using .inr (beq_iff_eq.mp h)))

theorem isNameChar_of_isNameStart {c : Char} (h : isNameStart c = true) : isNameChar c = true := by
  simp only [isNameStart, isNameChar, Char.isAlphanum, Bool.or_eq_true] at h ⊢
  rcases h with h | h
  · exact .inl (.inl h)
  · exact .inr h

theorem isNameChar_of_isDigit {c : Char} (h : c.isDigit = true) : isNameChar c = true := by
  simp only [isNameChar, Char.isAlphanum, Bool.or_eq_true]
  exact .inl (.inr h)

theorem not_isDigit_of_isNameStart {c : Char} (h : isNameStart c = true) : c.isDigit = false := by
  have hrange := toNat_of_isNameStart h
  rw [Bool.eq_false_iff]
  intro hdigit
  have : 48 ≤ c.toNat ∧ c.toNat ≤ 57 := Char.isDigit_iff_toNat.mp hdigit
  omega

theorem ne_of_isNameChar {c d : Char} (hc : isNameChar c = true) (hd : isNameChar d = false) :
    c ≠ d := by
  intro h
  rw [h, hd] at hc
  cases hc

theorem not_isGap_of_isNameChar {c : Char} (h : isNameChar c = true) : isGap c = false := by
  simp only [isGap, Bool.or_eq_false_iff, beq_eq_false_iff_ne]
  exact ⟨⟨⟨ne_of_isNameChar h rfl, ne_of_isNameChar h rfl⟩, ne_of_isNameChar h rfl⟩,
    ne_of_isNameChar h rfl⟩

theorem not_isBlank_of_isNameChar {c : Char} (h : isNameChar c = true) :
    Text.isBlank c = false := by
  have hrange := toNat_of_isNameChar h
  simp only [Text.isBlank, Bool.or_eq_false_iff, Bool.and_eq_false_iff, decide_eq_false_iff_not,
    beq_eq_false_iff_ne]
  omega

theorem isBoundChar_of_isNameChar {c : Char} (h : isNameChar c = true) : isBoundChar c = true := by
  simp only [isBoundChar, not_isGap_of_isNameChar h, Bool.not_eq_true', Bool.or_eq_false_iff,
    beq_eq_false_iff_ne, and_true]
  exact ⟨⟨⟨⟨⟨ne_of_isNameChar h rfl, ne_of_isNameChar h rfl⟩, ne_of_isNameChar h rfl⟩,
    ne_of_isNameChar h rfl⟩, ne_of_isNameChar h rfl⟩, ne_of_isNameChar h rfl⟩

theorem not_mem_of_class {p : Char → Bool} {text : List Char} (h : ∀ d ∈ text, p d = true)
    {c : Char} (hc : p c = false) : c ∉ text := by
  intro hmem
  rw [h c hmem] at hc
  cases hc

/-! ## Words made of name characters -/

/-- A nonempty run of characters that can stand in a name: a name or a numeral. -/
structure IsWord (word : List Char) : Prop where
  nonempty : word ≠ []
  chars : ∀ c ∈ word, isNameChar c = true

/-- A letter or underscore, then letters, digits and underscores. -/
def IsName : List Char → Prop
  | [] => False
  | c :: cs => isNameStart c = true ∧ ∀ d ∈ cs, isNameChar d = true

instance : DecidablePred IsName
  | [] => inferInstanceAs (Decidable False)
  | c :: cs =>
      decidable_of_iff ((isNameStart c && cs.all isNameChar) = true) (by simp [IsName])

structure IsNumeral (digits : List Char) : Prop where
  nonempty : digits ≠ []
  chars : ∀ c ∈ digits, c.isDigit = true

theorem IsName.isWord {name : List Char} (h : IsName name) : IsWord name := by
  cases name with
  | nil => exact h.elim
  | cons c cs =>
      constructor
      · exact List.cons_ne_nil c cs
      · intro d hd
        rcases List.mem_cons.mp hd with rfl | hd
        · exact isNameChar_of_isNameStart h.1
        · exact h.2 d hd

theorem IsNumeral.isWord {digits : List Char} (h : IsNumeral digits) : IsWord digits :=
  ⟨h.nonempty, fun c hc => isNameChar_of_isDigit (h.chars c hc)⟩

theorem IsWord.not_mem {word : List Char} {c : Char} (h : IsWord word)
    (hc : isNameChar c = false) : c ∉ word :=
  not_mem_of_class h.chars hc

theorem IsWord.trimStart_append {word : List Char} (h : IsWord word) (suffix : List Char) :
    Text.trimStart (word ++ suffix) = word ++ suffix := by
  cases word with
  | nil => exact absurd rfl h.nonempty
  | cons c cs => simp [Text.trimStart, not_isBlank_of_isNameChar (h.chars c (by simp))]

/-! ## Readers -/

theorem skip_token {c : Char} (h : isGap c = false) (suffix : List Char) :
    skip (c :: suffix) = c :: suffix := by
  simp [skip, h]

theorem IsWord.skip_append {word : List Char} (h : IsWord word) (suffix : List Char) :
    skip (word ++ suffix) = word ++ suffix := by
  cases word with
  | nil => exact absurd rfl h.nonempty
  | cons c cs => exact skip_token (not_isGap_of_isNameChar (h.chars c (by simp))) (cs ++ suffix)

@[simp] theorem word?_nil (text : List Char) : word? [] text = some text := by
  cases text <;> rfl

@[simp] theorem word?_cons (c : Char) (word text : List Char) :
    word? (c :: word) (c :: text) = word? word text := by
  simp [word?, List.isPrefixOf?]

theorem word?_of_ne {c d : Char} (h : c ≠ d) (word text : List Char) :
    word? (c :: word) (d :: text) = none := by
  simp [word?, List.isPrefixOf?, h]

theorem run?_append {p : Char → Bool} {token : List Char} {c : Char} (hne : token ≠ [])
    (htoken : ∀ d ∈ token, p d = true) (hc : p c = false) (suffix : List Char) :
    run? p (token ++ c :: suffix) = some (token, c :: suffix) := by
  cases token with
  | nil => exact absurd rfl hne
  | cons d ds =>
      have hds : ∀ e ∈ ds, p e = true := fun e he => htoken e (by simp [he])
      simp [run?, htoken d (by simp), List.takeWhile_append_of_pos hds,
        List.dropWhile_append_of_pos hds, hc]

theorem IsName.name?_append {name : List Char} {c : Char} (h : IsName name)
    (hc : isNameChar c = false) (suffix : List Char) :
    name? (name ++ c :: suffix) = some (name, c :: suffix) := by
  cases name with
  | nil => exact h.elim
  | cons d ds =>
      simp [name?, h.1, List.takeWhile_append_of_pos h.2, List.dropWhile_append_of_pos h.2, hc]

theorem IsNumeral.number?_append {digits : List Char} {c : Char} (h : IsNumeral digits)
    (hc : c.isDigit = false) (suffix : List Char) :
    number? (digits ++ c :: suffix) = some (digits, c :: suffix) :=
  run?_append h.nonempty h.chars hc suffix

theorem IsName.number?_eq_none {name : List Char} (h : IsName name) (suffix : List Char) :
    number? (name ++ suffix) = none := by
  cases name with
  | nil => exact h.elim
  | cons c cs => simp [number?, run?, not_isDigit_of_isNameStart h.1]

end Playscript.Script.Grammar
