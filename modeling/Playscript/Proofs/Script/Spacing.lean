import Playscript.Proofs.Script.Token
/-! Texts that are made of tokens, with gaps before, between and after them. What a reader finds
after gaps is the next token, and the text after that consists of the tokens that are left. -/
namespace Playscript.Script.Grammar

/-! ## Gaps -/

/-- A run of gaps, maybe none. -/
def IsGaps (g : List Char) : Prop :=
  ∀ c ∈ g, isGap c = true

theorem isGaps_nil : IsGaps [] := nofun

theorem isGaps_singleton {c : Char} (hc : isGap c = true) : IsGaps [c] :=
  List.forall_mem_singleton.mpr hc

theorem exists_gaps (text : List Char) : ∃ g, IsGaps g ∧ text = g ++ skip text :=
  ⟨text.takeWhile isGap, fun _ hc => List.mem_takeWhile_imp hc,
    List.takeWhile_append_dropWhile.symm⟩

theorem IsGaps.skip_append {g : List Char} (hg : IsGaps g) (text : List Char) :
    skip (g ++ text) = skip text :=
  List.dropWhile_append_of_pos hg

theorem isDone_iff {text : List Char} : isDone text = true ↔ IsGaps text := by
  rw [isDone, List.isEmpty_iff, skip, List.dropWhile_eq_nil_iff]
  exact Iff.rfl

/-! ## Texts made of tokens -/

/-- Tokens one after the other, with gaps before, between and after them. -/
inductive Spaced : List (List Char) → List Char → Prop
  | done {g : List Char} : IsGaps g → Spaced [] g
  | token {g token rest : List Char} {tokens : List (List Char)} : IsGaps g →
      Spaced tokens rest → Spaced (token :: tokens) (g ++ (token ++ rest))

section
variable {text rest token : List Char} {tokens : List (List Char)}

theorem Spaced.of_skip (h : skip text = token ++ rest) (hrest : Spaced tokens rest) :
    Spaced (token :: tokens) text := by
  obtain ⟨g, hg, htext⟩ := exists_gaps text
  rw [htext, h]
  exact .token hg hrest

theorem Spaced.skip_eq {c : Char} {cs : List Char} (h : Spaced ((c :: cs) :: tokens) text)
    (hc : isGap c = false) : ∃ rest, skip text = c :: (cs ++ rest) ∧ Spaced tokens rest := by
  cases h with
  | @token g _ rest _ hg hrest =>
      refine ⟨rest, ?_, hrest⟩
      rw [hg.skip_append, List.cons_append, skip_token hc]

theorem isDone_iff_spaced : isDone text = true ↔ Spaced [] text := by
  rw [isDone_iff]
  constructor
  · exact .done
  · rintro ⟨hg⟩
    exact hg

/-- The token may stand at the very beginning. -/
theorem Spaced.append (h : Spaced tokens rest) (token : List Char) :
    Spaced (token :: tokens) (token ++ rest) :=
  .token isGaps_nil h

theorem Spaced.cons_gap {c : Char} (h : Spaced tokens text) (hc : isGap c = true) :
    Spaced tokens (c :: text) := by
  cases h with
  | done hg => exact .done (List.forall_mem_cons.mpr ⟨hc, hg⟩)
  | @token g _ _ _ hg hrest =>
      exact .token (g := c :: g) (List.forall_mem_cons.mpr ⟨hc, hg⟩) hrest

theorem Spaced.mem {c : Char} (h : Spaced tokens text) (htoken : token ∈ tokens)
    (hc : c ∈ token) : c ∈ text := by
  induction h with
  | done _ => cases htoken
  | token _ _ ih =>
      rw [List.mem_append, List.mem_append]
      rcases List.mem_cons.mp htoken with rfl | hlater
      · exact .inr (.inl hc)
      · exact .inr (.inr (ih hlater))

theorem Spaced.not_mem {c : Char} (h : Spaced tokens text) (hgap : isGap c = false)
    (htokens : ∀ token ∈ tokens, c ∉ token) : c ∉ text := by
  induction h with
  | done hg => exact not_mem_of_class hg hgap
  | token hg _ ih =>
      obtain ⟨htoken, hlater⟩ := List.forall_mem_cons.mp htokens
      rw [List.mem_append, List.mem_append, not_or, not_or]
      exact ⟨not_mem_of_class hg hgap, htoken, ih hlater⟩

/-- The text begins outside of a class that has neither the gaps nor the beginning of the first
token. -/
theorem Spaced.head {p : Char → Bool} (hgap : ∀ c, isGap c = true → p c = false) {c : Char}
    {cs : List Char} (h : Spaced ((c :: cs) :: tokens) text) (hc : p c = false) :
    ∃ d more, text = d :: more ∧ p d = false := by
  cases h with
  | @token g _ rest _ hg hrest =>
      cases g with
      | nil => exact ⟨c, cs ++ rest, rfl, hc⟩
      | cons d ds => exact ⟨d, ds ++ (c :: cs ++ rest), rfl, hgap d (hg d List.mem_cons_self)⟩

end

theorem not_isNameChar_of_isGap {c : Char} (h : isGap c = true) : isNameChar c = false := by
  rw [Bool.eq_false_iff]
  intro hname
  rw [not_isGap_of_isNameChar hname] at h
  cases h

theorem not_isDigit_of_isGap {c : Char} (h : isGap c = true) : c.isDigit = false := by
  rw [Bool.eq_false_iff]
  intro hdigit
  rw [not_isGap_of_isNameChar (isNameChar_of_isDigit hdigit)] at h
  cases h

theorem not_isBoundChar_of_isGap {c : Char} (h : isGap c = true) : isBoundChar c = false := by
  rw [isBoundChar, h, Bool.or_true, Bool.not_true]

/-! ## Readers of tokens -/

theorem word?_append (word rest : List Char) : word? word (word ++ rest) = some rest := by
  induction word with
  | nil => exact word?_nil rest
  | cons c cs ih => rw [List.cons_append, word?_cons, ih]

theorem eq_append_of_word? {word text rest : List Char} (h : word? word text = some rest) :
    text = word ++ rest :=
  (List.append_eq_of_isPrefixOf?_eq_some h).symm

theorem eq_append_of_run? {p : Char → Bool} {text token rest : List Char}
    (h : run? p text = some (token, rest)) :
    text = token ++ rest ∧ token ≠ [] ∧ ∀ c ∈ token, p c = true := by
  cases text with
  | nil => cases h
  | cons c cs =>
      simp only [run?] at h
      split at h
      · rename_i hc
        cases h
        refine ⟨?_, List.cons_ne_nil _ _, ?_⟩
        · rw [List.cons_append, List.takeWhile_append_dropWhile]
        · intro d hd
          rcases List.mem_cons.mp hd with rfl | hlater
          · exact hc
          · exact List.mem_takeWhile_imp hlater
      · cases h

theorem eq_append_of_name? {text name rest : List Char} (h : name? text = some (name, rest)) :
    text = name ++ rest ∧ IsName name := by
  cases text with
  | nil => cases h
  | cons c cs =>
      simp only [name?] at h
      split at h
      · rename_i hc
        cases h
        refine ⟨?_, hc, ?_⟩
        · rw [List.cons_append, List.takeWhile_append_dropWhile]
        · intro d hd
          exact List.mem_takeWhile_imp hd
      · cases h

theorem eq_append_of_number? {text digits rest : List Char}
    (h : number? text = some (digits, rest)) : text = digits ++ rest ∧ IsNumeral digits := by
  obtain ⟨htext, hne, hchars⟩ := eq_append_of_run? h
  exact ⟨htext, hne, hchars⟩

/-- A loop bound as it may be written: a run of characters without gaps and without the marks of a
loop header. -/
structure IsBound (bound : List Char) : Prop where
  nonempty : bound ≠ []
  chars : ∀ c ∈ bound, isBoundChar c = true

theorem eq_append_of_bound? {text bound rest : List Char}
    (h : bound? text = some (bound, rest)) : text = bound ++ rest ∧ IsBound bound := by
  obtain ⟨htext, hne, hchars⟩ := eq_append_of_run? h
  exact ⟨htext, hne, hchars⟩

theorem IsBound.skip_append {bound : List Char} (h : IsBound bound) (suffix : List Char) :
    skip (bound ++ suffix) = bound ++ suffix := by
  cases bound with
  | nil => exact absurd rfl h.nonempty
  | cons c cs =>
      apply skip_token
      rw [Bool.eq_false_iff]
      intro hgap
      have hc := h.chars c List.mem_cons_self
      rw [not_isBoundChar_of_isGap hgap] at hc
      cases hc

theorem IsNumeral.isBound {digits : List Char} (h : IsNumeral digits) : IsBound digits :=
  ⟨h.nonempty, fun c hc => isBoundChar_of_isNameChar (h.isWord.chars c hc)⟩

/-! ## Tokens read in turn

A token without an end of its own ends where the next one begins, outside of its class. -/

section
variable {text rest : List Char} {tokens : List (List Char)}

theorem Spaced.of_word? {word : List Char} (h : word? word (skip text) = some rest)
    (hrest : Spaced tokens rest) : Spaced (word :: tokens) text :=
  .of_skip (eq_append_of_word? h) hrest

theorem Spaced.word? {c : Char} {cs : List Char} (h : Spaced ((c :: cs) :: tokens) text)
    (hc : isGap c = false) :
    ∃ rest, Grammar.word? (c :: cs) (skip text) = some rest ∧ Spaced tokens rest := by
  obtain ⟨rest, hskip, hrest⟩ := h.skip_eq hc
  refine ⟨rest, ?_, hrest⟩
  rw [hskip, ← List.cons_append, word?_append]

/-- A word is not found where another one stands. -/
theorem Spaced.word?_eq_none {c d : Char} {cs : List Char} (h : Spaced ((c :: cs) :: tokens) text)
    (hc : isGap c = false) (hne : d ≠ c) (word : List Char) :
    Grammar.word? (d :: word) (skip text) = none := by
  obtain ⟨rest, hskip, -⟩ := h.skip_eq hc
  rw [hskip, word?_of_ne hne]

theorem Spaced.name? {name : List Char} {c : Char} {cs : List Char}
    (h : Spaced (name :: (c :: cs) :: tokens) text) (hname : IsName name)
    (hc : isNameChar c = false) :
    ∃ rest, Grammar.name? (skip text) = some (name, rest) ∧ Spaced ((c :: cs) :: tokens) rest := by
  cases h with
  | @token g _ rest _ hg hrest =>
      refine ⟨rest, ?_, hrest⟩
      obtain ⟨d, more, rfl, hd⟩ := hrest.head (fun _ => not_isNameChar_of_isGap) hc
      rw [hg.skip_append, hname.isWord.skip_append, hname.name?_append hd]

theorem Spaced.number? {digits : List Char} {c : Char} {cs : List Char}
    (h : Spaced (digits :: (c :: cs) :: tokens) text) (hdigits : IsNumeral digits)
    (hc : c.isDigit = false) :
    ∃ rest, Grammar.number? (skip text) = some (digits, rest) ∧
      Spaced ((c :: cs) :: tokens) rest := by
  cases h with
  | @token g _ rest _ hg hrest =>
      refine ⟨rest, ?_, hrest⟩
      obtain ⟨d, more, rfl, hd⟩ := hrest.head (fun _ => not_isDigit_of_isGap) hc
      rw [hg.skip_append, hdigits.isWord.skip_append, hdigits.number?_append hd]

theorem Spaced.bound? {bound : List Char} {c : Char} {cs : List Char}
    (h : Spaced (bound :: (c :: cs) :: tokens) text) (hbound : IsBound bound)
    (hc : isBoundChar c = false) :
    ∃ rest, Grammar.bound? (skip text) = some (bound, rest) ∧
      Spaced ((c :: cs) :: tokens) rest := by
  cases h with
  | @token g _ rest _ hg hrest =>
      refine ⟨rest, ?_, hrest⟩
      obtain ⟨d, more, rfl, hd⟩ := hrest.head (fun _ => not_isBoundChar_of_isGap) hc
      rw [hg.skip_append, hbound.skip_append]
      exact run?_append hbound.nonempty hbound.chars hd more

end

end Playscript.Script.Grammar
