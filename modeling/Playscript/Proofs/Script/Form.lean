import Playscript.Proofs.Script.Spacing
/-! The forms of statements and of block headers. A reader accepts a text if and only if the text
consists of the tokens of its form, with gaps before, between and after them; so it reads back the
way in which a script is printed. -/
namespace Playscript.Script.Grammar

/-! ## Simple statements -/

def Value.text : Value → List Char
  | .number word => word
  | .name word => word

def Value.IsToken : Value → Prop
  | .number word => IsNumeral word
  | .name word => IsName word

theorem Value.IsToken.isWord {v : Value} (h : v.IsToken) : IsWord v.text := by
  cases v with
  | number word => exact IsNumeral.isWord h
  | name word => exact IsName.isWord h

theorem eq_append_of_value? {text rest : List Char} {v : Value}
    (h : value? text = some (v, rest)) : text = v.text ++ rest ∧ v.IsToken := by
  simp only [value?] at h
  split at h
  · rename_i digits _ hnumber
    cases h
    exact eq_append_of_number? hnumber
  · obtain ⟨⟨name, after⟩, hname, heq⟩ := Option.map_eq_some_iff.mp h
    cases heq
    exact eq_append_of_name? hname

/-- The tokens that a simple statement is written with. -/
def Simple.tokens : Simple → List (List Char)
  | .assign name digits => [name, ['='], digits, [';']]
  | .call name value => [name, ['(']] ++ value.toList.map Value.text ++ [[')'], [';']]

/-- The tokens without a spelling of their own are names and numerals. -/
def Simple.IsLexical : Simple → Prop
  | .assign name digits => IsName name ∧ IsNumeral digits
  | .call name value => IsName name ∧ ∀ v ∈ value, v.IsToken

/-- The name that is assigned or called. -/
def Simple.name : Simple → List Char
  | .assign name _ => name
  | .call name _ => name

theorem Simple.IsLexical.isName {s : Simple} (h : s.IsLexical) : IsName s.name := by
  cases s with
  | assign name digits => exact h.1
  | call name value => exact h.1

/-- Each token is a word or a mark of one of the two forms. -/
theorem Simple.IsLexical.token_cases {s : Simple} (h : s.IsLexical) :
    ∀ token ∈ s.tokens, IsWord token ∨ ∃ mark ∈ ['=', '(', ')', ';'], token = [mark] := by
  have hfirst := h.isName.isWord
  cases s with
  | assign name digits =>
      simp only [tokens, List.forall_mem_cons]
      exact ⟨.inl hfirst, .inr ⟨'=', by decide, rfl⟩, .inl h.2.isWord,
        .inr ⟨';', by decide, rfl⟩, nofun⟩
  | call name value =>
      simp only [tokens, List.forall_mem_append, List.forall_mem_map, List.forall_mem_cons,
        Option.mem_toList]
      exact ⟨⟨⟨.inl hfirst, .inr ⟨'(', by decide, rfl⟩, nofun⟩, fun v hv => .inl (h.2 v hv).isWord⟩,
        .inr ⟨')', by decide, rfl⟩, .inr ⟨';', by decide, rfl⟩, nofun⟩

theorem Simple.IsLexical.not_mem {s : Simple} (h : s.IsLexical) {c : Char}
    (hname : isNameChar c = false) (hmark : c ∉ ['=', '(', ')', ';']) :
    ∀ token ∈ s.tokens, c ∉ token := by
  intro token htoken
  rcases h.token_cases token htoken with hword | ⟨mark, hmem, rfl⟩
  · exact hword.not_mem hname
  · rw [List.mem_singleton]
    rintro rfl
    exact hmark hmem

section
variable {text rest : List Char}

/-- A statement begins with its name, and the name ends there. -/
theorem Simple.IsLexical.begins {s : Simple} (h : s.IsLexical) (hspaced : Spaced s.tokens text) :
    ∃ c more, skip text = s.name ++ c :: more ∧ isNameChar c = false := by
  have hnext : ∃ c tokens, s.tokens = s.name :: [c] :: tokens ∧ isNameChar c = false := by
    cases s with
    | assign name digits => exact ⟨'=', _, rfl, rfl⟩
    | call name value => cases value <;> exact ⟨'(', _, rfl, rfl⟩
  obtain ⟨d, tokens, htokens, hd⟩ := hnext
  rw [htokens] at hspaced
  obtain ⟨rest, hread, hrest⟩ := hspaced.name? h.isName hd
  obtain ⟨c, more, rfl, hc⟩ := hrest.head (fun _ => not_isNameChar_of_isGap) hd
  exact ⟨c, more, (eq_append_of_name? hread).1, hc⟩

theorem Spaced.value? {v : Value} {c : Char} {cs : List Char} {tokens : List (List Char)}
    (h : Spaced (v.text :: (c :: cs) :: tokens) text) (hv : v.IsToken)
    (hc : isNameChar c = false) :
    ∃ rest, Grammar.value? (skip text) = some (v, rest) ∧ Spaced ((c :: cs) :: tokens) rest := by
  cases v with
  | number digits =>
      have hend : c.isDigit = false := by
        rw [Bool.eq_false_iff]
        intro hdigit
        rw [isNameChar_of_isDigit hdigit] at hc
        cases hc
      obtain ⟨rest, hread, hrest⟩ := Spaced.number? h hv hend
      refine ⟨rest, ?_, hrest⟩
      rw [Grammar.value?, hread]
      rfl
  | name name =>
      obtain ⟨rest, hread, hrest⟩ := Spaced.name? h hv hc
      refine ⟨rest, ?_, hrest⟩
      have hname : IsName name := hv
      have hnone : Grammar.number? (skip text) = none := by
        rw [(eq_append_of_name? hread).1]
        exact hname.number?_eq_none rest
      rw [Grammar.value?, hnone, hread]
      rfl

theorem Spaced.assign? {name digits : List Char}
    (h : Spaced (Simple.assign name digits).tokens text) (hname : IsName name)
    (hdigits : IsNumeral digits) :
    ∃ rest, Grammar.assign? (skip text) = some (.assign name digits, rest) ∧
      isDone rest = true := by
  obtain ⟨r₁, hread, h₁⟩ := Spaced.name? h hname rfl
  obtain ⟨r₂, hequals, h₂⟩ := h₁.word? rfl
  obtain ⟨r₃, hvalue, h₃⟩ := h₂.number? hdigits rfl
  obtain ⟨r₄, hend, h₄⟩ := h₃.word? rfl
  refine ⟨r₄, ?_, isDone_iff_spaced.mpr h₄⟩
  simp only [Grammar.assign?, hread, hequals, hvalue, hend, Option.bind_eq_bind, Option.bind_some]
  rfl

/-- A call is no assignment. -/
theorem Spaced.assign?_eq_none {name : List Char} {tokens : List (List Char)}
    (h : Spaced (name :: ['('] :: tokens) text) (hname : IsName name) :
    Grammar.assign? (skip text) = none := by
  obtain ⟨r₁, hread, h₁⟩ := h.name? hname rfl
  have hequals := h₁.word?_eq_none (d := '=') rfl (by decide) []
  simp only [Grammar.assign?, hread, hequals, Option.bind_eq_bind, Option.bind_some,
    Option.bind_none]

theorem Spaced.call? {name : List Char} {value : Option Value}
    (h : Spaced (Simple.call name value).tokens text) (hname : IsName name)
    (hvalue : ∀ v ∈ value, v.IsToken) :
    ∃ rest, Grammar.call? (skip text) = some (.call name value, rest) ∧ isDone rest = true := by
  cases value with
  | none =>
      obtain ⟨r₁, hread, h₁⟩ := Spaced.name? h hname rfl
      obtain ⟨r₂, hopen, h₂⟩ := h₁.word? rfl
      obtain ⟨r₃, hclose, h₃⟩ := h₂.word? rfl
      obtain ⟨r₄, hend, h₄⟩ := h₃.word? rfl
      have hnone : Grammar.value? (skip r₂) = none := by
        obtain ⟨after, hskip, -⟩ := h₂.skip_eq rfl
        rw [hskip]
        rfl
      refine ⟨r₄, ?_, isDone_iff_spaced.mpr h₄⟩
      simp only [Grammar.call?, hread, hopen, hnone, hclose, hend, Option.bind_eq_bind,
        Option.bind_some]
      rfl
  | some v =>
      obtain ⟨r₁, hread, h₁⟩ := Spaced.name? h hname rfl
      obtain ⟨r₂, hopen, h₂⟩ := h₁.word? rfl
      obtain ⟨r₃, hinside, h₃⟩ := h₂.value? (hvalue v rfl) rfl
      obtain ⟨r₄, hclose, h₄⟩ := h₃.word? rfl
      obtain ⟨r₅, hend, h₅⟩ := h₄.word? rfl
      refine ⟨r₅, ?_, isDone_iff_spaced.mpr h₅⟩
      simp only [Grammar.call?, hread, hopen, hinside, hclose, hend, Option.bind_eq_bind,
        Option.bind_some]
      rfl

theorem spaced_of_assign? {s : Simple} (h : assign? (skip text) = some (s, rest))
    (hdone : isDone rest = true) : s.IsLexical ∧ Spaced s.tokens text := by
  simp only [assign?, Option.bind_eq_bind, Option.bind_eq_some_iff] at h
  obtain ⟨⟨name, r₁⟩, hname, r₂, hequals, ⟨digits, r₃⟩, hvalue, r₄, hend, heq⟩ := h
  cases heq
  obtain ⟨hfirst, hlexical⟩ := eq_append_of_name? hname
  obtain ⟨hsecond, hnumeral⟩ := eq_append_of_number? hvalue
  have hlast : Spaced [] rest := isDone_iff_spaced.mp hdone
  have h₂ : Spaced [digits, [';']] r₂ := .of_skip hsecond (.of_word? hend hlast)
  exact ⟨⟨hlexical, hnumeral⟩, .of_skip hfirst (.of_word? hequals h₂)⟩

theorem spaced_of_call? {s : Simple} (h : call? (skip text) = some (s, rest))
    (hdone : isDone rest = true) : s.IsLexical ∧ Spaced s.tokens text := by
  simp only [call?, Option.bind_eq_bind, Option.bind_eq_some_iff] at h
  obtain ⟨⟨name, r₁⟩, hname, r₂, hopen, r₄, hclose, r₅, hend, heq⟩ := h
  cases heq
  obtain ⟨hfirst, hlexical⟩ := eq_append_of_name? hname
  have h₄ : Spaced [[';']] r₄ := .of_word? hend (isDone_iff_spaced.mp hdone)
  cases hvalue : value? (skip r₂) with
  | none =>
      simp only [hvalue] at hclose ⊢
      refine ⟨⟨hlexical, fun v hv => absurd hv (Option.not_mem_none v)⟩, ?_⟩
      exact .of_skip hfirst (.of_word? hopen (.of_word? hclose h₄))
  | some found =>
      obtain ⟨v, r₃⟩ := found
      simp only [hvalue] at hclose ⊢
      obtain ⟨hinside, htoken⟩ := eq_append_of_value? hvalue
      refine ⟨⟨hlexical, fun u hu => Option.mem_some.mp hu ▸ htoken⟩, ?_⟩
      exact .of_skip hfirst (.of_word? hopen (.of_skip hinside (.of_word? hclose h₄)))

/-- A text is read as a simple statement if and only if it is written with its tokens. -/
theorem simple?_eq_some_iff {s : Simple} :
    simple? text = some s ↔ s.IsLexical ∧ Spaced s.tokens text := by
  constructor
  · intro h
    simp only [simple?] at h
    split at h
    · rename_i found rest hread
      split at h
      · rename_i hdone
        cases h
        cases hassign : Grammar.assign? (skip text) with
        | some other =>
            rw [hassign] at hread
            cases hread
            exact spaced_of_assign? hassign hdone
        | none =>
            rw [hassign] at hread
            exact spaced_of_call? hread hdone
      · cases h
    · cases h
  · rintro ⟨hlexical, hspaced⟩
    cases s with
    | assign name digits =>
        obtain ⟨rest, hread, hdone⟩ := hspaced.assign? hlexical.1 hlexical.2
        rw [simple?, hread]
        exact if_pos hdone
    | call name value =>
        obtain ⟨rest, hread, hdone⟩ := hspaced.call? hlexical.1 hlexical.2
        have hother : Grammar.assign? (skip text) = none := by
          cases value with
          | none => exact Spaced.assign?_eq_none hspaced hlexical.1
          | some v => exact Spaced.assign?_eq_none hspaced hlexical.1
        rw [simple?, hother, hread]
        exact if_pos hdone

end

/-! ## Headers of blocks -/

section
variable {text : List Char}

/-- The tokens of the header of a conditional, with or without the comparison. -/
def ifTokens (condition : List Char) (compared : Bool) : List (List Char) :=
  if compared then [['i', 'f'], ['('], condition, ['=', '='], ['t', 'r', 'u', 'e'], [')']]
  else [['i', 'f'], ['('], condition, [')']]

theorem ifHeader?_eq_some_iff {condition : List Char} :
    ifHeader? text = some condition ↔
      IsName condition ∧ ∃ compared, Spaced (ifTokens condition compared) text := by
  constructor
  · intro h
    simp only [ifHeader?, Option.bind_eq_bind, Option.bind_eq_some_iff] at h
    obtain ⟨r₁, hword, r₂, hopen, ⟨name, r₃⟩, hname, r₄, hclose, heq⟩ := h
    split at heq
    · rename_i hdone
      cases heq
      obtain ⟨hfirst, hlexical⟩ := eq_append_of_name? hname
      refine ⟨hlexical, ?_⟩
      have h₄ : Spaced [] r₄ := isDone_iff_spaced.mp hdone
      cases hcompared : isTrue? (skip r₃) with
      | none =>
          rw [hcompared, Option.getD_none] at hclose
          refine ⟨false, ?_⟩
          exact .of_word? hword (.of_word? hopen (.of_skip hfirst (.of_word? hclose h₄)))
      | some after =>
          rw [hcompared, Option.getD_some] at hclose
          simp only [isTrue?, Option.bind_eq_bind, Option.bind_eq_some_iff] at hcompared
          obtain ⟨r, hequals, htrue⟩ := hcompared
          have h₃ : Spaced [['=', '='], ['t', 'r', 'u', 'e'], [')']] r₃ :=
            .of_word? hequals (.of_word? htrue (.of_word? hclose h₄))
          refine ⟨true, ?_⟩
          exact .of_word? hword (.of_word? hopen (.of_skip hfirst h₃))
    · cases heq
  · rintro ⟨hname, compared, h⟩
    cases compared with
    | false =>
        obtain ⟨r₁, hword, h₁⟩ := Spaced.word? h rfl
        obtain ⟨r₂, hopen, h₂⟩ := h₁.word? rfl
        obtain ⟨r₃, hread, h₃⟩ := h₂.name? hname rfl
        obtain ⟨r₄, hclose, h₄⟩ := h₃.word? rfl
        have hnone : isTrue? (skip r₃) = none := by
          rw [isTrue?, h₃.word?_eq_none rfl (by decide)]
          rfl
        simp only [ifHeader?, hword, hopen, hread, hnone, hclose, isDone_iff_spaced.mpr h₄,
          Option.bind_eq_bind, Option.bind_some, Option.getD_none, if_true]
        rfl
    | true =>
        obtain ⟨r₁, hword, h₁⟩ := Spaced.word? h rfl
        obtain ⟨r₂, hopen, h₂⟩ := h₁.word? rfl
        obtain ⟨r₃, hread, h₃⟩ := h₂.name? hname rfl
        obtain ⟨r₄, hequals, h₄⟩ := h₃.word? rfl
        obtain ⟨r₅, htrue, h₅⟩ := h₄.word? rfl
        obtain ⟨r₆, hclose, h₆⟩ := h₅.word? rfl
        have hsome : isTrue? (skip r₃) = some r₅ := by
          rw [isTrue?, hequals]
          exact htrue
        simp only [ifHeader?, hword, hopen, hread, hsome, hclose, isDone_iff_spaced.mpr h₆,
          Option.bind_eq_bind, Option.bind_some, Option.getD_some, if_true]
        rfl

/-- The tokens of a loop header. The word `int` comes with the gap that has to follow it. -/
def Header.tokens (h : Header) (gap : Char) : List (List Char) :=
  [['f', 'o', 'r'], ['('], ['i', 'n', 't', gap], h.declared, ['='], h.first, [';'], h.tested,
    ['<'], h.stop, [';'], h.stepped, ['+', '+'], [')']]

/-- The tokens without a spelling of their own are names and bounds. -/
structure Header.IsLexical (h : Header) : Prop where
  declared : IsName h.declared
  first : IsBound h.first
  tested : IsName h.tested
  stop : IsBound h.stop
  stepped : IsName h.stepped

theorem Spaced.of_intWord? {rest word after : List Char} {tokens : List (List Char)}
    (h : intWord? (skip text) = some rest) (hword : skip rest = word ++ after)
    (hafter : Spaced tokens after) :
    ∃ gap, isGap gap = true ∧ Spaced (['i', 'n', 't', gap] :: word :: tokens) text := by
  unfold intWord? at h
  split at h
  · rename_i c cs hint
    split at h
    · rename_i hc
      cases h
      have hskip : skip text = ['i', 'n', 't'] ++ c :: cs := eq_append_of_word? hint
      refine ⟨c, hc, .of_skip hskip (.of_skip ?_ hafter)⟩
      rw [← hword, ← List.singleton_append, (isGaps_singleton hc).skip_append]
    · cases h
  · cases h

theorem Spaced.intWord? {tokens : List (List Char)} {gap : Char} (hgap : isGap gap = true)
    (h : Spaced (['i', 'n', 't', gap] :: tokens) text) :
    ∃ rest, Grammar.intWord? (skip text) = some rest ∧ Spaced tokens rest := by
  obtain ⟨rest, hskip, hrest⟩ := h.skip_eq rfl
  refine ⟨gap :: rest, ?_, hrest.cons_gap hgap⟩
  rw [hskip]
  exact if_pos hgap

theorem spaced_of_forHeader? {h : Header} (hread : forHeader? text = some h) :
    h.IsLexical ∧ ∃ gap, isGap gap = true ∧ Spaced (h.tokens gap) text := by
  unfold forHeader? at hread
  -- read after read, since all reads together are too much for one call of simp
  obtain ⟨r₁, hfor, hread⟩ := Option.bind_eq_some_iff.mp hread
  obtain ⟨r₂, hopen, hread⟩ := Option.bind_eq_some_iff.mp hread
  obtain ⟨r₃, hint, hread⟩ := Option.bind_eq_some_iff.mp hread
  obtain ⟨⟨declared, r₄⟩, hdeclared, hread⟩ := Option.bind_eq_some_iff.mp hread
  obtain ⟨r₅, hequals, hread⟩ := Option.bind_eq_some_iff.mp hread
  obtain ⟨⟨first, r₆⟩, hfirst, hread⟩ := Option.bind_eq_some_iff.mp hread
  obtain ⟨r₇, hsemicolon, hread⟩ := Option.bind_eq_some_iff.mp hread
  obtain ⟨⟨tested, r₈⟩, htested, hread⟩ := Option.bind_eq_some_iff.mp hread
  obtain ⟨r₉, hless, hread⟩ := Option.bind_eq_some_iff.mp hread
  obtain ⟨⟨stop, r₁₀⟩, hstop, hread⟩ := Option.bind_eq_some_iff.mp hread
  obtain ⟨r₁₁, hagain, hread⟩ := Option.bind_eq_some_iff.mp hread
  obtain ⟨⟨stepped, r₁₂⟩, hstepped, hread⟩ := Option.bind_eq_some_iff.mp hread
  obtain ⟨r₁₃, hplus, hread⟩ := Option.bind_eq_some_iff.mp hread
  obtain ⟨r₁₄, hclose, hread⟩ := Option.bind_eq_some_iff.mp hread
  split at hread
  · rename_i hdone
    cases hread
    obtain ⟨hword₁, hname₁⟩ := eq_append_of_name? hdeclared
    obtain ⟨hword₂, hbound₁⟩ := eq_append_of_bound? hfirst
    obtain ⟨hword₃, hname₂⟩ := eq_append_of_name? htested
    obtain ⟨hword₄, hbound₂⟩ := eq_append_of_bound? hstop
    obtain ⟨hword₅, hname₃⟩ := eq_append_of_name? hstepped
    refine ⟨⟨hname₁, hbound₁, hname₂, hbound₂, hname₃⟩, ?_⟩
    have h₁₄ : Spaced [] r₁₄ := isDone_iff_spaced.mp hdone
    have h₁₁ : Spaced [stepped, ['+', '+'], [')']] r₁₁ :=
      .of_skip hword₅ (.of_word? hplus (.of_word? hclose h₁₄))
    have h₇ := Spaced.of_skip hword₃ (.of_word? hless (.of_skip hword₄ (.of_word? hagain h₁₁)))
    have h₄ := Spaced.of_word? hequals (.of_skip hword₂ (.of_word? hsemicolon h₇))
    obtain ⟨gap, hgap, h₂⟩ := Spaced.of_intWord? hint hword₁ h₄
    exact ⟨gap, hgap, .of_word? hfor (.of_word? hopen h₂)⟩
  · cases hread

theorem forHeader?_of_spaced {h : Header} (hlexical : h.IsLexical) {gap : Char}
    (hgap : isGap gap = true) (hspaced : Spaced (h.tokens gap) text) :
    forHeader? text = some h := by
  unfold forHeader?
  obtain ⟨r₁, hfor, h₁⟩ := Spaced.word? hspaced rfl
  refine Option.bind_eq_some_iff.mpr ⟨r₁, hfor, ?_⟩
  obtain ⟨r₂, hopen, h₂⟩ := h₁.word? rfl
  refine Option.bind_eq_some_iff.mpr ⟨r₂, hopen, ?_⟩
  obtain ⟨r₃, hint, h₃⟩ := h₂.intWord? hgap
  refine Option.bind_eq_some_iff.mpr ⟨r₃, hint, ?_⟩
  obtain ⟨r₄, hdeclared, h₄⟩ := h₃.name? hlexical.declared rfl
  refine Option.bind_eq_some_iff.mpr ⟨(h.declared, r₄), hdeclared, ?_⟩
  obtain ⟨r₅, hequals, h₅⟩ := h₄.word? rfl
  refine Option.bind_eq_some_iff.mpr ⟨r₅, hequals, ?_⟩
  obtain ⟨r₆, hfirst, h₆⟩ := h₅.bound? hlexical.first rfl
  refine Option.bind_eq_some_iff.mpr ⟨(h.first, r₆), hfirst, ?_⟩
  obtain ⟨r₇, hsemicolon, h₇⟩ := h₆.word? rfl
  refine Option.bind_eq_some_iff.mpr ⟨r₇, hsemicolon, ?_⟩
  obtain ⟨r₈, htested, h₈⟩ := h₇.name? hlexical.tested rfl
  refine Option.bind_eq_some_iff.mpr ⟨(h.tested, r₈), htested, ?_⟩
  obtain ⟨r₉, hless, h₉⟩ := h₈.word? rfl
  refine Option.bind_eq_some_iff.mpr ⟨r₉, hless, ?_⟩
  obtain ⟨r₁₀, hstop, h₁₀⟩ := h₉.bound? hlexical.stop rfl
  refine Option.bind_eq_some_iff.mpr ⟨(h.stop, r₁₀), hstop, ?_⟩
  obtain ⟨r₁₁, hagain, h₁₁⟩ := h₁₀.word? rfl
  refine Option.bind_eq_some_iff.mpr ⟨r₁₁, hagain, ?_⟩
  obtain ⟨r₁₂, hstepped, h₁₂⟩ := h₁₁.name? hlexical.stepped rfl
  refine Option.bind_eq_some_iff.mpr ⟨(h.stepped, r₁₂), hstepped, ?_⟩
  obtain ⟨r₁₃, hplus, h₁₃⟩ := h₁₂.word? rfl
  refine Option.bind_eq_some_iff.mpr ⟨r₁₃, hplus, ?_⟩
  obtain ⟨r₁₄, hclose, h₁₄⟩ := h₁₃.word? rfl
  refine Option.bind_eq_some_iff.mpr ⟨r₁₄, hclose, ?_⟩
  exact if_pos (isDone_iff_spaced.mpr h₁₄)

/-- A text is read as a loop header if and only if it is written with its tokens. -/
theorem forHeader?_eq_some_iff {h : Header} :
    forHeader? text = some h ↔
      h.IsLexical ∧ ∃ gap, isGap gap = true ∧ Spaced (h.tokens gap) text :=
  ⟨spaced_of_forHeader?, fun ⟨hlexical, _, hgap, hspaced⟩ =>
    forHeader?_of_spaced hlexical hgap hspaced⟩

end

/-! ## Printed forms -/

theorem spaced_nil : Spaced [] [] :=
  .done isGaps_nil

/-- The token stands after a blank. -/
theorem Spaced.append_blank {rest : List Char} {tokens : List (List Char)} (h : Spaced tokens rest)
    (token : List Char) : Spaced (token :: tokens) (' ' :: (token ++ rest)) :=
  (h.append token).cons_gap rfl

theorem simple?_assign {name digits : List Char} (hname : IsName name)
    (hdigits : IsNumeral digits) :
    simple? (name ++ ' ' :: '=' :: ' ' :: (digits ++ [';'])) = some (.assign name digits) := by
  rw [simple?_eq_some_iff]
  refine ⟨⟨hname, hdigits⟩, Spaced.append ?_ name⟩
  exact (((spaced_nil.append [';']).append_blank digits).append_blank ['='])

theorem simple?_call {name : List Char} {value : Option Value} (hname : IsName name)
    (hvalue : ∀ v ∈ value, v.IsToken) :
    simple? (name ++ '(' :: (value.elim [] Value.text ++ [')', ';'])) =
      some (.call name value) := by
  rw [simple?_eq_some_iff]
  refine ⟨⟨hname, hvalue⟩, ?_⟩
  have hend := (spaced_nil.append [';']).append [')']
  cases value with
  | none => exact (hend.append ['(']).append name
  | some v => exact ((hend.append v.text).append ['(']).append name

/-- The header of a conditional as it is printed. -/
def ifHeader (condition : List Char) : List Char :=
  'i' :: 'f' :: ' ' :: '(' :: (condition ++ [')'])

/-- The header of a loop as it is printed. -/
def forHeader (counter first stop : List Char) : List Char :=
  'f' :: 'o' :: 'r' :: ' ' :: '(' :: 'i' :: 'n' :: 't' :: ' ' ::
    (counter ++ ' ' :: '=' :: ' ' ::
      (first ++ ';' :: ' ' ::
        (counter ++ ' ' :: '<' :: ' ' ::
          (stop ++ ';' :: ' ' ::
            (counter ++ ['+', '+', ')'])))))

theorem forHeader_eq (counter first stop : List Char) :
    forHeader counter first stop =
      'f' :: (("or (int ".toList ++ counter ++ " = ".toList ++ first ++ "; ".toList ++ counter ++
        " < ".toList ++ stop ++ "; ".toList ++ counter ++ "++".toList) ++ [')']) := by
  simp [forHeader]

theorem ifHeader?_ifHeader {condition : List Char} (h : IsName condition) :
    ifHeader? (ifHeader condition) = some condition := by
  rw [ifHeader?_eq_some_iff]
  refine ⟨h, false, ?_⟩
  exact (((spaced_nil.append [')']).append condition).append_blank ['(']).append ['i', 'f']

theorem forHeader?_forHeader {counter first stop : List Char} (hcounter : IsName counter)
    (hfirst : IsNumeral first) (hstop : IsNumeral stop) :
    forHeader? (forHeader counter first stop) =
      some ⟨counter, first, counter, stop, counter⟩ := by
  rw [forHeader?_eq_some_iff]
  refine ⟨⟨hcounter, hfirst.isBound, hcounter, hstop.isBound, hcounter⟩, ' ', rfl, ?_⟩
  have hstep := ((spaced_nil.append [')']).append ['+', '+']).append_blank counter
  have htest := (((hstep.append [';']).append_blank stop).append_blank ['<']).append_blank counter
  have hset := (((htest.append [';']).append_blank first).append_blank ['=']).append counter
  exact ((hset.append ['i', 'n', 't', ' ']).append_blank ['(']).append ['f', 'o', 'r']

end Playscript.Script.Grammar
