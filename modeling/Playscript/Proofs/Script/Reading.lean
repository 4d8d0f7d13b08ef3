import Playscript.Proofs.Script.Form
import Playscript.Script.Recognizer
/-! What is recognized in a simple piece of text and in the header of a block. A text is accepted if
and only if it is written with the tokens of its form, with gaps wherever two tokens meet, and its
numbers are within their limits. -/
namespace Playscript.Script

def IsName (name : String) : Prop :=
  Grammar.IsName name.toList

instance : DecidablePred IsName :=
  fun name => inferInstanceAs (Decidable (Grammar.IsName name.toList))

/-! ## Numbers -/

/-- Digits that stand for a signed word of 64 bits. -/
structure Denotes (digits : List Char) (value : Int64) : Prop where
  numeral : Grammar.IsNumeral digits
  value_eq : (Decimal.value digits : Int) = value.toInt

theorem toInt64?_eq_some_iff {digits : List Char} {value : Int64} :
    Decimal.toInt64? digits = some value ↔ (Decimal.value digits : Int) = value.toInt := by
  have hword (hmax : Decimal.value digits ≤ Decimal.maxInt64) :
      (Int64.ofNat (Decimal.value digits)).toInt = Decimal.value digits :=
    Int64.toInt_ofNat_of_lt (Nat.lt_of_le_of_lt hmax (by decide))
  unfold Decimal.toInt64?
  constructor
  · intro h
    split at h
    · rename_i hmax
      cases h
      exact (hword hmax).symm
    · cases h
  · intro h
    have hmax : Decimal.value digits ≤ Decimal.maxInt64 := by
      have hlt := value.toInt_lt
      unfold Decimal.maxInt64
      omega
    rw [if_pos hmax, Option.some.injEq, ← Int64.toInt_inj, hword hmax, h]

theorem number?_eq_ok_iff {digits : List Char} {value : Int64} :
    number? digits = .ok value ↔ (Decimal.value digits : Int) = value.toInt := by
  rw [← toInt64?_eq_some_iff, number?]
  cases Decimal.toInt64? digits with
  | none => exact ⟨nofun, nofun⟩
  | some word => rw [Except.ok.injEq, Option.some.injEq]

theorem bound?_eq_ok_iff {bound : List Char} {value : Int64} (hbound : Grammar.IsBound bound) :
    bound? bound = .ok value ↔ Denotes bound value := by
  have hnumeral : bound.all Char.isDigit = true ↔ Grammar.IsNumeral bound := by
    rw [List.all_eq_true]
    exact ⟨fun h => ⟨hbound.nonempty, h⟩, fun h => h.chars⟩
  by_cases hdigits : bound.all Char.isDigit = true
  · have hread : bound? bound = .ok value ↔ Decimal.toInt64? bound = some value := by
      rw [bound?, if_pos hdigits]
      cases Decimal.toInt64? bound with
      | none => exact ⟨nofun, nofun⟩
      | some word => rw [Except.ok.injEq, Option.some.injEq]
    rw [hread, toInt64?_eq_some_iff]
    exact ⟨fun h => ⟨hnumeral.mp hdigits, h⟩, fun h => h.value_eq⟩
  · rw [bound?, if_neg hdigits]
    exact ⟨nofun, fun h => absurd (hnumeral.mpr h.numeral) hdigits⟩

/-! ## Simple statements -/

/-- The tokens between the parentheses of a call with this argument. -/
inductive Argument.Writes : Option Argument → List (List Char) → Prop
  | nothing : Writes none []
  | named {name : String} : IsName name → Writes (some (.named name)) [name.toList]
  | literal {digits : List Char} {value : Int64} : Denotes digits value →
      Writes (some (.literal value)) [digits]

theorem Argument.writes_iff {argument : Option Argument} {tokens : List (List Char)} :
    Argument.Writes argument tokens ↔ ∃ value : Option Grammar.Value,
      (∀ v ∈ value, v.IsToken) ∧ argument? value = .ok argument ∧
        tokens = value.toList.map Grammar.Value.text := by
  constructor
  · intro h
    cases h with
    | nothing => exact ⟨none, nofun, rfl, rfl⟩
    | @named name hname =>
        refine ⟨some (.name name.toList), ?_, ?_, rfl⟩
        · rintro v ⟨⟩
          exact hname
        · rw [argument?, String.ofList_toList]
    | @literal digits value hdigits =>
        refine ⟨some (.number digits), ?_, ?_, rfl⟩
        · rintro v ⟨⟩
          exact hdigits.numeral
        · rw [argument?, number?_eq_ok_iff.mpr hdigits.value_eq]
          rfl
  · rintro ⟨value, htoken, hread, rfl⟩
    match value, htoken, hread with
    | none, _, hread =>
        cases hread
        exact .nothing
    | some (.name name), htoken, hread =>
        cases hread
        have hname : IsName (String.ofList name) := by
          rw [IsName, String.toList_ofList]
          exact htoken _ rfl
        have hwrites := Argument.Writes.named hname
        rwa [String.toList_ofList] at hwrites
    | some (.number digits), htoken, hread =>
        cases hnumber : number? digits with
        | error reason =>
            rw [argument?, hnumber] at hread
            cases hread
        | ok word =>
            rw [argument?, hnumber] at hread
            cases hread
            exact .literal ⟨htoken _ rfl, number?_eq_ok_iff.mp hnumber⟩

section
variable {allowed : ActionSet} {text : List Char}

/-- A call that is accepted is one of the allowed action with its name, and it has a value exactly
when its action takes one. -/
theorem call?_eq_ok_iff {name : String} {value : Option Grammar.Value} {s : Statement} :
    call? allowed name value = .ok s ↔ ∃ action argument, s = .act action argument ∧
      action ∈ allowed ∧ action.name = name ∧ argument.isSome = action.takesValue ∧
        argument? value = .ok argument := by
  constructor
  · intro h
    unfold call? at h
    split at h
    · cases h
    · rename_i action hfound
      obtain ⟨hnamed, hallowed⟩ := Option.filter_eq_some_iff.mp hfound
      have hname := Action.name_of_ofName? hnamed
      have hmember : action ∈ allowed := of_decide_eq_true hallowed
      cases hargument : argument? value with
      | error reason =>
          rw [hargument] at h
          cases h
      | ok argument =>
          rw [hargument] at h
          -- the call is refused unless it has a value exactly when the action takes one
          cases htakes : action.takesValue <;> cases argument <;>
            simp only [htakes, bind, Except.bind] at h <;> cases h
          · exact ⟨action, none, rfl, hmember, hname, htakes.symm, rfl⟩
          · exact ⟨action, _, rfl, hmember, hname, htakes.symm, rfl⟩
  · rintro ⟨action, argument, rfl, hallowed, rfl, harity, hargument⟩
    have hfound : (Action.ofName? action.name).filter (· ∈ allowed) = some action := by
      simp [Action.ofName?_name, hallowed]
    simp only [call?, hfound, hargument, ← harity]
    cases argument <;> rfl

theorem simple?_assign_iff {name : String} {value : Int64} :
    simple? allowed text = .ok (.assign name value) ↔ ∃ digits, IsName name ∧
      Denotes digits value ∧ Grammar.Spaced [name.toList, ['='], digits, [';']] text := by
  constructor
  · intro h
    unfold simple? at h
    split at h
    · cases h
    · rename_i word digits hsimple
      obtain ⟨⟨hname, hnumeral⟩, hspaced⟩ := Grammar.simple?_eq_some_iff.mp hsimple
      cases hnumber : number? digits with
      | error reason =>
          rw [hnumber] at h
          cases h
      | ok word =>
          rw [hnumber] at h
          cases h
          rw [IsName, String.toList_ofList]
          exact ⟨digits, hname, ⟨hnumeral, number?_eq_ok_iff.mp hnumber⟩, hspaced⟩
    · obtain ⟨action, argument, hact, -⟩ := call?_eq_ok_iff.mp h
      cases hact
  · rintro ⟨digits, hname, hdigits, hspaced⟩
    have hsimple : Grammar.simple? text = some (.assign name.toList digits) :=
      Grammar.simple?_eq_some_iff.mpr ⟨⟨hname, hdigits.numeral⟩, hspaced⟩
    rw [simple?, hsimple]
    simp only [number?_eq_ok_iff.mpr hdigits.value_eq, Except.map, String.ofList_toList]

theorem takesValue_iff {action : Action} :
    action.takesValue = true ↔ action = .setSpeed := by
  cases action <;> decide

theorem isName_name (action : Action) : IsName action.name := by
  cases action <;> decide

theorem simple?_act_iff {action : Action} {argument : Option Argument} :
    simple? allowed text = .ok (.act action argument) ↔
      action ∈ allowed ∧ argument.isSome = action.takesValue ∧
        ∃ inside, Argument.Writes argument inside ∧
          Grammar.Spaced ([action.name.toList, ['(']] ++ inside ++ [[')'], [';']]) text := by
  constructor
  · intro h
    unfold simple? at h
    split at h
    · cases h
    · rename_i word digits _
      cases hnumber : number? digits <;> rw [hnumber] at h <;> cases h
    · rename_i name value hsimple
      obtain ⟨⟨-, hvalue⟩, hspaced⟩ := Grammar.simple?_eq_some_iff.mp hsimple
      obtain ⟨other, inside, hact, hallowed, hname, harity, hargument⟩ := call?_eq_ok_iff.mp h
      cases hact
      refine ⟨hallowed, harity, _, Argument.writes_iff.mpr ⟨value, hvalue, hargument, rfl⟩, ?_⟩
      rw [hname, String.toList_ofList]
      exact hspaced
  · rintro ⟨hallowed, harity, inside, hwrites, hspaced⟩
    obtain ⟨value, hvalue, hargument, rfl⟩ := Argument.writes_iff.mp hwrites
    have hsimple : Grammar.simple? text = some (.call action.name.toList value) :=
      Grammar.simple?_eq_some_iff.mpr ⟨⟨isName_name action, hvalue⟩, hspaced⟩
    rw [simple?, hsimple]
    simp only [String.ofList_toList]
    exact call?_eq_ok_iff.mpr ⟨action, argument, rfl, hallowed, rfl, harity, hargument⟩

theorem simple?_cases {s : Statement} (h : simple? allowed text = .ok s) :
    (∃ name value, s = .assign name value) ∨ ∃ action argument, s = .act action argument := by
  unfold simple? at h
  split at h
  · cases h
  · rename_i word digits _
    cases hnumber : number? digits <;> rw [hnumber] at h <;> cases h
    exact .inl ⟨_, _, rfl⟩
  · obtain ⟨action, argument, hact, -⟩ := call?_eq_ok_iff.mp h
    exact .inr ⟨action, argument, hact⟩

/-! ## Headers of blocks -/

theorem condition?_eq_ok_iff {condition : String} :
    condition? text = .ok condition ↔ IsName condition ∧
      ∃ compared, Grammar.Spaced (Grammar.ifTokens condition.toList compared) text := by
  rw [IsName, ← Grammar.ifHeader?_eq_some_iff, condition?]
  cases Grammar.ifHeader? text with
  | none => exact ⟨nofun, nofun⟩
  | some name =>
      rw [Except.ok.injEq, Option.some.injEq]
      constructor
      · rintro rfl
        rw [String.toList_ofList]
      · rintro rfl
        rw [String.ofList_toList]

/-- The header of a loop over a range: one name for the counter, and bounds that are numbers, in
order and not too far apart. -/
structure Grammar.Header.Counts (h : Grammar.Header) (range : LoopRange) : Prop where
  declared : h.declared = range.counter.toList
  tested : h.tested = range.counter.toList
  stepped : h.stepped = range.counter.toList
  first : Denotes h.first range.first
  stop : Denotes h.stop range.stop
  forward : range.first ≤ range.stop
  short : range.stop.toInt - range.first.toInt ≤ 100

theorem Denotes.nonneg {digits : List Char} {value : Int64} (h : Denotes digits value) :
    0 ≤ value := by
  rw [Int64.le_iff_toInt_le, Int64.toInt_zero, ← h.value_eq]
  exact Int.natCast_nonneg _

theorem loopRange?_eq_ok_iff {h : Grammar.Header} (hlexical : h.IsLexical) {range : LoopRange} :
    loopRange? h = .ok range ↔ h.Counts range := by
  obtain ⟨counter, first, stop⟩ := range
  constructor
  · intro hrange
    unfold loopRange? at hrange
    split at hrange
    · cases hrange
    · rename_i hnames
      simp only [ne_eq, not_or, not_not] at hnames
      cases hfirst : bound? h.first with
      | error fault =>
          rw [hfirst] at hrange
          cases hrange
      | ok a =>
          cases hstop : bound? h.stop with
          | error fault =>
              rw [hfirst, hstop] at hrange
              cases hrange
          | ok b =>
              have ha := (bound?_eq_ok_iff hlexical.first).mp hfirst
              have hb := (bound?_eq_ok_iff hlexical.stop).mp hstop
              rw [hfirst, hstop] at hrange
              simp only [bind, Except.bind] at hrange
              split at hrange
              · cases hrange
              · rename_i hforward
                split at hrange
                · cases hrange
                · rename_i hshort
                  cases hrange
                  have hle := Int64.not_lt.mp hforward
                  have hlength := Int64.le_iff_toInt_le.mp (Int64.not_lt.mp hshort)
                  rw [Int64.toInt_sub_of_le stop first ha.nonneg hle] at hlength
                  have hdeclared := (String.toList_ofList (l := h.declared)).symm
                  exact ⟨hdeclared, hnames.1 ▸ hdeclared, hnames.2 ▸ hdeclared, ha, hb, hle, hlength⟩
  · intro hcounts
    obtain ⟨hdeclared, htested, hstepped, hfirst, hstop, hforward, hshort⟩ := hcounts
    simp only at hdeclared htested hstepped hfirst hstop hforward hshort
    have hbackwards : ¬ stop < first := Int64.not_lt.mpr hforward
    have hlong : ¬ maxIterations < stop - first := by
      rw [Int64.lt_iff_toInt_lt, Int64.toInt_sub_of_le stop first hfirst.nonneg hforward]
      exact Int.not_lt.mpr hshort
    have hnames : ¬ (h.tested ≠ h.declared ∨ h.stepped ≠ h.declared) := by
      rw [hdeclared, htested, hstepped]
      simp
    unfold loopRange?
    rw [if_neg hnames, (bound?_eq_ok_iff hlexical.first).mpr hfirst,
      (bound?_eq_ok_iff hlexical.stop).mpr hstop]
    show (if stop < first then _ else if maxIterations < stop - first then _ else _) = _
    rw [if_neg hbackwards, if_neg hlong, hdeclared, String.ofList_toList]

theorem exists_loopRange?_eq_error_iff {h : Grammar.Header} (hlexical : h.IsLexical) :
    (∃ fault, loopRange? h = .error fault) ↔ ¬ ∃ range, h.Counts range := by
  simp only [← loopRange?_eq_ok_iff hlexical]
  cases loopRange? h with
  | error fault => simp
  | ok range => simp

/-- What is made of the header of a loop, in terms of the tokens it is written with. -/
theorem map_forHeader?_eq_some_iff {result : Except LoopFault LoopRange} :
    (Grammar.forHeader? text).map loopRange? = some result ↔
      ∃ h gap, Grammar.Header.IsLexical h ∧ Grammar.isGap gap = true ∧
        Grammar.Spaced (h.tokens gap) text ∧ loopRange? h = result := by
  simp only [Option.map_eq_some_iff, Grammar.forHeader?_eq_some_iff]
  constructor
  · rintro ⟨h, ⟨hlexical, gap, hgap, hspaced⟩, hresult⟩
    exact ⟨h, gap, hlexical, hgap, hspaced, hresult⟩
  · rintro ⟨h, gap, hlexical, hgap, hspaced, hresult⟩
    exact ⟨h, ⟨hlexical, gap, hgap, hspaced⟩, hresult⟩

end

/-- The readers of statements accept exactly their grammar. A simple piece of text is an assignment
or a call of an allowed action, which has a value exactly when it sets the speed; the header of a
conditional is a name, which may be compared with `true`; the header of a loop counts a range of at
most a hundred values, and one that has the form and counts no such range is malformed. -/
theorem accepted_texts (allowed : ActionSet) (text : List Char) :
    (∀ name value, simple? allowed text = .ok (.assign name value) ↔
      ∃ digits, IsName name ∧ Denotes digits value ∧
        Grammar.Spaced [name.toList, ['='], digits, [';']] text) ∧
    (∀ action argument, simple? allowed text = .ok (.act action argument) ↔
      action ∈ allowed ∧ (argument.isSome = true ↔ action = .setSpeed) ∧
        ∃ inside, Argument.Writes argument inside ∧
          Grammar.Spaced ([action.name.toList, ['(']] ++ inside ++ [[')'], [';']]) text) ∧
    (∀ s, simple? allowed text = .ok s →
      (∃ name value, s = .assign name value) ∨ ∃ action argument, s = .act action argument) ∧
    (∀ condition, condition? text = .ok condition ↔ IsName condition ∧
      (Grammar.Spaced [['i', 'f'], ['('], condition.toList, [')']] text ∨
        Grammar.Spaced [['i', 'f'], ['('], condition.toList, ['=', '='], ['t', 'r', 'u', 'e'],
          [')']] text)) ∧
    (∀ range, (Grammar.forHeader? text).map loopRange? = some (.ok range) ↔
      ∃ h gap, Grammar.Header.IsLexical h ∧ Grammar.isGap gap = true ∧
        Grammar.Spaced (h.tokens gap) text ∧ h.Counts range) ∧
    ((∃ fault, (Grammar.forHeader? text).map loopRange? = some (.error fault)) ↔
      ∃ h gap, Grammar.Header.IsLexical h ∧ Grammar.isGap gap = true ∧
        Grammar.Spaced (h.tokens gap) text ∧ ¬ ∃ range, h.Counts range) := by
  refine ⟨fun _ _ => simple?_assign_iff, ?_, fun _ => simple?_cases, ?_, ?_, ?_⟩
  · intro action argument
    rw [simple?_act_iff, ← takesValue_iff, Bool.eq_iff_iff]
  · intro condition
    rw [condition?_eq_ok_iff, Bool.exists_bool]
    rfl
  · intro range
    rw [map_forHeader?_eq_some_iff]
    constructor
    · rintro ⟨h, gap, hlexical, hgap, hspaced, hrange⟩
      exact ⟨h, gap, hlexical, hgap, hspaced, (loopRange?_eq_ok_iff hlexical).mp hrange⟩
    · rintro ⟨h, gap, hlexical, hgap, hspaced, hcounts⟩
      exact ⟨h, gap, hlexical, hgap, hspaced, (loopRange?_eq_ok_iff hlexical).mpr hcounts⟩
  · simp only [map_forHeader?_eq_some_iff]
    constructor
    · rintro ⟨fault, h, gap, hlexical, hgap, hspaced, hfault⟩
      have hnone := (exists_loopRange?_eq_error_iff hlexical).mp ⟨fault, hfault⟩
      exact ⟨h, gap, hlexical, hgap, hspaced, hnone⟩
    · rintro ⟨h, gap, hlexical, hgap, hspaced, hnone⟩
      obtain ⟨fault, hfault⟩ := (exists_loopRange?_eq_error_iff hlexical).mpr hnone
      exact ⟨fault, h, gap, hlexical, hgap, hspaced, hfault⟩

end Playscript.Script
