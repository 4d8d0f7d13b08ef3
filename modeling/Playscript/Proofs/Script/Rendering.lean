import Playscript.Proofs.Script.Reading
/-! The statements that a script can hold, the characters they are written in, and what the
recognizer makes of these forms. -/
namespace Playscript.Script

/-! ## Statements that can be written -/

/-- A name, or a number that is written without a sign. -/
def Argument.IsPlain : Argument → Prop
  | .named name => IsName name
  | .literal value => 0 ≤ value

instance : DecidablePred Argument.IsPlain
  | .named name => inferInstanceAs (Decidable (IsName name))
  | .literal value => inferInstanceAs (Decidable (0 ≤ value))

/-- The assignments and calls that can stand in a block. -/
inductive Statement.Flat (allowed : ActionSet) : Statement → Prop
  | assign {name : String} {value : Int64} : IsName name → 0 ≤ value →
      Flat allowed (.assign name value)
  | act {action : Action} {argument : Option Argument} : action ∈ allowed →
      argument.isSome = action.takesValue → (∀ a ∈ argument, a.IsPlain) →
      Flat allowed (.act action argument)

/-- The statements that can stand outside of all blocks. There, an assignment to the name `for` is
taken for the header of a loop when a brace follows further down. -/
inductive Statement.Regular (allowed : ActionSet) : Statement → Prop
  | flat {s : Statement} : s.Flat allowed → (∀ value, s ≠ .assign "for" value) →
      Regular allowed s
  | branch {condition : String} {body : List Statement} : IsName condition →
      (∀ s ∈ body, s.Flat allowed) → Regular allowed (.branch condition body)
  | loop {counter : String} {first stop : Int64} {body : List Statement} : IsName counter →
      0 ≤ first → first ≤ stop → stop.toInt - first.toInt ≤ maxIterations.toInt →
      (∀ s ∈ body, s.Flat allowed) → Regular allowed (.loop counter first stop body)

/-! ## Numbers -/

theorem toList_toString {value : Int64} (h : 0 ≤ value) :
    (toString value).toList = Nat.toDigits 10 value.toNatClampNeg := by
  have hint : value.toInt = (value.toNatClampNeg : Int) := by
    have := Int64.le_iff_toInt_le.mp h
    rw [Int64.toInt_zero] at this
    exact (Int.toNat_of_nonneg this).symm
  have hrepr : toString value = value.toNatClampNeg.repr := by
    show value.toInt.repr = _
    rw [hint]
    rfl
  rw [hrepr, Nat.toList_repr]

theorem isNumeral_toString {value : Int64} (h : 0 ≤ value) :
    Grammar.IsNumeral (toString value).toList := by
  rw [toList_toString h]
  exact ⟨Nat.toDigits_ne_nil, fun c hc => Nat.isDigit_of_mem_toDigits (by decide) (by decide) hc⟩

theorem denotes_toString {value : Int64} (h : 0 ≤ value) :
    Denotes (toString value).toList value := by
  refine ⟨isNumeral_toString h, ?_⟩
  have hvalue : Decimal.value (toString value).toList = value.toNatClampNeg := by
    rw [toList_toString h]
    exact Nat.ofDigitChars_ten_toDigits
  rw [hvalue]
  exact Int.toNat_of_nonneg (Int64.toInt_zero ▸ Int64.le_iff_toInt_le.mp h)

theorem number?_toString {value : Int64} (h : 0 ≤ value) :
    number? (toString value).toList = .ok value :=
  number?_eq_ok_iff.mpr (denotes_toString h).value_eq

/-! ## Characters -/

def Argument.token : Argument → Grammar.Value
  | .named name => .name name.toList
  | .literal value => .number (toString value).toList

theorem Argument.IsPlain.isToken {a : Argument} (h : a.IsPlain) : a.token.IsToken := by
  cases a with
  | named name => exact h
  | literal value => exact isNumeral_toString h

namespace Statement

theorem toList_text_assign (name : String) (value : Int64) :
    (assign name value).text.toList =
      name.toList ++ ' ' :: '=' :: ' ' :: ((toString value).toList ++ [';']) := by
  simp [text]

theorem toList_text_act (action : Action) (argument : Option Argument) :
    (act action argument).text.toList =
      action.name.toList ++ '(' ::
        ((argument.map Argument.token).elim [] Grammar.Value.text ++ [')', ';']) := by
  cases argument with
  | none => simp [text]
  | some a => cases a <;> simp [text, Argument.text, Argument.token, Grammar.Value.text]

/-- What is written between the braces of a block. -/
def inside : List Statement → List Char
  | [] => [' ']
  | s :: rest => ' ' :: (s.text.toList ++ inside rest)

theorem toList_bodyText (body : List Statement) :
    (bodyText body).toList = inside body ++ ['\x7d'] := by
  induction body with
  | nil => simp [bodyText, inside]
  | cons s rest ih => simp [bodyText, inside, ih]

theorem toList_text_branch (condition : String) (body : List Statement) :
    (branch condition body).text.toList =
      (Grammar.ifHeader condition.toList ++ [' ']) ++ '\x7b' :: (inside body ++ ['\x7d']) := by
  simp [text, Grammar.ifHeader, toList_bodyText]

theorem toList_loopHeader (counter : String) (first stop : Int64) :
    (loopHeader counter first stop).toList =
      Grammar.forHeader counter.toList (toString first).toList (toString stop).toList := by
  unfold loopHeader
  generalize toString first = start
  generalize toString stop = stop
  simp [Grammar.forHeader]

theorem toList_text_loop (counter : String) (first stop : Int64) (body : List Statement) :
    (loop counter first stop body).text.toList =
      (Grammar.forHeader counter.toList (toString first).toList (toString stop).toList ++ [' ']) ++
        '\x7b' :: (inside body ++ ['\x7d']) := by
  simp [text, toList_loopHeader, toList_bodyText]

end Statement

theorem Argument.isToken_of_mem {argument : Option Argument} (h : ∀ a ∈ argument, a.IsPlain) :
    ∀ v ∈ argument.map Argument.token, v.IsToken := by
  intro v hv
  obtain ⟨a, ha, rfl⟩ := Option.map_eq_some_iff.mp hv
  exact (h a ha).isToken

def isPlainChar (c : Char) : Bool :=
  Grammar.isNameChar c || [' ', '=', '(', ')', ';', '<', '+'].contains c

theorem not_mem_of_all {text : List Char} {c : Char} (h : text.all isPlainChar = true)
    (hc : isPlainChar c = false) : c ∉ text :=
  Grammar.not_mem_of_class (List.all_eq_true.mp h) hc

theorem all_of_isWord {word : List Char} (h : Grammar.IsWord word) :
    word.all isPlainChar = true := by
  rw [List.all_eq_true]
  intro c hc
  simp [isPlainChar, h.chars c hc]

theorem all_ifHeader {condition : List Char} (h : Grammar.IsName condition) :
    (Grammar.ifHeader condition).all isPlainChar = true := by
  simp only [Grammar.ifHeader, List.all_cons, List.all_append, all_of_isWord h.isWord]
  rfl

theorem all_forHeader {counter first stop : List Char} (hcounter : Grammar.IsName counter)
    (hfirst : Grammar.IsNumeral first) (hstop : Grammar.IsNumeral stop) :
    (Grammar.forHeader counter first stop).all isPlainChar = true := by
  simp only [Grammar.forHeader, List.all_cons, List.all_append, all_of_isWord hcounter.isWord,
    all_of_isWord hfirst.isWord, all_of_isWord hstop.isWord]
  rfl

/-! ## Recognition -/

theorem argument?_token {argument : Option Argument} (h : ∀ a ∈ argument, a.IsPlain) :
    argument? (argument.map Argument.token) = .ok argument := by
  cases argument with
  | none => rfl
  | some a =>
      cases a with
      | named name => simp [argument?, Argument.token]
      | literal value =>
          have hvalue : 0 ≤ value := h _ rfl
          simp [argument?, Argument.token, number?_toString hvalue, Except.map]

/-- A piece of text that ends with its only semicolon, and the statement that it spells. -/
structure Spells (allowed : ActionSet) (piece : List Char) (s : Statement) : Prop where
  chars : piece.all isPlainChar = true
  ends : ∃ line, piece = line ++ [';'] ∧ ';' ∉ line
  starts : Text.trimStart piece = piece
  statement : simple? allowed piece = .ok s

section
variable {allowed : ActionSet}

theorem Spells.ne_nil {piece : List Char} {s : Statement} (h : Spells allowed piece s) :
    piece ≠ [] := by
  obtain ⟨line, rfl, -⟩ := h.ends
  exact List.append_ne_nil_of_right_ne_nil line (List.cons_ne_nil ';' [])

/-- The number may have leading zeros. -/
theorem spells_assign {name digits : List Char} {value : Int64} (hname : Grammar.IsName name)
    (hdigits : Grammar.IsNumeral digits) (hvalue : Decimal.toInt64? digits = some value) :
    Spells allowed (name ++ ' ' :: '=' :: ' ' :: (digits ++ [';']))
      (.assign (String.ofList name) value) where
  chars := by
    simp only [List.all_append, List.all_cons, all_of_isWord hname.isWord,
      all_of_isWord hdigits.isWord]
    rfl
  ends := by
    refine ⟨name ++ ' ' :: '=' :: ' ' :: digits, ?_, ?_⟩
    · simp only [List.append_assoc, List.cons_append]
    · simp only [List.mem_append, List.mem_cons, hname.isWord.not_mem (c := ';') rfl,
        hdigits.isWord.not_mem (c := ';') rfl, or_false, false_or]
      decide
  starts := hname.isWord.trimStart_append _
  statement := by
    rw [simple?, Grammar.simple?_assign hname hdigits]
    simp only [number?, hvalue, Except.map]

theorem spells_call {action : Action} (value : Option Grammar.Value) {argument : Option Argument}
    (hallowed : action ∈ allowed) (harity : argument.isSome = action.takesValue)
    (hvalue : ∀ v ∈ value, v.IsToken) (hargument : argument? value = .ok argument) :
    Spells allowed (action.name.toList ++ '(' :: (value.elim [] Grammar.Value.text ++ [')', ';']))
      (.act action argument) where
  chars := by
    have hname := all_of_isWord (Grammar.IsName.isWord (isName_name action))
    have hown : (value.elim [] Grammar.Value.text).all isPlainChar = true := by
      cases value with
      | none => rfl
      | some v => exact all_of_isWord (hvalue v rfl).isWord
    simp only [List.all_append, List.all_cons, hname, hown]
    rfl
  ends := by
    have hname := (Grammar.IsName.isWord (isName_name action)).not_mem (c := ';') rfl
    have hown : ';' ∉ value.elim [] Grammar.Value.text := by
      cases value with
      | none => exact List.not_mem_nil
      | some v => exact (hvalue v rfl).isWord.not_mem rfl
    refine ⟨action.name.toList ++ '(' :: (value.elim [] Grammar.Value.text ++ [')']), ?_, ?_⟩
    · simp only [List.append_assoc, List.cons_append, List.nil_append]
    · simp only [List.mem_append, List.mem_cons, hname, hown, List.not_mem_nil, or_false, false_or]
      decide
  starts := (Grammar.IsName.isWord (isName_name action)).trimStart_append _
  statement := by
    rw [simple?, Grammar.simple?_call (isName_name action) hvalue]
    simp only [String.ofList_toList]
    exact call?_eq_ok_iff.mpr ⟨action, argument, rfl, hallowed, rfl, harity, hargument⟩

theorem Statement.Flat.spells {s : Statement} (h : s.Flat allowed) :
    Spells allowed s.text.toList s := by
  cases h with
  | @assign name value hname hvalue =>
      have hassign : Spells allowed _ (.assign (String.ofList name.toList) value) :=
        spells_assign hname (isNumeral_toString hvalue)
          (toInt64?_eq_some_iff.mpr (denotes_toString hvalue).value_eq)
      rwa [String.ofList_toList, ← toList_text_assign] at hassign
  | @act action argument hallowed harity hargument =>
      rw [toList_text_act]
      exact spells_call _ hallowed harity (Argument.isToken_of_mem hargument)
        (argument?_token hargument)

end

theorem Statement.all_inside {allowed : ActionSet} {body : List Statement}
    (h : ∀ s ∈ body, s.Flat allowed) : (inside body).all isPlainChar = true := by
  induction body with
  | nil => rfl
  | cons s rest ih =>
      have hs := (h s (by simp)).spells.chars
      have hrest := ih fun t ht => h t (by simp [ht])
      simp only [inside, List.all_cons, List.all_append, hs, hrest]
      rfl

theorem condition?_ifHeader {condition : String} (h : IsName condition) :
    condition? (Grammar.ifHeader condition.toList) = .ok condition := by
  simp only [condition?, Grammar.ifHeader?_ifHeader h, String.ofList_toList]

theorem loopRange?_tokens {counter : String} {first stop : Int64} (hcounter : IsName counter)
    (hfirst : 0 ≤ first) (hle : first ≤ stop)
    (hlength : stop.toInt - first.toInt ≤ maxIterations.toInt) :
    loopRange? ⟨counter.toList, (toString first).toList, counter.toList, (toString stop).toList,
      counter.toList⟩ = .ok ⟨counter, first, stop⟩ := by
  have hfrom := denotes_toString hfirst
  have huntil := denotes_toString (Int64.le_trans hfirst hle)
  have hlexical : Grammar.Header.IsLexical ⟨counter.toList, (toString first).toList,
      counter.toList, (toString stop).toList, counter.toList⟩ :=
    ⟨hcounter, hfrom.numeral.isBound, hcounter, huntil.numeral.isBound, hcounter⟩
  exact (loopRange?_eq_ok_iff hlexical).mpr ⟨rfl, rfl, rfl, hfrom, huntil, hle, hlength⟩

end Playscript.Script
