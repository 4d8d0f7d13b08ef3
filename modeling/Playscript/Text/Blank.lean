/-! Blank characters and trimming. A character is blank when it has the Unicode property
`White_Space`; trimming removes blanks from the ends of a text and keeps those inside it. -/
namespace Playscript.Text

/-- The Unicode property `White_Space`. -/
def isBlank (c : Char) : Bool :=
  let n := c.toNat
  (0x9 ≤ n && n ≤ 0xD) || n == 0x20 || n == 0x85 || n == 0xA0 || n == 0x1680 ||
    (0x2000 ≤ n && n ≤ 0x200A) || n == 0x2028 || n == 0x2029 || n == 0x202F || n == 0x205F ||
    n == 0x3000

def trimStart (text : List Char) : List Char :=
  text.dropWhile isBlank

def trimEnd (text : List Char) : List Char :=
  (text.reverse.dropWhile isBlank).reverse

def trim (text : List Char) : List Char :=
  trimEnd (trimStart text)

def trimmed (text : String) : String :=
  String.ofList (trim text.toList)

def isBlankText (text : String) : Bool :=
  text.toList.all isBlank

theorem trimStart_eq_nil_iff {text : List Char} :
    trimStart text = [] ↔ ∀ c ∈ text, isBlank c = true := by
  induction text with
  | nil => simp [trimStart]
  | cons c cs ih =>
      by_cases h : isBlank c = true
      · rw [show trimStart (c :: cs) = trimStart cs by simp [trimStart, h]]
        simp [ih, h]
      · simp [trimStart, h]

/-- What is left after trimming the start begins with a character that is not blank. -/
theorem isBlank_head_trimStart {text rest : List Char} {c : Char}
    (h : trimStart text = c :: rest) : isBlank c = false := by
  induction text with
  | nil => simp [trimStart] at h
  | cons d ds ih =>
      by_cases hd : isBlank d = true
      · exact ih (by simpa [trimStart, List.dropWhile_cons, hd] using h)
      · simp only [trimStart, List.dropWhile_cons, hd] at h
        simp only [Bool.false_eq_true, if_false, List.cons.injEq] at h
        simpa [h.1] using hd

theorem length_trimStart_le (text : List Char) : (trimStart text).length ≤ text.length :=
  (List.dropWhile_sublist isBlank).length_le

end Playscript.Text
