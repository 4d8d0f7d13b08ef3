/-! Texts in fields of a fixed width. A text that is wider than its field stays as it is. -/
namespace Playscript.Text

/-- The characters that a text lacks to a width. -/
def lack (width : Nat) (text : String) : Nat :=
  width - text.length

/-- The text at the left end of its field. -/
def alignLeft (width : Nat) (text : String) : String :=
  text.pushn ' ' (lack width text)

/-- The text at the right end of its field, after fill characters. -/
def alignRight (fill : Char) (width : Nat) (text : String) : String :=
  "".pushn fill (lack width text) ++ text

/-- The text in the middle of its field; an odd blank goes to the right. -/
def alignCentre (width : Nat) (text : String) : String :=
  "".pushn ' ' (lack width text / 2) ++
    text.pushn ' ' (lack width text - lack width text / 2)

end Playscript.Text
