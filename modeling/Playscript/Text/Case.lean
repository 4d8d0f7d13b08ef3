/-! Letters regardless of case, as far as ASCII words are concerned. -/
namespace Playscript.Text

/-- Lower case as far as it can meet an ASCII word: besides `A` to `Z` only the Kelvin sign has an
ASCII letter as its whole lower case, so every other character is left as it is. -/
def foldChar (c : Char) : Char :=
  if c = '\u212a' then 'k' else c.toLower

/-- The text in lower case, for comparison with ASCII words. -/
def fold (text : String) : String :=
  String.ofList (text.toList.map foldChar)

/-- Two texts that differ at most in the case of ASCII letters. -/
def sameIgnoringCase (a b : String) : Bool :=
  a.toList.map Char.toLower == b.toList.map Char.toLower

end Playscript.Text
