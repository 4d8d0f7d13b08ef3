import Playscript.Text.Blank
import Playscript.Text.Case
/-! The five kinds of levels and the words by which they are chosen. -/
namespace Playscript.Level

inductive Kind
  | commands
  | variables
  | conditionals
  | loops
  | freeRoam
deriving DecidableEq, Repr, Inhabited

namespace Kind

def all : List Kind :=
  [.commands, .variables, .conditionals, .loops, .freeRoam]

theorem mem_all (k : Kind) : k ∈ all := by
  cases k <;> decide

def slug : Kind → String
  | .commands => "commands"
  | .variables => "variables"
  | .conditionals => "conditionals"
  | .loops => "loops"
  | .freeRoam => "free-roam"

/-- The kind whose slug is exactly this word. -/
def ofExactSlug? (word : String) : Option Kind :=
  all.find? fun k => k.slug == word

/-- The kind whose slug this is, in any case and between blanks. -/
def ofSlug? (word : String) : Option Kind :=
  ofExactSlug? (Text.fold (Text.trimmed word))

theorem ofExactSlug?_slug (k : Kind) : ofExactSlug? k.slug = some k := by
  cases k <;> rfl

end Kind

end Playscript.Level
