import Playscript.Catalog.Document
import Playscript.Catalog.Fault
import Playscript.Document.Toml
import Playscript.Failure
/-! Loading a catalog from a file. A catalog is used only if it has no faults. -/
namespace Playscript

namespace Catalog

inductive LoadError
  | unreadable (path reason : String)
  /-- The file is not TOML, or it does not describe a catalog. -/
  | malformed (path : String)
  | invalid (path : String) (faults : List (Fault Float))

namespace LoadError

def faultList (faults : List (Fault Float)) : String :=
  "level catalog validation failed:\n" ++
    "\n".intercalate (faults.map fun f => "- " ++ f.message)

def failure : LoadError → Failure
  | .unreadable path reason => ⟨"reading level catalog from '" ++ path ++ "'", [reason]⟩
  | .malformed path => ⟨"parsing level catalog from '" ++ path ++ "'", ["TOML parse error"]⟩
  | .invalid path faults => ⟨"validating level catalog '" ++ path ++ "'", [faultList faults]⟩

end LoadError

/-- The catalog that a TOML text describes, with faults or without. -/
def ofText? (text : String) : Option (Catalog Float) :=
  (Document.Toml.parse? text).bind (ofValue? .toml)

def load (path : String) (content : Except String String) : Except LoadError (Catalog Float) :=
  match content with
  | .error reason => .error (.unreadable path reason)
  | .ok text =>
      match ofText? text with
      | none => .error (.malformed path)
      | some c => if c.faults.isEmpty then .ok c else .error (.invalid path c.faults)

end Catalog

end Playscript
