import Playscript.Campaign
import Playscript.Catalog.Builtin
import Playscript.Catalog.Loading
import Playscript.Files
import Playscript.Prompt.Item
/-! Starting the game: its arguments, the files it uses, and its first words. The catalog is the
one asked for, else the one among the data files, else the one that is built in. -/
namespace Playscript

def Settings.ofText? (text : String) : Option Settings :=
  (Document.Toml.parse? text).bind (ofValue? .toml)

/-- The settings in a file, from what reading the file has given; the standard ones if the file
has none. -/
def Settings.load (content : Except String String) : Settings :=
  match content with
  | .ok text => (ofText? text).getD .standard
  | .error _ => .standard

namespace Launch

def version : String := "0.3.0"

def usage : String := "Usage: codequest_engine [--catalog <levels.toml>]"

inductive Request
  | help
  | play (catalog : Option String)
deriving DecidableEq, Repr

inductive Refusal
  | missingPath
  | unexpected (argument : String)
deriving DecidableEq, Repr

def Refusal.message : Refusal → String
  | .missingPath => "--catalog requires a path\n" ++ usage
  | .unexpected argument => "unexpected argument '" ++ argument ++ "'\n" ++ usage

/-- Reads the arguments in order. The last catalog counts; a request for help ends the reading. -/
def Request.read (catalog : Option String) : List String → Except Refusal Request
  | [] => .ok (.play catalog)
  | ["--catalog"] => .error .missingPath
  | "--catalog" :: path :: rest => Request.read (some path) rest
  | "-h" :: _ => .ok .help
  | "--help" :: _ => .ok .help
  | argument :: _ => .error (.unexpected argument)

/-- The directories that may hold the data files, in the order in which they are tried. -/
def dataDirectories : List String :=
  ["codequest_engine/data", "data"]

section

variable {m : Type → Type} [Monad m] (files : Files m)

/-- The first that is a directory, or else the standard one. -/
def dataDirectory : List String → m String
  | [] => pure "codequest_engine/data"
  | directory :: rest => do
      if ← files.isDirectory directory then return directory else dataDirectory rest

def loadCatalog (path : String) : m (Except Catalog.LoadError (Catalog Float)) :=
  return Catalog.load path (← files.read path)

def chooseCatalog (directory : String) (asked : Option String) :
    m (Except Catalog.LoadError (Catalog Float)) :=
  match asked with
  | some path => loadCatalog files path
  | none => do
      let path := Files.entry directory "levels.toml"
      if ← files.isFile path then loadCatalog files path else return .ok .builtin

def loadSettings (directory : String) : m Settings :=
  return Settings.load (← files.read (Files.entry directory "settings.toml"))

/-- The campaign to play, or how the command ends without one. -/
def prepare (directories : List String) (arguments : List String) :
    m (Except Outcome (Campaign Float)) := do
  let failed (f : Failure) : Except Outcome (Campaign Float) := .error ⟨1, "", f.report⟩
  match Request.read none arguments with
  | .error refusal => return failed ⟨refusal.message, []⟩
  | .ok .help => return .error ⟨0, Display.line usage, ""⟩
  | .ok (.play asked) =>
      let directory ← dataDirectory files directories
      match ← chooseCatalog files directory asked with
      | .error e => return failed (e.failure.within "while loading the level catalog")
      | .ok catalog =>
          match Campaign.start catalog (← loadSettings files directory) with
          | .error e => return failed ⟨"while starting the campaign", [e.message]⟩
          | .ok campaign => return .ok campaign

end

def greeting (d : Display) : String :=
  let banner := Text.Style.banner.paint d.colors ("CODEQUEST v" ++ version) (Text.alignCentre 84)
  let tagline := d.style .tagline
    "Write code, run it, and watch your character follow along. Type `help` for commands."
  "\x1b[2J\x1b[H" ++ Display.line banner ++ "\n" ++ Display.line tagline ++ "\n"

end Launch

end Playscript
