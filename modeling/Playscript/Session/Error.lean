/-! Requests that a session or a campaign refuses. -/
namespace Playscript

inductive SessionError
  | runInProgress
  | runCancelled
  | levelNotCompleted (title : String)
  | unknownLevel (name : String)
  | emptyCatalog
deriving DecidableEq, Repr

def SessionError.message : SessionError → String
  | .runInProgress => "a script is already running"
  | .runCancelled => "the run was cancelled"
  | .levelNotCompleted title => "level '" ++ title ++ "' is not completed yet"
  | .unknownLevel name => "no level matches '" ++ name ++ "'"
  | .emptyCatalog => "the level catalog is empty"

end Playscript
