import Playscript.Session.Basic
/-! A campaign: the levels of a catalog in play order, one of them being played. The next level is
open once the current one is completed. -/
namespace Playscript

structure Campaign (α : Type) where
  catalog : Catalog α
  settings : Settings
  /-- The kinds of the levels in play order. -/
  order : List Level.Kind
  current : Nat
  session : Session α
  finished : Bool

/-- Where going on leads. -/
inductive Progress
  | level (kind : Level.Kind)
  | finished
deriving DecidableEq, Repr

namespace Campaign

variable {α : Type}

/-- A new session on the level of a kind. -/
def openLevel (c : Catalog α) (settings : Settings) (kind : Level.Kind) :
    Except SessionError (Session α) :=
  match Stage.ofCatalog? c kind with
  | some stage => .ok (.start stage settings)
  | none => .error (.unknownLevel kind.slug)

def start (c : Catalog α) (settings : Settings) : Except SessionError (Campaign α) :=
  let order := c.ordered.map Level.kind
  match order with
  | [] => .error .emptyCatalog
  | first :: _ => (openLevel c settings first).map fun session =>
      { catalog := c, settings, order, current := 0, session, finished := false }

def currentKind (c : Campaign α) : Level.Kind := c.session.stage.level.kind

/-- Leaves the current level for the one at an index. -/
def enter (c : Campaign α) (index : Nat) : Except SessionError Unit × Campaign α :=
  match c.order[index]? with
  | none => (.error .emptyCatalog, c)
  | some kind =>
      match openLevel c.catalog c.settings kind with
      | .ok session => (.ok (), { c with session, current := index, finished := false })
      | .error e => (.error e, { c with session := c.session.cancel.2 })

def select (c : Campaign α) (kind : Level.Kind) : Except SessionError Unit × Campaign α :=
  match c.order.idxOf? kind with
  | some index => c.enter index
  | none => (.error (.unknownLevel kind.slug), c)

/-- Goes on to the next level, if the current one is completed. -/
def advance (c : Campaign α) : Except SessionError Progress × Campaign α :=
  if c.session.completed then
    if c.current + 1 < c.order.length then
      match c.enter (c.current + 1) with
      | (.ok (), next) => (.ok (.level next.currentKind), next)
      | (.error e, next) => (.error e, next)
    else
      (.ok .finished, { c with finished := true })
  else
    (.error (.levelNotCompleted c.session.stage.level.title), c)

def restart (c : Campaign α) : Except SessionError Unit × Campaign α :=
  c.enter 0

end Campaign

end Playscript
