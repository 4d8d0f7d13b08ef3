import Playscript.Campaign
import Playscript.Session.Operation
/-! The operations of a campaign as data: going from level to level, and playing the level that is
current. -/
namespace Playscript.Campaign

inductive Operation
  | select (kind : Level.Kind)
  | advance
  | restart
  /-- An operation of the session on the current level. -/
  | play (op : Session.Operation)

inductive Reply (α : Type)
  | selected (result : Except SessionError Unit)
  | advanced (result : Except SessionError Progress)
  | restarted (result : Except SessionError Unit)
  | played (reply : Session.Reply α)

variable {α : Type} [Coordinate α]

def perform (c : Campaign α) : Operation → Reply α × Campaign α
  | .select kind => (c.select kind).map .selected id
  | .advance => c.advance.map .advanced id
  | .restart => c.restart.map .restarted id
  | .play op => (c.session.perform op).map .played fun session => { c with session }

def performAll (c : Campaign α) : List Operation → List (Reply α) × Campaign α
  | [] => ([], c)
  | op :: rest =>
      let first := c.perform op
      let later := first.2.performAll rest
      (first.1 :: later.1, later.2)

end Playscript.Campaign
