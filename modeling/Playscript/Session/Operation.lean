import Playscript.Session.Basic
/-! The operations of a session as data: what can be asked of a session, and what it answers. -/
namespace Playscript.Session

inductive Operation
  | begin (source : String)
  | resume (ticket : Ticket)
  | run (source : String)
  | cancel
  | reset
  | advanceClock (elapsed : Duration) (coin : Nat → Bool)
  | subscribe
  | unsubscribe (index : Nat)
  | collect (index : Nat)

inductive Reply (α : Type)
  | begun (result : Except SessionError Ticket)
  | resumed (result : Resumed α)
  | ran (result : Except SessionError (Report α))
  | cancelled (wasActive : Bool)
  | reset (starterCode : String)
  | clock (moves : List (Event α))
  | subscribed (index : Nat)
  | unsubscribed
  | collected (heard : List (Event α))

variable {α : Type} [Coordinate α]

def perform (s : Session α) : Operation → Reply α × Session α
  | .begin source => (s.begin source).map .begun id
  | .resume ticket => (s.resume ticket).map .resumed id
  | .run source => (s.run source).map .ran id
  | .cancel => s.cancel.map .cancelled id
  | .reset => s.reset.map .reset id
  | .advanceClock elapsed coin => (s.advanceClock elapsed coin).map .clock id
  | .subscribe => s.subscribe.map .subscribed id
  | .unsubscribe index => (.unsubscribed, s.unsubscribe index)
  | .collect index => (s.collect index).map .collected id

def performAll (s : Session α) : List Operation → List (Reply α) × Session α
  | [] => ([], s)
  | op :: rest =>
      let first := s.perform op
      let later := first.2.performAll rest
      (first.1 :: later.1, later.2)

end Playscript.Session
