import Playscript.Proofs.Campaign.Journey
import Playscript.Proofs.Session.Hearing
import Playscript.Prompt.Basic
/-! How the prompt passes on what it hears. The prompt is the only listener of the current session.
An event that the session publishes waits with the session until the prompt takes it, with the
prompt until it is put on the page, and there until the page is shown. On the way nothing is lost,
nothing is told twice, and the order stays. -/
namespace Playscript

variable {α : Type}

/-! ## What is published and what is shown -/

def Item.event? : Item α → Option (Event α)
  | .event e => some e
  | _ => none

def Item.isError : Item α → Bool
  | .error _ => true
  | _ => false

/-- No error is among these items. -/
def Faultless (items : List (Item α)) : Prop :=
  ∀ item ∈ items, item.isError = false

def Act.items : Act α → List (Item α)
  | .page items => items
  | _ => []

/-- The events that some acts show. -/
def shownBy (acts : List (Act α)) : List (Event α) :=
  (acts.flatMap Act.items).filterMap Item.event?

theorem shownBy_nil : shownBy ([] : List (Act α)) = [] := rfl

theorem shownBy_append (a b : List (Act α)) : shownBy (a ++ b) = shownBy a ++ shownBy b := by
  rw [shownBy, List.flatMap_append, List.filterMap_append]
  rfl

theorem filterMap_event?_map (events : List (Event α)) :
    (events.map Item.event).filterMap Item.event? = events := by
  rw [List.filterMap_map]
  exact List.filterMap_some

namespace Campaign

variable [Coordinate α]

def Entry.published (e : Entry α) : List (Event α) :=
  e.played?.toList.flatMap Session.Entry.published

/-- All that the sessions of a campaign publish in the course of some operations. -/
def published (c : Campaign α) (ops : List Operation) : List (Event α) :=
  (c.history ops).flatMap Entry.published

theorem published_append (c : Campaign α) (first later : List Operation) :
    c.published (first ++ later) =
      c.published first ++ (c.performAll first).2.published later := by
  rw [published, history_append, List.flatMap_append]
  rfl

theorem published_play (c : Campaign α) (op : Session.Operation) :
    c.published [.play op] = c.session.published op := by
  change (c.session.published op ++ []) ++ [] = _
  rw [List.append_nil, List.append_nil]

end Campaign

namespace Prompt

/-- What the listener of the prompt has heard and the prompt has not taken. -/
def queued (p : Prompt α) : List (Event α) :=
  p.session.listeners[p.listener]?.elim [] Listener.heard

/-- What the player has still to see, in the order in which it comes: first what is on the page. -/
def unshown (p : Prompt α) : List (Event α) :=
  p.items.filterMap Item.event? ++ (p.heard ++ p.queued).filter Event.isShown

/-- The prompt is the one listener of the current session. -/
structure Attends (p : Prompt α) : Prop where
  listener : p.listener = 0
  alone : p.session.listeners = [⟨p.queued, true⟩]

theorem queued_of_alone {p : Prompt α} (hlistener : p.listener = 0) {events : List (Event α)}
    (halone : p.session.listeners = [⟨events, true⟩]) : p.queued = events := by
  rw [queued, hlistener, halone]
  rfl

theorem attends_of_alone {p : Prompt α} (hlistener : p.listener = 0) {events : List (Event α)}
    (halone : p.session.listeners = [⟨events, true⟩]) : p.Attends :=
  ⟨hlistener, by rw [halone, queued_of_alone hlistener halone]⟩

theorem Attends.collect_eq {p : Prompt α} (h : p.Attends) :
    p.session.collect p.listener = (p.queued, { p.session with listeners := [⟨[], true⟩] }) := by
  have hheard : p.session.listeners[p.listener]? = some ⟨p.queued, true⟩ := by
    rw [h.listener, h.alone]
    rfl
  rw [Session.collect, hheard]
  dsimp only
  rw [h.listener, h.alone]
  rfl

/-- What is queued is taken. -/
theorem Attends.gather_eq {p : Prompt α} (h : p.Attends) :
    p.gather = { p.withSession { p.session with listeners := [⟨[], true⟩] } with
      heard := p.heard ++ p.queued } := by
  rw [Prompt.gather, h.collect_eq]

theorem Attends.alone_gather {p : Prompt α} (h : p.Attends) :
    p.gather.session.listeners = [⟨[], true⟩] := by
  rw [h.gather_eq]
  rfl

theorem Attends.queued_gather {p : Prompt α} (h : p.Attends) : p.gather.queued = [] :=
  queued_of_alone (p := p.gather) h.listener h.alone_gather

theorem faultless_drain {p : Prompt α} (h : Faultless p.items) : Faultless p.drain.items := by
  refine List.forall_mem_append.mpr ⟨h, ?_⟩
  intro item hitem
  obtain ⟨e, -, rfl⟩ := List.mem_map.mp hitem
  rfl

/-! ## Nothing is lost -/

variable [Coordinate α]

/-- The prompt comes from one state to another by asking this of its campaign and by these acts.
What is published meanwhile is shown after what was to be shown before, or it is still to be shown.
-/
structure Relays (p : Prompt α) (ops : List Campaign.Operation) (acts : List (Act α))
    (q : Prompt α) : Prop where
  campaign : q.campaign = (p.campaign.performAll ops).2
  attends : q.Attends
  shown : shownBy acts ++ q.unshown =
    p.unshown ++ (p.campaign.published ops).filter Event.isShown

variable {p q r : Prompt α} {ops later : List Campaign.Operation} {acts next : List (Act α)}

theorem Relays.trans (h : p.Relays ops acts q) (hnext : q.Relays later next r) :
    p.Relays (ops ++ later) (acts ++ next) r where
  campaign := by rw [Campaign.performAll_append, ← h.campaign, hnext.campaign]
  attends := hnext.attends
  shown := by
    rw [shownBy_append, List.append_assoc, hnext.shown, ← List.append_assoc, h.shown,
      Campaign.published_append, ← h.campaign, List.filter_append, List.append_assoc]

/-- A step of the prompt on its own, of which no event is shown. -/
theorem Attends.quiet (h : p.Attends) (hcampaign : q.campaign = p.campaign)
    (hlistener : q.listener = p.listener) (hacts : shownBy acts = [])
    (hunshown : q.items.filterMap Item.event? ++ q.heard.filter Event.isShown =
      p.items.filterMap Item.event? ++ p.heard.filter Event.isShown) :
    p.Relays [] acts q := by
  have hqueued : q.queued = p.queued := by rw [queued, session, hcampaign, hlistener]; rfl
  refine ⟨hcampaign, ⟨hlistener.trans h.listener, ?_⟩, ?_⟩
  · rw [hqueued, session, hcampaign]
    exact h.alone
  · rw [hacts, List.nil_append, unshown, unshown, hqueued, List.filter_append, List.filter_append,
      ← List.append_assoc, hunshown, List.append_assoc, Campaign.published, Campaign.history]
    exact (List.append_nil _).symm

theorem Attends.stay (h : p.Attends) : p.Relays [] [] p :=
  h.quiet rfl rfl rfl rfl

theorem Attends.wait (h : p.Attends) (delay : Duration) : p.Relays [] [.wait delay] p :=
  h.quiet rfl rfl rfl rfl

/-- The script, the time of the last tick, what is typed and whether the player has left do not
matter to what is heard. -/
theorem Relays.note (h : p.Relays ops acts q) (script : String) (lastTick : Duration)
    (typed : Option (List String)) (closed : Bool) :
    p.Relays ops acts { q with script, lastTick, typed, closed } :=
  ⟨h.campaign, ⟨h.attends.listener, h.attends.alone⟩, h.shown⟩

theorem Relays.push (h : p.Relays ops acts q) {item : Item α} (hitem : item.event? = none) :
    p.Relays ops acts (q.push item) := by
  have hsame : q.Relays [] [] (q.push item) := by
    refine h.attends.quiet rfl rfl rfl ?_
    rw [Prompt.push, List.filterMap_append, List.filterMap_cons_none hitem, List.filterMap_nil,
      List.append_nil]
  have hboth := h.trans hsame
  rwa [List.append_nil, List.append_nil] at hboth

theorem Attends.play (h : p.Attends) (op : Session.Operation) (hop : op.isOfListeners = false) :
    p.Relays [.play op] [] (p.withSession (p.session.perform op).2) := by
  have hlistener : (p.withSession (p.session.perform op).2).listener = 0 := h.listener
  have halone : (p.withSession (p.session.perform op).2).session.listeners =
      [⟨p.queued ++ p.session.published op, true⟩] := by
    change (p.session.perform op).2.listeners = _
    rw [Session.listeners_perform hop, h.alone]
    rfl
  refine ⟨rfl, attends_of_alone hlistener halone, ?_⟩
  rw [shownBy_nil, List.nil_append, unshown, queued_of_alone hlistener halone,
    ← List.append_assoc _ p.queued, List.filter_append, ← List.append_assoc,
    Campaign.published_play]
  rfl

theorem Attends.gather (h : p.Attends) : p.Relays [.play (.collect p.listener)] [] p.gather where
  campaign := rfl
  attends := attends_of_alone h.listener h.alone_gather
  shown := by
    rw [unshown, h.queued_gather, Campaign.published_play, Session.published_collect,
      List.filter_nil, List.append_nil, List.append_nil, h.gather_eq]
    rfl

theorem Attends.drain (h : p.Attends) : p.Relays [.play (.collect p.listener)] [] p.drain := by
  have hshown : p.gather.Relays [] [] p.drain := by
    refine h.gather.attends.quiet rfl rfl rfl ?_
    rw [Prompt.drain, List.filterMap_append, filterMap_event?_map, List.filter_nil, List.append_nil]
  exact h.gather.trans hshown

theorem Attends.flush (h : p.Attends) : p.Relays [] p.flush.1 p.flush.2 where
  campaign := rfl
  attends := ⟨h.listener, h.alone⟩
  shown := by
    have hpage : shownBy p.flush.1 = p.items.filterMap Item.event? := by
      rw [Prompt.flush, shownBy, List.flatMap_singleton]
      rfl
    rw [hpage, Campaign.published, Campaign.history, List.flatMap_nil, List.filter_nil,
      List.append_nil]
    rfl

theorem Attends.settle (h : p.Attends) :
    p.Relays [.play (.collect p.listener)] p.settle.1 p.settle.2 :=
  h.drain.trans h.drain.attends.flush

end Prompt

end Playscript
