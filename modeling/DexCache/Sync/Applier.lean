import DexCache.Event

/-!
# The applier among its senders

One applier takes the events of a feed that many may send to, and stops when it is told to or when
nobody is left who could send.  Here all of them take their turns in one system: a state, the moves
that somebody can make in it, and the state after each.  A run is a list of moves, so that a
statement about all runs is one about every order in which they can come.

An event is sent in two moves.  A sender is granted a place of the feed, and then puts the event
there; between the two the feed can be closed, which takes no granted place back.
-/

namespace DexCache

/-- A switch that one side sets and the other watches. -/
structure Switch where
  value : Bool := false
  /-- Was it set since it was looked at? -/
  unseen : Bool := false
  /-- Is there anyone who can set it? -/
  held : Bool := true
deriving DecidableEq, Repr, Inhabited

/-- Where an applier stands: it listens to the feed and to the switch; it no longer listens but has
not closed the feed; it applies what the feed still holds; it has stopped. -/
inductive ApplierPhase where
  | listening
  | leaving
  | draining
  | stopped
deriving DecidableEq, Repr, Inhabited

/-- An applier with the feed, the switch and all that it writes to. -/
structure Applier where
  /-- How many events the feed takes. -/
  capacity : Nat
  feed : EventFeed := {}
  /-- How many there are who can send. -/
  senders : Nat
  /-- How many places of the feed are granted and not filled. -/
  granted : Nat := 0
  switch : Switch := {}
  phase : ApplierPhase := .listening
  store : Store
  bus : InvalidationBus
  /-- The events that were applied, each with the time of this. -/
  applied : List (StoreEvent × Int) := []
deriving Repr

namespace Applier

/-- What somebody can do. -/
inductive Move where
  /-- A sender is copied. -/
  | copySender
  /-- A sender is dropped. -/
  | dropSender
  /-- A sender is granted a place of the feed. -/
  | grant
  /-- An event is put into a granted place: its sender is told that it was sent. -/
  | send (e : StoreEvent)
  /-- An event is not sent: its sender is told that the feed is closed. -/
  | refuse (e : StoreEvent)
  /-- The switch is set. -/
  | set (value : Bool)
  /-- Whoever could set the switch is gone. -/
  | abandon
  /-- The applier takes the next event and applies it. -/
  | apply (now : Int)
  /-- The applier finds the feed empty and nobody left who could send. -/
  | hangUp
  /-- The applier looks at a switch that was set. -/
  | look
  /-- The applier finds that nobody is left who could set the switch. -/
  | giveUp
  /-- The applier closes the feed. -/
  | close
  /-- The applier finds the feed empty and all granted places filled. -/
  | stop
deriving DecidableEq, Repr

namespace Move

/-- The event that a move sends. -/
def sent? : Move → Option StoreEvent
  | .send e => some e
  | _ => none

end Move

/-- An applier that starts to listen, before anything was sent. -/
def start (capacity senders : Nat) (switch : Switch) (s : Store) (b : InvalidationBus) :
    Applier :=
  { capacity := max capacity 1, senders, switch, store := s, bus := b }

/-- The next event is applied. -/
def applyNext (a : Applier) (now : Int) : Option Applier :=
  match a.feed.waiting with
  | [] => none
  | e :: rest =>
    let (store, bus) := EventFeed.applyOne now (a.store, a.bus) e
    some { a with
      feed := { a.feed with waiting := rest }, store, bus, applied := a.applied ++ [(e, now)] }

/-- The state after a move; none where the move cannot be made. -/
def step (a : Applier) : Move → Option Applier
  | .copySender => if 0 < a.senders then some { a with senders := a.senders + 1 } else none
  | .dropSender =>
    -- a granted place is some sender's
    if 1 < a.senders ∨ a.senders = 1 ∧ a.granted = 0 then
      some { a with senders := a.senders - 1 }
    else none
  | .grant =>
    if 0 < a.senders ∧ a.feed.isOpen ∧ a.feed.waiting.length + a.granted < a.capacity then
      some { a with granted := a.granted + 1 }
    else none
  | .send e =>
    if 0 < a.granted then
      some { a with
        granted := a.granted - 1, feed := { a.feed with waiting := a.feed.waiting ++ [e] } }
    else none
  | .refuse _ => if 0 < a.senders ∧ !a.feed.isOpen then some a else none
  | .set value =>
    if a.switch.held then some { a with switch := { a.switch with value, unseen := true } }
    else none
  | .abandon =>
    if a.switch.held then some { a with switch := { a.switch with held := false } } else none
  | .apply now =>
    if a.phase = .listening ∨ a.phase = .draining then a.applyNext now else none
  | .hangUp =>
    if a.phase = .listening ∧ a.senders = 0 ∧ a.feed.waiting = [] then
      some { a with phase := .leaving }
    else none
  | .look =>
    if a.phase = .listening ∧ a.switch.unseen then
      some { a with
        switch := { a.switch with unseen := false }
        phase := if a.switch.value then .leaving else .listening }
    else none
  | .giveUp =>
    if a.phase = .listening ∧ !a.switch.unseen ∧ !a.switch.held then
      some { a with phase := .leaving }
    else none
  | .close =>
    if a.phase = .leaving then some { a with phase := .draining, feed := a.feed.close } else none
  | .stop =>
    if a.phase = .draining ∧ a.feed.waiting = [] ∧ a.granted = 0 then
      some { a with phase := .stopped }
    else none

/-- The state after a run. -/
def run (a : Applier) : List Move → Option Applier
  | [] => some a
  | m :: moves => (a.step m).bind fun a => a.run moves

/-- The events that a run sends, in the order in which the feed gets them. -/
def sent (moves : List Move) : List StoreEvent :=
  moves.filterMap Move.sent?

/-- What the events of a list leave of a store and a bus. -/
def settle (state : Store × InvalidationBus) (events : List (StoreEvent × Int)) :
    Store × InvalidationBus :=
  events.foldl (fun state e => EventFeed.applyOne e.2 state e.1) state

end Applier

end DexCache
