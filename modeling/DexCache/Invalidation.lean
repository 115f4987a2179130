import DexCache.Entity.Basic

/-!
# Invalidation of cached answers

Writes to the store make keys of other caches stale.  Keys are published as events on a
bus that never waits: a subscriber that falls behind by more than the bus's capacity
loses the oldest events and learns how many.
-/

namespace DexCache

/-- The key of one group of an entity. -/
def groupKey (kind : EntityKind) (name group : String) : String :=
  kind.name ++ "." ++ name ++ "." ++ group

/-- The key of an entity. -/
def entityKey (kind : EntityKind) (name : String) : String :=
  kind.name ++ "." ++ name

/-- Keys that have become stale. -/
structure InvalidationEvent where
  keys : List String
deriving DecidableEq, Repr, Inhabited

namespace InvalidationEvent

/-- The JSON object of an event: its only key says what to do. -/
def toJson (e : InvalidationEvent) : Json :=
  .obj [("deleteCacheKeys", .ofStrings e.keys)]

/-- Reads an event. -/
def reader : Json.Reader InvalidationEvent := fun v => do
  let (_, payload) ← Json.Reader.dataVariant ["deleteCacheKeys"] v
  (Json.Reader.list .string payload).map InvalidationEvent.mk

end InvalidationEvent

/-- A bus: the events sent so far, and for each subscriber how many of them it has passed. -/
structure InvalidationBus where
  capacity : Nat
  sent : List InvalidationEvent := []
  positions : List Nat := []
deriving DecidableEq, Repr

/-- What a subscriber finds. -/
inductive Delivery where
  | lagged (missed : Nat)
  | event (event : InvalidationEvent)
deriving DecidableEq, Repr

namespace InvalidationBus

/-- The least power of two that is at least `n`, among the first 64. -/
def powerAbove (n : Nat) : Nat :=
  (((List.range 64).map (Nat.pow 2)).find? fun p => n ≤ p).getD n

/-- A bus that holds at least `capacity` events, and at least one. -/
def ofCapacity (capacity : Nat) : InvalidationBus :=
  { capacity := powerAbove (max capacity 1) }

/-- Adds a subscriber, which sees what is published from now on. -/
def subscribe (b : InvalidationBus) : InvalidationBus :=
  { b with positions := b.positions ++ [b.sent.length] }

/-- Drops the subscriber that came last. -/
def unsubscribe (b : InvalidationBus) : InvalidationBus :=
  { b with positions := b.positions.dropLast }

/-- How many subscribers there are. -/
def subscribers (b : InvalidationBus) : Nat :=
  b.positions.length

/-- Publishes keys, and tells how many subscribers were reached.  No keys, or no
subscribers, and nothing is sent. -/
def publish (b : InvalidationBus) (keys : List String) : Nat × InvalidationBus :=
  if keys.isEmpty || b.positions.isEmpty then (0, b)
  else (b.subscribers, { b with sent := b.sent ++ [⟨keys⟩] })

/-- What a subscriber at a position finds. -/
def pending (b : InvalidationBus) (position : Nat) : List Delivery :=
  let kept := b.sent.length - b.capacity
  let missed := kept - position
  (if missed = 0 then [] else [.lagged missed]) ++
    (b.sent.drop (max position kept)).map .event

/-- Delivers to every subscriber what it has not seen. -/
def deliver (b : InvalidationBus) : List (List Delivery) × InvalidationBus :=
  (b.positions.map b.pending, { b with positions := b.positions.map fun _ => b.sent.length })

end InvalidationBus

end DexCache
