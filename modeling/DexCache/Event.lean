import DexCache.Invalidation
import DexCache.Store.Basic

/-!
# Store events

While the cache runs, the store is written by events only: whole snapshots and patches.
Events wait in a feed; applying one tells which cache keys it has made stale.  A feed that
was closed takes no more events, but what it holds is still applied.
-/

namespace DexCache

/-- A write to the store. -/
inductive StoreEvent where
  | putPair (pair : Pair)
  | putToken (token : Token)
  | patchPair (address : String) (patch : PairPatch)
  | patchToken (identifier : String) (patch : TokenPatch)
deriving DecidableEq, Repr

namespace StoreEvent

/-- The keys of all groups of an entity. -/
def allKeys (G : Type) [FieldGroup G] (kind : EntityKind) (name : String) : List String :=
  (FieldGroup.all (G := G)).map fun g => groupKey kind name (FieldGroup.name g)

/-- The cache keys that an event makes stale. -/
def keys : StoreEvent → List String
  | .putPair p => allKeys PairGroup .pair p.address
  | .putToken t => allKeys TokenGroup .token t.identifier
  | .patchPair address p => [groupKey .pair address (FieldGroup.name p.group)]
  | .patchToken identifier p => [groupKey .token identifier (FieldGroup.name p.group)]

/-- The store after an event. -/
def apply (e : StoreEvent) (now : Int) (s : Store) : Store :=
  match e with
  | .putPair p => { s with pairs := s.pairs.put p now }
  | .putToken t => { s with tokens := s.tokens.put t now }
  | .patchPair address p => { s with pairs := s.pairs.patch address p now }
  | .patchToken identifier p => { s with tokens := s.tokens.patch identifier p now }

end StoreEvent

/-- Events on their way to the store. -/
structure EventFeed where
  waiting : List StoreEvent := []
  isOpen : Bool := true
deriving DecidableEq, Repr, Inhabited

namespace EventFeed

/-- Sends an event; a closed feed refuses it. -/
def send? (f : EventFeed) (e : StoreEvent) : Option EventFeed :=
  if f.isOpen then some { f with waiting := f.waiting ++ [e] } else none

/-- Closes the feed; what is waiting stays. -/
def close (f : EventFeed) : EventFeed :=
  { f with isOpen := false }

/-- Closes the feed and forgets what is waiting. -/
def drop (_ : EventFeed) : EventFeed :=
  { waiting := [], isOpen := false }

/-- Applies an event and publishes its keys. -/
def applyOne (now : Int) (state : Store × InvalidationBus) (e : StoreEvent) :
    Store × InvalidationBus :=
  (e.apply now state.1, (state.2.publish e.keys).2)

/-- Applies everything that is waiting, in order. -/
def drain (f : EventFeed) (now : Int) (s : Store) (b : InvalidationBus) :
    EventFeed × Store × InvalidationBus :=
  ({ f with waiting := [] }, f.waiting.foldl (applyOne now) (s, b))

end EventFeed

end DexCache
