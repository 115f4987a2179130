import DexCache.Event
import DexCache.Source.Job

/-!
# Refreshing

Each refresh task goes over a list of entities and reads one group of each.  What it has
read becomes events for the store; the store itself stays as it is while the task runs.
-/

namespace DexCache

/-- The tasks that keep the store fresh, one for each group. -/
inductive RefreshTask where
  | pairTokensAndFarms
  | pairInfo
  | pairPrices
  | pairAnalytics
  | tokenMetadata
  | tokenPrices
  | tokenAnalytics
deriving DecidableEq, Repr, Inhabited

namespace RefreshTask

/-- All tasks in order. -/
def all : List RefreshTask :=
  [.pairTokensAndFarms, .pairInfo, .pairPrices, .pairAnalytics, .tokenMetadata, .tokenPrices,
    .tokenAnalytics]

/-- The name of a task. -/
def name : RefreshTask → String
  | .pairTokensAndFarms => "pair_tokens_and_farms"
  | .pairInfo => "pair_info"
  | .pairPrices => "pair_prices"
  | .pairAnalytics => "pair_analytics"
  | .tokenMetadata => "token_metadata"
  | .tokenPrices => "token_prices"
  | .tokenAnalytics => "token_analytics"

end RefreshTask

/-- What a pass of a task has done. -/
structure RefreshOutcome where
  updated : Nat := 0
  failed : Nat := 0
deriving DecidableEq, Repr, Inhabited

namespace EventFeed

/-- Sends the events of a pass and counts.  A feed that refuses an event ends the pass. -/
def sendAll (f : EventFeed) (done : RefreshOutcome) :
    List (Except Failure StoreEvent) → Except Failure RefreshOutcome × EventFeed
  | [] => (.ok done, f)
  | .error _ :: rest => f.sendAll { done with failed := done.failed + 1 } rest
  | .ok e :: rest =>
    match f.send? e with
    | none => (.error .feedClosed, f)
    | some f => f.sendAll { done with updated := done.updated + 1 } rest

end EventFeed

/-- A registered pair under way: its references are read first; if it is not stored, the
rest of it follows. -/
inductive RegisteredJob where
  | refs (job : Single PairRefs)
  | whole (job : Source.PairJob)

namespace RegisteredJob

/-- How many attempts there can still be; all those at the whole pair lie ahead of its
references. -/
def cost (policy : ReadPolicy) : RegisteredJob → Nat
  | refs job => job.cost + (Triple.start (α := PairInfo) (β := PairPrices)
      (γ := PairAnalytics) policy).cost
  | whole job => job.cost

end RegisteredJob

namespace Source

variable [Monad m] (src : Source m) (policy : ReadPolicy)

/-- Attempts to read a whole pair that is to be stored. -/
def newPairTurn (known : String → Option Token) (j : PairJob) :
    m (Turn RegisteredJob (Except Failure StoreEvent) (RegisteredJob.cost policy) (.whole j)) := do
  match ← src.pairTurn known j with
  | .finished result => return .finished (result.map .putPair)
  | .waiting again closer => return .waiting (.whole again) closer

/-- The tokens that a pair may copy when it is stored for the first time. -/
def knownTokens (s : Store) (refs : PairRefs) (identifier : String) : Option Token :=
  if identifier ∈ refs.tokenIds then s.tokens.get? identifier else none

/-- Attempts to read what a registered pair lacks. -/
def registeredTurn (s : Store) : (j : RegisteredJob) →
    m (Turn RegisteredJob (Except Failure StoreEvent) (RegisteredJob.cost policy) j)
  | .whole j => src.newPairTurn policy (knownTokens s j.refs) j
  | .refs j => do
    match ← j.turn src.pairRefs with
    | .finished (.error e) => return .finished (.error e)
    | .waiting again closer => return .waiting (.refs again) (Nat.add_lt_add_right closer _)
    | .finished (.ok refs) =>
      if s.pairs.contains j.id then
        return .finished (.ok (.patchPair j.id (.tokensAndFarms (refs.tokens s.tokens.get?))))
      else
        match ← src.newPairTurn policy (knownTokens s refs) ⟨j.id, refs, .start policy⟩ with
        | .finished result => return .finished result
        | .waiting again closer =>
          return .waiting again (Nat.lt_of_lt_of_le closer (Nat.le_add_left _ _))

/-- Reads one group of each entity and makes events of what was read. -/
def groupPass {α : Type} (read : String → m (Except Failure α)) (event : String → α → StoreEvent)
    (stop : Except Failure StoreEvent → Bool) (ids : List String) :
    m (List (Except Failure StoreEvent)) :=
  let turn (job : Single α) :
      m (Turn (Single α) (Except Failure StoreEvent) Single.cost job) := do
    match ← job.turn read with
    | .finished result => return .finished (result.map (event job.id))
    | .waiting again closer => return .waiting again closer
  Source.stream policy turn stop (Single.start policy ids)

/-- The results of a pass in the order in which its reads finish. -/
def pass (s : Store) (stop : Except Failure StoreEvent → Bool) :
    RefreshTask → m (Except Failure (List (Except Failure StoreEvent)))
  | .pairTokensAndFarms => do
    match ← retry policy.retries src.pairAddresses with
    | .error e => return .error e
    | .ok registry =>
      return .ok (← Source.stream policy (src.registeredTurn policy s) stop
        ((Single.start policy registry).map .refs))
  | .pairInfo =>
    .ok <$> groupPass policy src.pairInfo (fun a v => .patchPair a (.info v)) stop s.pairs.ids
  | .pairPrices =>
    .ok <$> groupPass policy src.pairPrices (fun a v => .patchPair a (.prices v)) stop s.pairs.ids
  | .pairAnalytics =>
    .ok <$> groupPass policy src.pairAnalytics (fun a v => .patchPair a (.analytics v)) stop
      s.pairs.ids
  | .tokenMetadata =>
    .ok <$> groupPass policy src.tokenMetadata (fun t v => .patchToken t (.metadata v)) stop
      s.trackedTokens
  | .tokenPrices =>
    .ok <$> groupPass policy src.tokenPrices (fun t v => .patchToken t (.prices v)) stop
      s.trackedTokens
  | .tokenAnalytics =>
    .ok <$> groupPass policy src.tokenAnalytics (fun t v => .patchToken t (.analytics v)) stop
      s.trackedTokens

end Source

/-- Runs a pass of a task and sends its events.  With the feed closed the first event to be
sent ends the pass. -/
def refresh [Monad m] (src : Source m) (policy : ReadPolicy) (task : RefreshTask) (s : Store)
    (feed : EventFeed) : m (Except Failure RefreshOutcome × EventFeed) := do
  let refused (result : Except Failure StoreEvent) : Bool :=
    !feed.isOpen && result.toOption.isSome
  match ← src.pass policy s refused task with
  | .error e => return (.error e, feed)
  | .ok results => return feed.sendAll {} results

end DexCache
