import DexCache.Lease
import DexCache.Sync.ColdStart
import DexCache.Sync.Refresh

/-!
# The cache and its tasks

Everything that a running cache holds, and the tasks that run on it under leases: the
refresh tasks, and the one that saves a checkpoint.
-/

namespace DexCache

/-- What a running cache holds. -/
structure Cache where
  store : Store
  monitor : Monitor := {}
  bus : InvalidationBus
  feed : EventFeed := {}
  checkpoints : CheckpointStore := {}
  /-- Does whatever keeps the checkpoints not answer? -/
  checkpointsDown : Bool := false
  leases : LeaseTable := {}
deriving Repr

/-- A task that runs on its own interval. -/
inductive Task where
  | refresh (task : RefreshTask)
  | checkpoint
deriving DecidableEq, Repr, Inhabited

namespace Task

/-- All tasks in order. -/
def all : List Task :=
  RefreshTask.all.map .refresh ++ [.checkpoint]

/-- The name of a task. -/
def name : Task → String
  | .refresh task => task.name
  | .checkpoint => "checkpoint"

/-- The task of this name. -/
def ofName? (name : String) : Option Task :=
  all.find? fun t => t.name = name

end Task

/-- The name under which the runs of a task exclude each other. -/
def taskLock (task : String) : String :=
  "refresh:" ++ task

namespace Cache

/-- The latest checkpoint, if the checkpoints can be reached. -/
def latestCheckpoint? (c : Cache) : Except Failure (Option Checkpoint) :=
  if c.checkpointsDown then .error .checkpointsDown else .ok c.checkpoints.latest?

/-- Saves a checkpoint, if the checkpoints can be reached. -/
def keep (c : Cache) (checkpoint : Checkpoint) : Except Failure CheckpointWrite × Cache :=
  if c.checkpointsDown then (.error .checkpointsDown, c)
  else
    let (outcome, checkpoints) := c.checkpoints.save checkpoint
    (.ok outcome, { c with checkpoints })

/-- Applies an event, and tells which keys it has made stale. -/
def apply (c : Cache) (e : StoreEvent) (now : Int) : List String × Cache :=
  (e.keys, { c with store := e.apply now c.store })

/-- Applies the events that wait in the feed, publishes their keys, and tells which they
were. -/
def drain (c : Cache) (now : Int) : List (List String) × Cache :=
  let (feed, store, bus) := c.feed.drain now c.store c.bus
  (c.feed.waiting.map StoreEvent.keys, { c with feed, store, bus })

variable [Monad m] (src : Source m) (policy : ReadPolicy)

/-- Populates the store; checkpoints that cannot be reached are done without. -/
def coldStart (c : Cache) (now : Int) : m (Except Failure ColdStartReport × Cache) := do
  let checkpoint := c.latestCheckpoint?.toOption.join
  let (report, store, monitor) ←
    DexCache.coldStart src policy checkpoint now c.store c.monitor
  return (report, { c with store, monitor })

/-- Runs a pass of a refresh task. -/
def refresh (c : Cache) (task : RefreshTask) : m (Except Failure RefreshOutcome × Cache) := do
  let (outcome, feed) ← DexCache.refresh src policy task c.store c.feed
  return (outcome, { c with feed })

/-- Saves the content of the store, once it has been populated. -/
def saveCheckpoint (c : Cache) (now : Int) : m (Except Failure CheckpointWrite × Cache) := do
  if !c.store.populated then return (.ok .discarded, c)
  match ← retry policy.retries src.blockNonce with
  | .error e => return (.error e, c)
  | .ok nonce => return c.keep (.capture c.store nonce now)

/-- Does the work of a task. -/
def execute (c : Cache) (task : Task) (now : Int) : m (Except Failure Unit × Cache) := do
  match task with
  | .refresh task =>
    let (outcome, c) ← c.refresh src policy task
    return (outcome.map fun _ => (), c)
  | .checkpoint =>
    let (outcome, c) ← c.saveCheckpoint src policy now
    return (outcome.map fun _ => (), c)

/-- Runs a task under its lease; it does not run while its lease is held.  The lease is
given back however the task ends. -/
def runTask (c : Cache) (task : Task) (duration now : Int) :
    m (Except Failure Bool × Cache) := do
  match c.leases.acquire? (taskLock task.name) duration now with
  | none => return (.ok false, c)
  | some (lease, leases) =>
    let (outcome, c) ← { c with leases }.execute src policy task now
    return (outcome.map fun _ => true, { c with leases := c.leases.release lease })

end Cache

end DexCache
