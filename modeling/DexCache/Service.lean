import DexCache.Interception.Store
import DexCache.Settings.Basic
import DexCache.Text.Blank

/-!
# The service

A cache set up from settings: where its checkpoints and leases are kept, its start, its
refreshes and its end.
-/

namespace DexCache

/-- Where checkpoints are kept. -/
inductive CheckpointPlace where
  | memory
  | database (url : String)
deriving DecidableEq, Repr

namespace Settings

/-- Where the settings say that checkpoints are kept. -/
def checkpointPlace (s : Settings) : Except Failure CheckpointPlace :=
  match s.database.url with
  | none => .ok .memory
  | some url =>
    if (Text.trim url.toList).isEmpty then .error .noDatabaseUrl
    else
      match Network.DatabaseUrl.fault? url with
      | some fault => .error (.databaseUrl fault)
      | none => .ok (.database url)

/-- The leases of a new process; they cannot be shared with others. -/
def leases (s : Settings) : Except Failure LeaseTable :=
  if s.sharedLocks.enabled then .error .noSharedLocks else .ok {}

/-- An empty cache. -/
def cache (s : Settings) : Cache where
  store := .empty s.pairThresholds s.tokenThresholds
  bus := .ofCapacity s.busCapacity

end Settings

/-- A running service. -/
structure Service where
  settings : Settings
  cache : Cache
  /-- Are the tasks running? -/
  refreshing : Bool
deriving Repr

namespace Service

variable [Monad m] (src : Source m)

/-- Starts a service: the cache is populated, and unless that failed the tasks begin. -/
def start (settings : Settings) (now : Int) : m (Except Failure Service) := do
  if settings.metrics.enabled && !Network.isSocketAddress settings.metrics.address then
    return .error (.metricsAddress settings.metrics.address)
  let (report, cache) ← settings.cache.coldStart src settings.readPolicy now
  return .ok { settings, cache, refreshing := report.toOption.isSome }

/-- Runs a task and applies its events. -/
def runTask (s : Service) (task : Task) (now : Int) : m Service := do
  let duration := s.settings.lockTime.toNat * Time.perSecond
  let (_, cache) ← s.cache.runTask src s.settings.readPolicy task duration now
  return { s with cache := (cache.drain now).2 }

/-- Runs every refresh task once and checks readiness. -/
def refreshAll (s : Service) (now : Int) : m Service := do
  if !s.refreshing then return s
  let s ← RefreshTask.all.foldlM (fun s task => s.runTask src (.refresh task) now) s
  return { s with
    cache := { s.cache with monitor := s.cache.monitor.check s.cache.store now } }

/-- What the hooks of requests see. -/
def view (s : Service) (now : Int) : Interception.View :=
  ⟨s.cache.store, s.cache.monitor.status, now⟩

/-- Ends the service: the store is closed. -/
def shutdown (s : Service) : Service :=
  { s with
    cache := { s.cache with store := s.cache.store.close, feed := s.cache.feed.close }
    refreshing := false }

end Service

end DexCache
