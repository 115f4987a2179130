import DexCache.Source.Job
import DexCache.Store.Stamps
import DexCache.Sync.Cache
import DexCache.Time.Timestamp

/-!
# Settings

How a cache is set up.  Everything has a default.  Ages and intervals are given in seconds,
delays in milliseconds.
-/

namespace DexCache.Settings

/-- The ages up to which the groups of pairs are fresh. -/
structure PairAges where
  tokensAndFarms : UInt64 := 600
  info : UInt64 := 30
  prices : UInt64 := 30
  analytics : UInt64 := 600
deriving DecidableEq, Repr, Inhabited

/-- The ages up to which the groups of tokens are fresh. -/
structure TokenAges where
  metadata : UInt64 := 3600
  prices : UInt64 := 30
  analytics : UInt64 := 600
deriving DecidableEq, Repr, Inhabited

/-- When data are fresh, and how often that is checked. -/
structure Freshness where
  checkInterval : UInt64 := 30
  pair : PairAges := {}
  token : TokenAges := {}
deriving DecidableEq, Repr, Inhabited

/-- The intervals of the tasks. -/
structure Intervals where
  pairTokensAndFarms : UInt64 := 300
  pairInfo : UInt64 := 12
  pairPrices : UInt64 := 12
  pairAnalytics : UInt64 := 300
  tokenMetadata : UInt64 := 1800
  tokenPrices : UInt64 := 12
  tokenAnalytics : UInt64 := 300
  checkpoint : UInt64 := 600
deriving DecidableEq, Repr, Inhabited

/-- How the sources are read. -/
structure Sync where
  concurrency : Nat := 10
  attempts : Nat := 5
  baseDelay : UInt64 := 200
  maxDelay : UInt64 := 10000
  feedCapacity : Nat := 1024
  lockTime : UInt64 := 120
  refresh : Intervals := {}
deriving DecidableEq, Repr, Inhabited

/-- Where queries and metadata requests are sent. -/
structure Remote where
  graphqlUrl : Option String := none
  metadataUrl : Option String := none
  timeout : UInt64 := 10000
deriving DecidableEq, Repr, Inhabited

/-- The database that keeps checkpoints. -/
structure Database where
  url : Option String := none
  maxConnections : UInt32 := 5
  connectAttempts : UInt32 := 10
  schema : String := "dex_mirror"
deriving DecidableEq, Repr, Inhabited

/-- The service that shares leases among processes. -/
structure SharedLocks where
  enabled : Bool := false
  url : String := "redis://localhost:6379"
  keyPrefix : String := "mirror"
deriving DecidableEq, Repr, Inhabited

/-- Where measurements are offered. -/
structure Metrics where
  enabled : Bool := false
  address : String := "0.0.0.0:9090"
deriving DecidableEq, Repr, Inhabited

end Settings

/-- The settings of a cache. -/
structure Settings where
  freshness : Settings.Freshness := {}
  sync : Settings.Sync := {}
  remote : Settings.Remote := {}
  database : Settings.Database := {}
  sharedLocks : Settings.SharedLocks := {}
  busCapacity : Nat := 1024
  metrics : Settings.Metrics := {}
  logLevel : String := "info"
deriving DecidableEq, Repr, Inhabited

namespace Settings

/-- The greatest age in seconds; longer ones are cut to it. -/
def maxAge : Nat := 9223372036854775807 / 1000

/-- An age in nanoseconds. -/
def age (seconds : UInt64) : Int :=
  (min seconds.toNat maxAge : Nat) * Time.perSecond

/-- The thresholds of pairs. -/
def pairThresholds (s : Settings) : Thresholds PairGroup :=
  let ages := s.freshness.pair
  ⟨[(.tokensAndFarms, age ages.tokensAndFarms), (.info, age ages.info),
    (.prices, age ages.prices), (.analytics, age ages.analytics)]⟩

/-- The thresholds of tokens. -/
def tokenThresholds (s : Settings) : Thresholds TokenGroup :=
  let ages := s.freshness.token
  ⟨[(.metadata, age ages.metadata), (.prices, age ages.prices),
    (.analytics, age ages.analytics)]⟩

/-- Seconds between two checks of readiness, at least one. -/
def checkInterval (s : Settings) : UInt64 :=
  max s.freshness.checkInterval 1

/-- Seconds for which a task holds its lease, at least one. -/
def lockTime (s : Settings) : UInt64 :=
  max s.sync.lockTime 1

/-- Seconds between two runs of a task, at least one. -/
def interval (s : Settings) (task : Task) : UInt64 :=
  let intervals := s.sync.refresh
  max 1 (match task with
    | .refresh .pairTokensAndFarms => intervals.pairTokensAndFarms
    | .refresh .pairInfo => intervals.pairInfo
    | .refresh .pairPrices => intervals.pairPrices
    | .refresh .pairAnalytics => intervals.pairAnalytics
    | .refresh .tokenMetadata => intervals.tokenMetadata
    | .refresh .tokenPrices => intervals.tokenPrices
    | .refresh .tokenAnalytics => intervals.tokenAnalytics
    | .checkpoint => intervals.checkpoint)

/-- How reads are made. -/
def readPolicy (s : Settings) : ReadPolicy where
  retries := s.sync.attempts - 1
  width := s.sync.concurrency

end Settings

end DexCache
