import DexCache.Settings.Basic
import DexCache.Text.Lowercase

/-!
# Reading settings

Settings are records inside records.  They are read in one of two manners: strictly, where
scalars have exactly the right type, or loosely, where numbers, texts and truth values stand
for each other and an array may be longer than the record it stands for.
-/

namespace DexCache.Settings

open Json (FieldReader FieldsReader Reader)

/-- How settings are read. -/
structure Manner where
  /-- Are surplus items of an array left out? -/
  dropsSurplus : Bool
  flag : Reader Bool
  text : Reader String
  size : Reader Nat
  word : Reader UInt64
  smallWord : Reader UInt32

/-- Scalars have exactly the right type. -/
def Manner.strict : Manner where
  dropsSurplus := false
  flag := .boolean
  text := .string
  size := .size
  word := .uint64
  smallWord := .uint32

namespace Loose

/-- A text in lower case. -/
def lower (s : String) : String :=
  String.ofList (Text.lowercase s.toList)

/-- The truth value that a word stands for. -/
def word? (s : String) : Option Bool :=
  if lower s ∈ ["true", "on", "yes"] then some true
  else if lower s ∈ ["false", "off", "no"] then some false
  else none

/-- Numbers are true unless they are zero. -/
def flag : Reader Bool := fun v =>
  match v with
  | .bool b => .ok b
  | .int i => .ok (decide (i ≠ 0))
  | .float (.finite _ index) => .ok (decide (index.val ≠ 0))
  | .float _ => .ok true
  | .str s =>
    match word? s with
    | some b => .ok b
    | none =>
      if s = "1" then .ok true else if s = "0" then .ok false else Reader.mismatch v "a boolean"
  | _ => Reader.mismatch v "a boolean"

/-- Every scalar has a text. -/
def text : Reader String := fun v =>
  match v with
  | .bool b => .ok (toString b)
  | .int i => .ok (String.ofList (Decimal.intChars i))
  | .float d => .ok (String.ofList (Decimal.Form.plain.chars d))
  | .str s => .ok s
  | _ => Reader.mismatch v "a string"

/-- The greatest number of 64 bits. -/
def greatest : Nat := 18446744073709551615

/-- Doubles are rounded and cut to the range, truth values are zero and one. -/
def size : Reader Nat := fun v =>
  match v with
  | .bool b => .ok b.toNat
  | .int i =>
    if 0 ≤ i ∧ i ≤ greatest then .ok i.toNat else Reader.mismatch v "an unsigned integer"
  | .float (.finite negative index) =>
    .ok (if negative then 0 else min (Double.nearestNat index) greatest)
  | .float (.infinite negative) => .ok (if negative then 0 else greatest)
  | .float .nan => .ok 0
  | .str s =>
    match word? s, Decimal.unsignedOfChars? s.toList with
    | some b, _ => .ok b.toNat
    | none, some n => if n ≤ greatest then .ok n else Reader.mismatch v "an unsigned integer"
    | none, none => Reader.mismatch v "an unsigned integer"
  | _ => Reader.mismatch v "an unsigned integer"

end Loose

/-- Scalars stand for each other; numbers of 32 bits are cut off above. -/
def Manner.loose : Manner where
  dropsSurplus := true
  flag := Loose.flag
  text := Loose.text
  size := Loose.size
  word v := (Loose.size v).map UInt64.ofNat
  smallWord v := (Loose.size v).map UInt32.ofNat

/-- Reads a record from a table or an array. -/
def Manner.record (m : Manner) (type : String) (fs : FieldsReader α) : Reader α
  | .arr items =>
    let kept := if m.dropsSurplus then items.take fs.names.length else items
    Reader.record type fs false (.arr kept)
  | v => Reader.record type fs false v

variable (as : Manner)

/-- Reads the ages of pair groups. -/
def PairAges.reader : Reader PairAges :=
  let d : PairAges := {}
  as.record "PairThresholds" (FieldsReader.pure PairAges.mk
    |>.andField (.default "tokens_and_farms" as.word d.tokensAndFarms)
    |>.andField (.default "info" as.word d.info)
    |>.andField (.default "prices" as.word d.prices)
    |>.andField (.default "analytics" as.word d.analytics))

/-- Reads the ages of token groups. -/
def TokenAges.reader : Reader TokenAges :=
  let d : TokenAges := {}
  as.record "TokenThresholds" (FieldsReader.pure TokenAges.mk
    |>.andField (.default "metadata" as.word d.metadata)
    |>.andField (.default "prices" as.word d.prices)
    |>.andField (.default "analytics" as.word d.analytics))

/-- Reads what is fresh and how often that is checked. -/
def Freshness.reader : Reader Freshness :=
  let d : Freshness := {}
  as.record "Freshness" (FieldsReader.pure Freshness.mk
    |>.andField (.default "check_interval_seconds" as.word d.checkInterval)
    |>.andField (.default "pair" (PairAges.reader as) d.pair)
    |>.andField (.default "token" (TokenAges.reader as) d.token))

/-- Reads the intervals of tasks. -/
def Intervals.reader : Reader Intervals :=
  let d : Intervals := {}
  as.record "RefreshIntervals" (FieldsReader.pure Intervals.mk
    |>.andField (.default "pair_tokens_and_farms" as.word d.pairTokensAndFarms)
    |>.andField (.default "pair_info" as.word d.pairInfo)
    |>.andField (.default "pair_prices" as.word d.pairPrices)
    |>.andField (.default "pair_analytics" as.word d.pairAnalytics)
    |>.andField (.default "token_metadata" as.word d.tokenMetadata)
    |>.andField (.default "token_prices" as.word d.tokenPrices)
    |>.andField (.default "token_analytics" as.word d.tokenAnalytics)
    |>.andField (.default "checkpoint" as.word d.checkpoint))

/-- Reads how the store is kept up to date. -/
def Sync.reader : Reader Sync :=
  let d : Sync := {}
  as.record "SyncSettings" (FieldsReader.pure Sync.mk
    |>.andField (.default "concurrency" as.size d.concurrency)
    |>.andField (.default "retry_attempts" as.size d.attempts)
    |>.andField (.default "retry_base_delay_ms" as.word d.baseDelay)
    |>.andField (.default "retry_max_delay_ms" as.word d.maxDelay)
    |>.andField (.default "event_channel_capacity" as.size d.feedCapacity)
    |>.andField (.default "lock_ttl_seconds" as.word d.lockTime)
    |>.andField (.default "refresh" (Intervals.reader as) d.refresh))

/-- Reads where requests are forwarded to. -/
def Remote.reader : Reader Remote :=
  let d : Remote := {}
  as.record "Upstream" (FieldsReader.pure Remote.mk
    |>.andField (.default "graphql_url" (.optional as.text) none)
    |>.andField (.default "metadata_api_url" (.optional as.text) none)
    |>.andField (.default "request_timeout_ms" as.word d.timeout))

/-- Reads where checkpoints are kept. -/
def Database.reader : Reader Database :=
  let d : Database := {}
  as.record "Database" (FieldsReader.pure Database.mk
    |>.andField (.default "url" (.optional as.text) none)
    |>.andField (.default "max_connections" as.smallWord d.maxConnections)
    |>.andField (.default "connect_attempts" as.smallWord d.connectAttempts)
    |>.andField (.default "schema" as.text d.schema))

/-- Reads how leases are shared. -/
def SharedLocks.reader : Reader SharedLocks :=
  let d : SharedLocks := {}
  as.record "Redis" (FieldsReader.pure SharedLocks.mk
    |>.andField (.default "enabled" as.flag d.enabled)
    |>.andField (.default "url" as.text d.url)
    |>.andField (.default "key_prefix" as.text d.keyPrefix))

/-- Reads how measurements are offered. -/
def Metrics.reader : Reader Metrics :=
  let d : Metrics := {}
  as.record "Metrics" (FieldsReader.pure Metrics.mk
    |>.andField (.default "enabled" as.flag d.enabled)
    |>.andField (.default "listen_addr" as.text d.address))

/-- Reads a record with a single field that has a default. -/
def single {α : Type} (type name : String) (read : Reader α) (value : α) : Reader α :=
  as.record type (FieldsReader.pure id |>.andField (.default name read value))

/-- Reads settings. -/
def reader : Reader Settings :=
  let d : Settings := {}
  as.record "Settings" (FieldsReader.pure Settings.mk
    |>.andField (.default "freshness" (Freshness.reader as) d.freshness)
    |>.andField (.default "sync" (Sync.reader as) d.sync)
    |>.andField (.default "upstream" (Remote.reader as) d.remote)
    |>.andField (.default "database" (Database.reader as) d.database)
    |>.andField (.default "redis" (SharedLocks.reader as) d.sharedLocks)
    |>.andField (.default "invalidation"
      (single as "Invalidation" "channel_capacity" as.size d.busCapacity) d.busCapacity)
    |>.andField (.default "metrics" (Metrics.reader as) d.metrics)
    |>.andField (.default "log" (single as "LogSettings" "level" as.text d.logLevel) d.logLevel))

end DexCache.Settings
