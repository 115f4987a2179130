import DexCache.Source.Basic

/-!
# A source made of tables

A source that answers from tables and fails on demand: for a kind of read, or for a read
of one entity, it can be told to fail a number of times or always.  It counts the reads.
-/

namespace DexCache

/-- The kinds of reads. -/
inductive ReadKind where
  | pairAddresses
  | blockNonce
  | pairRefs
  | pairInfo
  | pairPrices
  | pairAnalytics
  | tokenMetadata
  | tokenPrices
  | tokenAnalytics
deriving DecidableEq, Repr, Inhabited

/-- The name of a kind of read. -/
def ReadKind.name : ReadKind → String
  | .pairAddresses => "pair_addresses"
  | .blockNonce => "block_nonce"
  | .pairRefs => "pair_token_refs"
  | .pairInfo => "pair_info"
  | .pairPrices => "pair_prices"
  | .pairAnalytics => "pair_analytics"
  | .tokenMetadata => "token_metadata"
  | .tokenPrices => "token_prices"
  | .tokenAnalytics => "token_analytics"

/-- The kinds in order. -/
def ReadKind.all : List ReadKind :=
  [.pairAddresses, .blockNonce, .pairRefs, .pairInfo, .pairPrices, .pairAnalytics,
    .tokenMetadata, .tokenPrices, .tokenAnalytics]

/-- The tables, the failures still to come and the reads so far. -/
structure TableSource where
  pairs : List (String × PairRefs) := []
  nonce : UInt64 := 0
  info : List (String × PairInfo) := []
  prices : List (String × PairPrices) := []
  analytics : List (String × PairAnalytics) := []
  tokenPrices : List (String × TokenPrices) := []
  tokenAnalytics : List (String × TokenAnalytics) := []
  metadata : List (String × TokenMetadata) := []
  /-- How often reads under a key are still to fail; a negative number never ends. -/
  failing : List (String × Int) := []
  calls : List ReadKind := []
deriving Repr, Inhabited

namespace TableSource

/-- Does a read under this key fail?  If it does, it is to fail once less. -/
def fails (t : TableSource) (key : String) : Option TableSource :=
  match t.failing.lookup key with
  | none | some 0 => none
  | some count =>
    some { t with
      failing := t.failing.map fun f =>
        if f.1 = key ∧ 0 < count then (f.1, count - 1) else f }

/-- Counts a read, then fails it or answers it. -/
def answer (kind : ReadKind) (id : String) (value : TableSource → Except Failure α) :
    StateM TableSource (Except Failure α) := fun t =>
  let t := { t with calls := t.calls ++ [kind] }
  let ofEntity := kind.name ++ ":" ++ id
  match t.fails kind.name with
  | some t => (.error (.unavailable kind.name), t)
  | none =>
    match t.fails ofEntity with
    | some t => (.error (.unavailable ofEntity), t)
    | none => (value t, t)

/-- How many reads of a kind there were. -/
def count (t : TableSource) (kind : ReadKind) : Nat :=
  (t.calls.filter fun k => k = kind).length

/-- The value of an entity in a table, empty if it has none. -/
def entry [Inhabited α] (table : List (String × α)) (id : String) : Except Failure α :=
  .ok ((table.lookup id).getD default)

/-- The references of the first pair registered under an address. -/
def refs (t : TableSource) (address : String) : Except Failure PairRefs :=
  match t.pairs.lookup address with
  | some refs => .ok refs
  | none => .error (.unknownPair address)

/-- The reads of the tables. -/
def source : Source (StateM TableSource) where
  pairAddresses := answer .pairAddresses "" fun t => .ok (t.pairs.map Prod.fst)
  blockNonce := answer .blockNonce "" fun t => .ok t.nonce
  pairRefs id := answer .pairRefs id (·.refs id)
  pairInfo id := answer .pairInfo id fun t => entry t.info id
  pairPrices id := answer .pairPrices id fun t => entry t.prices id
  pairAnalytics id := answer .pairAnalytics id fun t => entry t.analytics id
  tokenMetadata id := answer .tokenMetadata id fun t => entry t.metadata id
  tokenPrices id := answer .tokenPrices id fun t => entry t.tokenPrices id
  tokenAnalytics id := answer .tokenAnalytics id fun t => entry t.tokenAnalytics id

end TableSource

end DexCache
