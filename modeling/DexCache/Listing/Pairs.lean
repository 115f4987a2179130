import DexCache.Entity.Pair
import DexCache.Listing.Catalogue
import DexCache.Text.Search

/-!
# Listings of pairs
-/

namespace DexCache

open Json (FieldReader FieldsReader Reader)

/-- What the pairs of a listing must be like; each field that is given must hold. -/
structure PairFilter where
  addresses : Option (List String) := none
  firstTokenId : Option String := none
  secondTokenId : Option String := none
  issuedLpToken : Option Bool := none
  state : Option (List String) := none
  searchToken : Option String := none
  lpTokenIds : Option (List String) := none
  hasFarms : Option Bool := none
  hasDualFarms : Option Bool := none
  minVolume : Option Amount := none
  minLockedValueUSD : Option Amount := none
  minTradesCount : Option UInt64 := none
  minTradesCount24h : Option UInt64 := none
  minDeployedAt : Option Int64 := none
deriving DecidableEq, Repr, Inhabited

namespace PairFilter

/-- Reads the filter. -/
def reader : Reader PairFilter :=
  .record "PairsFilter" (FieldsReader.pure PairFilter.mk
    |>.andField (.oneOrMany "addresses")
    |>.andField (.optional "firstTokenID" .string)
    |>.andField (.optional "secondTokenID" .string)
    |>.andField (.optional "issuedLpToken" .boolean)
    |>.andField (.oneOrMany "state")
    |>.andField (.optional "searchToken" .string)
    |>.andField (.oneOrMany "lpTokenIds")
    |>.andField (.optional "hasFarms" .boolean)
    |>.andField (.optional "hasDualFarms" .boolean)
    |>.andField (.amount "minVolume")
    |>.andField (.amount "minLockedValueUSD")
    |>.andField (.optional "minTradesCount" .uint64)
    |>.andField (.optional "minTradesCount24h" .uint64)
    |>.andField (.optional "minDeployedAt" .int64)) false

/-- Are the tokens of a pair the ones asked for?  Two tokens may stand in either order, one
must stand on its own side. -/
def sidesMatch (f : PairFilter) (p : Pair) : Bool :=
  match f.firstTokenId, f.secondTokenId with
  | some a, some b =>
    (p.firstTokenId? == some a && p.secondTokenId? == some b) ||
      (p.firstTokenId? == some b && p.secondTokenId? == some a)
  | some a, none => p.firstTokenId? == some a
  | none, some b => p.secondTokenId? == some b
  | none, none => true

/-- The texts of a pair in which a search looks. -/
def searched (p : Pair) : List (Option String) :=
  (p.tokens.firstToken.toList ++ p.tokens.secondToken.toList).flatMap fun t =>
    [some t.identifier, t.metadata.name, t.metadata.ticker]

/-- The predicates in the order of checking. -/
def predicates (f : PairFilter) : List (Pair → Bool) :=
  [fun p => f.addresses.all fun addresses => decide (p.address ∈ addresses),
    f.sidesMatch,
    fun p => f.issuedLpToken.all fun issued => !issued || p.lpTokenId?.isSome,
    fun p => f.lpTokenIds.all fun ids => p.lpTokenId?.any fun id => decide (id ∈ ids),
    fun p => f.state.all fun states => p.info.state.any fun s => decide (s ∈ states),
    fun p => f.searchToken.all fun needle => Text.matchesSearch needle (searched p),
    fun p => f.hasFarms.all fun has => p.tokens.hasFarms.getD false == has,
    fun p => f.hasDualFarms.all fun has => p.tokens.hasDualFarms.getD false == has,
    fun p => f.minVolume.all (Amount.atLeast p.analytics.volumeUSD24h),
    fun p => f.minLockedValueUSD.all (Amount.atLeast p.prices.lockedValueUSD),
    fun p => f.minTradesCount.all fun least => decide (least ≤ p.analytics.tradesCount.getD 0),
    fun p => f.minTradesCount24h.all fun least =>
      decide (least ≤ p.analytics.tradesCount24h.getD 0),
    fun p => f.minDeployedAt.all fun least =>
      p.analytics.deployedAt.any fun time => decide (least ≤ time)]

end PairFilter

/-- The amounts by which pairs are sorted. -/
inductive PairSortKey where
  | deployedAt
  | fees24h
  | tradesCount
  | tradesCount24h
  | lockedValue
  | volume24h
  | apr
deriving DecidableEq, Repr, Inhabited

namespace PairSortKey

/-- The sort key of this name. -/
def ofName? : String → Option PairSortKey
  | "DEPLOYED_AT" => some .deployedAt
  | "FEES_24H" => some .fees24h
  | "TRADES_COUNT" => some .tradesCount
  | "TRADES_COUNT_24H" => some .tradesCount24h
  | "TVL" => some .lockedValue
  | "VOLUME_24H" => some .volume24h
  | "APR" => some .apr
  | _ => none

/-- The amount of a pair under a key. -/
def amount : PairSortKey → Pair → Option Amount
  | .deployedAt, p => p.analytics.deployedAt.map fun t => .ofInt t.toInt
  | .fees24h, p => p.analytics.feesUSD24h.bind Amount.ofText?
  | .tradesCount, p => p.analytics.tradesCount.map fun n => .ofInt n.toNat
  | .tradesCount24h, p => p.analytics.tradesCount24h.map fun n => .ofInt n.toNat
  | .lockedValue, p => p.prices.lockedValueUSD.bind Amount.ofText?
  | .volume24h, p => p.analytics.volumeUSD24h.bind Amount.ofText?
  | .apr, p => p.analytics.feesAPR.bind Amount.ofText?

end PairSortKey

/-- Pair fields that are answered elsewhere. -/
def pairMissingFields : List String :=
  ["feesCollector", "lockedTokensInfo", "whitelistedManagedAddresses",
    "initialLiquidityAdder"]

/-- The listings of pairs. -/
def pairCatalogue : Catalogue Pair PairFilter PairSortKey where
  listings := [
    { name := "pairs", shape := .list, identifierField := "address"
      missingFields := pairMissingFields, sortable := false },
    { name := "filteredPairs", shape := .connection, identifierField := "address"
      missingFields := pairMissingFields, sortable := true }]
  entityType := Schema.pairType
  pageType := Schema.pairsPageType
  toJson := Pair.toJson
  filters := PairFilter.reader
  noFilters := {}
  predicates := PairFilter.predicates
  sortKey? := PairSortKey.ofName?
  keyOf := PairSortKey.amount

end DexCache
