import DexCache.Entity.Token

/-!
# Pairs

A pair's snapshot is an address and four groups of fields, flat in JSON.  It holds copies
of its tokens, which may lag behind the tokens themselves until they are next replaced.
-/

namespace DexCache

/-- The tokens of a pair and where they can be farmed. -/
structure PairTokens where
  firstToken : Option Token := none
  secondToken : Option Token := none
  liquidityPoolToken : Option Token := none
  hasFarms : Option Bool := none
  hasDualFarms : Option Bool := none
  farmAddress : Option String := none
  stakingProxyAddress : Option String := none
deriving DecidableEq, Repr, Inhabited

/-- Reserves and supply. -/
structure PairReserves where
  reserve0 : String
  reserve1 : String
  totalSupply : String
deriving DecidableEq, Repr, Inhabited

/-- The state of a pair and its terms. -/
structure PairInfo where
  info : Option PairReserves := none
  state : Option String := none
  pairType : Option String := none
  totalFeePercent : Option Double := none
  specialFeePercent : Option Double := none
  trustedSwapPairs : Option (List String) := none
deriving DecidableEq, Repr, Inhabited

/-- What the tokens of a pair cost, and what is locked in it. -/
structure PairPrices where
  firstTokenPrice : Option String := none
  secondTokenPrice : Option String := none
  firstTokenPriceUSD : Option String := none
  secondTokenPriceUSD : Option String := none
  liquidityPoolTokenPriceUSD : Option String := none
  lockedValueUSD : Option String := none
deriving DecidableEq, Repr, Inhabited

/-- How much a pair is traded. -/
structure PairAnalytics where
  volumeUSD24h : Option String := none
  previous24hVolumeUSD : Option String := none
  feesUSD24h : Option String := none
  previous24hFeesUSD : Option String := none
  feesAPR : Option String := none
  tradesCount : Option UInt64 := none
  tradesCount24h : Option UInt64 := none
  deployedAt : Option Int64 := none
deriving DecidableEq, Repr, Inhabited

/-- The snapshot of a pair. -/
structure Pair where
  address : String
  tokens : PairTokens := {}
  info : PairInfo := {}
  prices : PairPrices := {}
  analytics : PairAnalytics := {}
deriving DecidableEq, Repr, Inhabited

/-- The groups of a pair's fields. -/
inductive PairGroup where
  | tokensAndFarms
  | analytics
  | info
  | prices
deriving DecidableEq, Repr, Inhabited

instance : FieldGroup PairGroup where
  all := [.tokensAndFarms, .analytics, .info, .prices]
  name
    | .tokensAndFarms => "tokensAndFarms"
    | .analytics => "analytics"
    | .info => "info"
    | .prices => "prices"
  fields
    | .tokensAndFarms =>
      ["firstToken", "secondToken", "liquidityPoolToken", "hasFarms", "hasDualFarms",
        "farmAddress", "stakingProxyAddress"]
    | .analytics =>
      ["volumeUSD24h", "previous24hVolumeUSD", "feesUSD24h", "previous24hFeesUSD", "feesAPR",
        "tradesCount", "tradesCount24h", "deployedAt"]
    | .info =>
      ["info", "state", "type", "totalFeePercent", "specialFeePercent", "trustedSwapPairs"]
    | .prices =>
      ["firstTokenPrice", "secondTokenPrice", "firstTokenPriceUSD", "secondTokenPriceUSD",
        "liquidityPoolTokenPriceUSD", "lockedValueUSD"]
  mem_all g := by cases g <;> decide

/-- The replacement of one group of a pair. -/
inductive PairPatch where
  | tokensAndFarms (value : PairTokens)
  | info (value : PairInfo)
  | prices (value : PairPrices)
  | analytics (value : PairAnalytics)
deriving DecidableEq, Repr

open Json (FieldsReader)

namespace PairTokens

/-- The entries of a pair that hold its tokens and farms. -/
def entries (t : PairTokens) : Json.Object :=
  [("firstToken", .ofOption Token.toJson t.firstToken),
    ("secondToken", .ofOption Token.toJson t.secondToken),
    ("liquidityPoolToken", .ofOption Token.toJson t.liquidityPoolToken),
    ("hasFarms", .ofBool t.hasFarms), ("hasDualFarms", .ofBool t.hasDualFarms),
    ("farmAddress", .ofText t.farmAddress),
    ("stakingProxyAddress", .ofText t.stakingProxyAddress)]

/-- Reads the tokens and farms of a pair. -/
def fields : FieldsReader PairTokens :=
  FieldsReader.pure PairTokens.mk
    |>.andField (.optional "firstToken" Token.reader)
    |>.andField (.optional "secondToken" Token.reader)
    |>.andField (.optional "liquidityPoolToken" Token.reader)
    |>.andField (.optional "hasFarms" .boolean)
    |>.andField (.optional "hasDualFarms" .boolean)
    |>.andField (.optional "farmAddress" .string)
    |>.andField (.optional "stakingProxyAddress" .string)

end PairTokens

namespace PairReserves

/-- The JSON object of reserves. -/
def toJson (r : PairReserves) : Json :=
  .obj [("reserve0", .str r.reserve0), ("reserve1", .str r.reserve1),
    ("totalSupply", .str r.totalSupply)]

/-- Reads reserves; `buffered` as for the record around them. -/
def reader (buffered : Bool) : Json.Reader PairReserves :=
  .record "PairInfo" (FieldsReader.pure PairReserves.mk
    |>.andField (.required "reserve0" .string)
    |>.andField (.required "reserve1" .string)
    |>.andField (.required "totalSupply" .string)) buffered

end PairReserves

namespace PairInfo

/-- The entries of a pair that hold its state and fees. -/
def entries (i : PairInfo) : Json.Object :=
  [("info", .ofOption PairReserves.toJson i.info), ("state", .ofText i.state),
    ("type", .ofText i.pairType), ("totalFeePercent", .ofDouble i.totalFeePercent),
    ("specialFeePercent", .ofDouble i.specialFeePercent),
    ("trustedSwapPairs", .ofOption .ofStrings i.trustedSwapPairs)]

/-- Reads the state and fees of a pair. -/
def fields (buffered : Bool) : FieldsReader PairInfo :=
  FieldsReader.pure PairInfo.mk
    |>.andField (.optional "info" (PairReserves.reader buffered))
    |>.andField (.optional "state" .string)
    |>.andField (.optional "type" .string)
    |>.andField (.optional "totalFeePercent" .double)
    |>.andField (.optional "specialFeePercent" .double)
    |>.andField (.optional "trustedSwapPairs" (.list .string))

end PairInfo

namespace PairPrices

/-- The entries of a pair that hold its prices. -/
def entries (p : PairPrices) : Json.Object :=
  [("firstTokenPrice", .ofText p.firstTokenPrice),
    ("secondTokenPrice", .ofText p.secondTokenPrice),
    ("firstTokenPriceUSD", .ofText p.firstTokenPriceUSD),
    ("secondTokenPriceUSD", .ofText p.secondTokenPriceUSD),
    ("liquidityPoolTokenPriceUSD", .ofText p.liquidityPoolTokenPriceUSD),
    ("lockedValueUSD", .ofText p.lockedValueUSD)]

/-- Reads the prices of a pair. -/
def fields : FieldsReader PairPrices :=
  FieldsReader.pure PairPrices.mk
    |>.andField (.optional "firstTokenPrice" .string)
    |>.andField (.optional "secondTokenPrice" .string)
    |>.andField (.optional "firstTokenPriceUSD" .string)
    |>.andField (.optional "secondTokenPriceUSD" .string)
    |>.andField (.optional "liquidityPoolTokenPriceUSD" .string)
    |>.andField (.optional "lockedValueUSD" .string)

end PairPrices

namespace PairAnalytics

/-- The entries of a pair that hold its analytics. -/
def entries (a : PairAnalytics) : Json.Object :=
  [("volumeUSD24h", .ofText a.volumeUSD24h),
    ("previous24hVolumeUSD", .ofText a.previous24hVolumeUSD),
    ("feesUSD24h", .ofText a.feesUSD24h), ("previous24hFeesUSD", .ofText a.previous24hFeesUSD),
    ("feesAPR", .ofText a.feesAPR),
    ("tradesCount", .ofOption (fun n => .ofNat n.toNat) a.tradesCount),
    ("tradesCount24h", .ofOption (fun n => .ofNat n.toNat) a.tradesCount24h),
    ("deployedAt", .ofOption (fun i => .int i.toInt) a.deployedAt)]

/-- Reads the analytics of a pair. -/
def fields : FieldsReader PairAnalytics :=
  FieldsReader.pure PairAnalytics.mk
    |>.andField (.optional "volumeUSD24h" .string)
    |>.andField (.optional "previous24hVolumeUSD" .string)
    |>.andField (.optional "feesUSD24h" .string)
    |>.andField (.optional "previous24hFeesUSD" .string)
    |>.andField (.optional "feesAPR" .string)
    |>.andField (.optional "tradesCount" .uint64)
    |>.andField (.optional "tradesCount24h" .uint64)
    |>.andField (.optional "deployedAt" .int64)

end PairAnalytics

namespace Pair

/-- The JSON object of a pair: its address and the fields of its groups in order. -/
def toJson (p : Pair) : Json :=
  .obj (("address", .str p.address) ::
    (p.tokens.entries ++ p.info.entries ++ p.prices.entries ++ p.analytics.entries))

/-- Reads a pair: the address first, then the groups in order. -/
def reader : Json.Reader Pair
  | .obj entries => do
    let address ← Json.Reader.ownText "address" entries
    let tokens ← PairTokens.fields.ofEntries entries
    let info ← (PairInfo.fields true).ofEntries entries
    let prices ← PairPrices.fields.ofEntries entries
    let analytics ← PairAnalytics.fields.ofEntries entries
    return { address, tokens, info, prices, analytics }
  | v => Json.Reader.mismatch v "struct PairSnapshot"

/-- The identifier of the first token. -/
def firstTokenId? (p : Pair) : Option String :=
  p.tokens.firstToken.map Token.identifier

/-- The identifier of the second token. -/
def secondTokenId? (p : Pair) : Option String :=
  p.tokens.secondToken.map Token.identifier

/-- The identifier of the liquidity pool token. -/
def lpTokenId? (p : Pair) : Option String :=
  p.tokens.liquidityPoolToken.map Token.identifier

/-- The identifiers of the tokens on whose freshness a pair depends. -/
def tokenIds (p : Pair) : List String :=
  p.firstTokenId?.toList ++ p.secondTokenId?.toList

end Pair

namespace PairPatch

/-- The group that a patch replaces. -/
def group : PairPatch → PairGroup
  | .tokensAndFarms _ => .tokensAndFarms
  | .info _ => .info
  | .prices _ => .prices
  | .analytics _ => .analytics

/-- A pair with one group replaced. -/
def apply (patch : PairPatch) (p : Pair) : Pair :=
  match patch with
  | .tokensAndFarms value => { p with tokens := value }
  | .info value => { p with info := value }
  | .prices value => { p with prices := value }
  | .analytics value => { p with analytics := value }

/-- The JSON object of a patch: its only key names the group. -/
def toJson : PairPatch → Json
  | .tokensAndFarms value => .obj [("TokensAndFarms", .obj value.entries)]
  | .info value => .obj [("Info", .obj value.entries)]
  | .prices value => .obj [("Prices", .obj value.entries)]
  | .analytics value => .obj [("Analytics", .obj value.entries)]

/-- Reads a patch: an object whose only key names the group. -/
def reader : Json.Reader PairPatch := fun v => do
  let (name, payload) ←
    Json.Reader.dataVariant ["TokensAndFarms", "Info", "Prices", "Analytics"] v
  if name = "TokensAndFarms" then
    (Json.Reader.record "PairTokensAndFarms" PairTokens.fields false payload).map .tokensAndFarms
  else if name = "Info" then
    (Json.Reader.record "PairInfoFields" (PairInfo.fields false) false payload).map .info
  else if name = "Prices" then
    (Json.Reader.record "PairPrices" PairPrices.fields false payload).map .prices
  else
    (Json.Reader.record "PairAnalytics" PairAnalytics.fields false payload).map .analytics

end PairPatch

instance : Entity Pair PairGroup PairPatch where
  kind := .pair
  id := Pair.address
  empty name := { address := name }
  groupOf := PairPatch.group
  applyPatch := PairPatch.apply
  toJson := Pair.toJson
  id_empty _ := rfl
  id_applyPatch p _ := by cases p <;> rfl

end DexCache
