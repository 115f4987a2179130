import DexCache.Entity.Basic

/-!
# Tokens

A token's snapshot is an identifier and three groups of fields.  In JSON the groups are
flat: their fields stand beside the identifier.
-/

namespace DexCache

/-- What the owner of a token has published about it. -/
structure TokenAssets where
  website : Option String := none
  description : Option String := none
  status : Option String := none
  pngURL : Option String := none
  svgURL : Option String := none
deriving DecidableEq, Repr, Inhabited

/-- What a token is. -/
structure TokenMetadata where
  name : Option String := none
  ticker : Option String := none
  decimals : Option UInt32 := none
  tokenType : Option String := none
  createdAt : Option String := none
  assets : Option TokenAssets := none
deriving DecidableEq, Repr, Inhabited

/-- What a token costs. -/
structure TokenPrices where
  price : Option String := none
  derivedEGLD : Option String := none
  previous24hPrice : Option String := none
  priceChange24h : Option String := none
deriving DecidableEq, Repr, Inhabited

/-- How much a token is traded. -/
structure TokenAnalytics where
  volumeUSD24h : Option String := none
  previous24hVolume : Option String := none
  liquidityUSD : Option String := none
  swapCount24h : Option UInt64 := none
  trendingScore : Option String := none
deriving DecidableEq, Repr, Inhabited

/-- The snapshot of a token. -/
structure Token where
  identifier : String
  metadata : TokenMetadata := {}
  prices : TokenPrices := {}
  analytics : TokenAnalytics := {}
deriving DecidableEq, Repr, Inhabited

/-- The groups of a token's fields. -/
inductive TokenGroup where
  | metadata
  | prices
  | analytics
deriving DecidableEq, Repr, Inhabited

instance : FieldGroup TokenGroup where
  all := [.metadata, .prices, .analytics]
  name
    | .metadata => "metadata"
    | .prices => "prices"
    | .analytics => "analytics"
  fields
    | .metadata => ["name", "ticker", "decimals", "type", "createdAt", "assets"]
    | .prices => ["price", "derivedEGLD", "previous24hPrice", "priceChange24h"]
    | .analytics =>
      ["volumeUSD24h", "previous24hVolume", "liquidityUSD", "swapCount24h", "trendingScore"]
  mem_all g := by cases g <;> decide

/-- The replacement of one group of a token. -/
inductive TokenPatch where
  | metadata (value : TokenMetadata)
  | prices (value : TokenPrices)
  | analytics (value : TokenAnalytics)
deriving DecidableEq, Repr

open Json (FieldsReader)

namespace TokenAssets

/-- The JSON object of assets. -/
def toJson (a : TokenAssets) : Json :=
  .obj [("website", .ofText a.website), ("description", .ofText a.description),
    ("status", .ofText a.status), ("pngURL", .ofText a.pngURL), ("svgURL", .ofText a.svgURL)]

/-- Reads assets; `buffered` as for the record around them. -/
def reader (buffered : Bool) : Json.Reader TokenAssets :=
  .record "TokenAssets" (FieldsReader.pure TokenAssets.mk
    |>.andField (.optional "website" .string)
    |>.andField (.optional "description" .string)
    |>.andField (.optional "status" .string)
    |>.andField (.optional "pngURL" .string)
    |>.andField (.optional "svgURL" .string)) buffered

end TokenAssets

namespace TokenMetadata

/-- The entries of a token that hold its metadata. -/
def entries (m : TokenMetadata) : Json.Object :=
  [("name", .ofText m.name), ("ticker", .ofText m.ticker),
    ("decimals", .ofOption (fun n => .ofNat n.toNat) m.decimals),
    ("type", .ofText m.tokenType), ("createdAt", .ofText m.createdAt),
    ("assets", .ofOption TokenAssets.toJson m.assets)]

/-- Reads the metadata of a token. -/
def fields (buffered : Bool) : FieldsReader TokenMetadata :=
  FieldsReader.pure TokenMetadata.mk
    |>.andField (.optional "name" .string)
    |>.andField (.optional "ticker" .string)
    |>.andField (.optional "decimals" .uint32)
    |>.andField (.optional "type" .string)
    |>.andField (.optional "createdAt" .string)
    |>.andField (.optional "assets" (TokenAssets.reader buffered))

end TokenMetadata

namespace TokenPrices

/-- The entries of a token that hold its prices. -/
def entries (p : TokenPrices) : Json.Object :=
  [("price", .ofText p.price), ("derivedEGLD", .ofText p.derivedEGLD),
    ("previous24hPrice", .ofText p.previous24hPrice),
    ("priceChange24h", .ofText p.priceChange24h)]

/-- Reads the prices of a token. -/
def fields : FieldsReader TokenPrices :=
  FieldsReader.pure TokenPrices.mk
    |>.andField (.optional "price" .string)
    |>.andField (.optional "derivedEGLD" .string)
    |>.andField (.optional "previous24hPrice" .string)
    |>.andField (.optional "priceChange24h" .string)

end TokenPrices

namespace TokenAnalytics

/-- The entries of a token that hold its analytics. -/
def entries (a : TokenAnalytics) : Json.Object :=
  [("volumeUSD24h", .ofText a.volumeUSD24h), ("previous24hVolume", .ofText a.previous24hVolume),
    ("liquidityUSD", .ofText a.liquidityUSD),
    ("swapCount24h", .ofOption (fun n => .ofNat n.toNat) a.swapCount24h),
    ("trendingScore", .ofText a.trendingScore)]

/-- Reads the analytics of a token. -/
def fields : FieldsReader TokenAnalytics :=
  FieldsReader.pure TokenAnalytics.mk
    |>.andField (.optional "volumeUSD24h" .string)
    |>.andField (.optional "previous24hVolume" .string)
    |>.andField (.optional "liquidityUSD" .string)
    |>.andField (.optional "swapCount24h" .uint64)
    |>.andField (.optional "trendingScore" .string)

end TokenAnalytics

namespace Token

/-- The JSON object of a token: its identifier and the fields of its groups in order. -/
def toJson (t : Token) : Json :=
  .obj (("identifier", .str t.identifier) ::
    (t.metadata.entries ++ t.prices.entries ++ t.analytics.entries))

/-- Reads a token: the identifier first, then the groups in order. -/
def reader : Json.Reader Token
  | .obj entries => do
    let identifier ← Json.Reader.ownText "identifier" entries
    let metadata ← (TokenMetadata.fields true).ofEntries entries
    let prices ← TokenPrices.fields.ofEntries entries
    let analytics ← TokenAnalytics.fields.ofEntries entries
    return { identifier, metadata, prices, analytics }
  | v => Json.Reader.mismatch v "struct TokenSnapshot"

end Token

namespace TokenPatch

/-- The group that a patch replaces. -/
def group : TokenPatch → TokenGroup
  | .metadata _ => .metadata
  | .prices _ => .prices
  | .analytics _ => .analytics

/-- A token with one group replaced. -/
def apply (p : TokenPatch) (t : Token) : Token :=
  match p with
  | .metadata value => { t with metadata := value }
  | .prices value => { t with prices := value }
  | .analytics value => { t with analytics := value }

/-- The JSON object of a patch: its only key names the group. -/
def toJson : TokenPatch → Json
  | .metadata value => .obj [("Metadata", .obj value.entries)]
  | .prices value => .obj [("Prices", .obj value.entries)]
  | .analytics value => .obj [("Analytics", .obj value.entries)]

/-- Reads a patch: an object whose only key names the group. -/
def reader : Json.Reader TokenPatch := fun v => do
  let (name, payload) ← Json.Reader.dataVariant ["Metadata", "Prices", "Analytics"] v
  if name = "Metadata" then
    (Json.Reader.record "TokenMetadata" (TokenMetadata.fields false) false payload).map .metadata
  else if name = "Prices" then
    (Json.Reader.record "TokenPrices" TokenPrices.fields false payload).map .prices
  else
    (Json.Reader.record "TokenAnalytics" TokenAnalytics.fields false payload).map .analytics

end TokenPatch

instance : Entity Token TokenGroup TokenPatch where
  kind := .token
  id := Token.identifier
  empty name := { identifier := name }
  groupOf := TokenPatch.group
  applyPatch := TokenPatch.apply
  toJson := Token.toJson
  id_empty _ := rfl
  id_applyPatch p _ := by cases p <;> rfl

end DexCache
