import DexCache.Entity.Token
import DexCache.Listing.Catalogue
import DexCache.Text.Search

/-!
# Listings of tokens
-/

namespace DexCache

open Json (FieldReader FieldsReader Reader)

/-- What the tokens of a listing must be like; each field that is given must hold. -/
structure TokenFilter where
  identifiers : Option (List String) := none
  tokenType : Option String := none
  searchToken : Option String := none
  minLiquidity : Option Amount := none
deriving DecidableEq, Repr, Inhabited

namespace TokenFilter

/-- Reads the filter. -/
def reader : Reader TokenFilter :=
  .record "TokensFilter" (FieldsReader.pure TokenFilter.mk
    |>.andField (.oneOrMany "identifiers")
    |>.andField (.optional "type" .string)
    |>.andField (.optional "searchToken" .string)
    |>.andField (.amount "minLiquidity")) false

/-- The type that stands for all types. -/
def allTypes : String := "All"

/-- The predicates in the order of checking. -/
def predicates (f : TokenFilter) : List (Token → Bool) :=
  [fun t => f.identifiers.all fun ids => decide (t.identifier ∈ ids),
    fun t => f.tokenType.all fun type => type == allTypes || t.metadata.tokenType == some type,
    fun t => f.searchToken.all fun needle =>
      Text.matchesSearch needle [some t.identifier, t.metadata.name, t.metadata.ticker],
    fun t => f.minLiquidity.all (Amount.atLeast t.analytics.liquidityUSD)]

end TokenFilter

/-- The amounts by which tokens are sorted. -/
inductive TokenSortKey where
  | price
  | previous24hPrice
  | priceChange24h
  | volume24h
  | previous24hVolume
  | liquidity
  | trendingScore
  | createdAt
deriving DecidableEq, Repr, Inhabited

namespace TokenSortKey

/-- The sort key of this name. -/
def ofName? : String → Option TokenSortKey
  | "PRICE" => some .price
  | "PREVIOUS_24H_PRICE" => some .previous24hPrice
  | "PRICE_CHANGE_24H" => some .priceChange24h
  | "VOLUME_24H" => some .volume24h
  | "PREVIOUS_24H_VOLUME" => some .previous24hVolume
  | "LIQUIDITY" => some .liquidity
  | "TRENDING_SCORE" => some .trendingScore
  | "CREATED_AT" => some .createdAt
  | _ => none

/-- The text of a token that holds the amount of a key. -/
def text : TokenSortKey → Token → Option String
  | .price, t => t.prices.price
  | .previous24hPrice, t => t.prices.previous24hPrice
  | .priceChange24h, t => t.prices.priceChange24h
  | .volume24h, t => t.analytics.volumeUSD24h
  | .previous24hVolume, t => t.analytics.previous24hVolume
  | .liquidity, t => t.analytics.liquidityUSD
  | .trendingScore, t => t.analytics.trendingScore
  | .createdAt, t => t.metadata.createdAt

/-- The amount of a token under a key. -/
def amount (k : TokenSortKey) (t : Token) : Option Amount :=
  (k.text t).bind Amount.ofText?

end TokenSortKey

/-- Token fields that are answered elsewhere. -/
def tokenMissingFields : List String :=
  ["balance", "supply", "circulatingSupply", "roles"]

/-- The listings of tokens. -/
def tokenCatalogue : Catalogue Token TokenFilter TokenSortKey where
  listings := [
    { name := "tokens", shape := .list, identifierField := "identifier"
      missingFields := tokenMissingFields, sortable := false },
    { name := "filteredTokens", shape := .connection, identifierField := "identifier"
      missingFields := tokenMissingFields, sortable := true }]
  entityType := Schema.tokenType
  pageType := Schema.tokensPageType
  toJson := Token.toJson
  filters := TokenFilter.reader
  noFilters := {}
  predicates := TokenFilter.predicates
  sortKey? := TokenSortKey.ofName?
  keyOf := TokenSortKey.amount

end DexCache
