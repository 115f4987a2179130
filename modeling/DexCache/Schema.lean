/-!
# The shape of answers

Names of the object types that answers are made of, and for each type the type of the
objects under its fields.  Types outside this table are reported as unknown.
-/

namespace DexCache.Schema

/-- The type of a pair. -/
def pairType : String := "PairModel"

/-- The type of a token. -/
def tokenType : String := "EsdtToken"

/-- The type of a page of pairs. -/
def pairsPageType : String := "PairsResponse"

/-- The type of a page of tokens. -/
def tokensPageType : String := "TokensResponse"

/-- The type of objects outside the table. -/
def unknownType : String := "Unknown"

/-- For each type its fields that hold objects, with the types of these. -/
def shape : List (String × List (String × String)) :=
  [("Query",
      [("pairs", pairType), ("filteredPairs", pairsPageType),
       ("tokens", tokenType), ("filteredTokens", tokensPageType)]),
   (pairType,
      [("firstToken", tokenType), ("secondToken", tokenType),
       ("liquidityPoolToken", tokenType), ("info", "PairInfoModel"),
       ("lockedTokensInfo", "LockedTokensInfo")]),
   ("LockedTokensInfo", [("lockingSC", "SimpleLockModel")]),
   (tokenType, [("assets", "AssetsModel"), ("roles", "RolesModel")]),
   ("AssetsModel", [("social", "SocialModel")]),
   (pairsPageType,
      [("edges", "PairModelEdge"), ("pageInfo", "PageInfo"), ("pageData", "PageData")]),
   ("PairModelEdge", [("node", pairType)]),
   (tokensPageType,
      [("edges", "EsdtTokenEdge"), ("pageInfo", "PageInfo"), ("pageData", "PageData")]),
   ("EsdtTokenEdge", [("node", tokenType)])]

/-- The type of the objects under a field. -/
def childType (parent field : String) : String :=
  ((shape.lookup parent).bind fun fields => fields.lookup field).getD unknownType

end DexCache.Schema
