import DexCache.Entity.Pair
import DexCache.Failure

/-!
# Sources

The outside services from which entities are read: the registry of pairs and one read for
each group of an entity.  Reads run in a monad, which holds whatever the services are.
-/

namespace DexCache

/-- The tokens of a pair by identifier, and where they can be farmed. -/
structure PairRefs where
  firstTokenId : String
  secondTokenId : String
  lpTokenId : Option String := none
  hasFarms : Bool := false
  hasDualFarms : Bool := false
  farmAddress : Option String := none
  stakingProxyAddress : Option String := none
deriving DecidableEq, Repr, Inhabited

namespace PairRefs

/-- The two tokens that a pair trades. -/
def tokenIds (r : PairRefs) : List String :=
  [r.firstTokenId, r.secondTokenId]

/-- A copy of a known token, or an empty one. -/
def copy (known : String → Option Token) (identifier : String) : Token :=
  (known identifier).getD { identifier }

/-- The group of a pair's fields that holds its tokens, with copies of the known ones. -/
def tokens (r : PairRefs) (known : String → Option Token) : PairTokens where
  firstToken := some (copy known r.firstTokenId)
  secondToken := some (copy known r.secondTokenId)
  liquidityPoolToken := r.lpTokenId.map (copy known)
  hasFarms := some r.hasFarms
  hasDualFarms := some r.hasDualFarms
  farmAddress := r.farmAddress
  stakingProxyAddress := r.stakingProxyAddress

end PairRefs

/-- The reads that the outside services offer. -/
structure Source (m : Type → Type) where
  pairAddresses : m (Except Failure (List String))
  blockNonce : m (Except Failure UInt64)
  pairRefs : String → m (Except Failure PairRefs)
  pairInfo : String → m (Except Failure PairInfo)
  pairPrices : String → m (Except Failure PairPrices)
  pairAnalytics : String → m (Except Failure PairAnalytics)
  tokenMetadata : String → m (Except Failure TokenMetadata)
  tokenPrices : String → m (Except Failure TokenPrices)
  tokenAnalytics : String → m (Except Failure TokenAnalytics)

end DexCache
