import DexCache.Entity.Pair
import DexCache.Store.Collection

/-!
# The store

Pairs, tokens, and two flags: whether the first population has finished and whether the
store was closed.  Closing drops every snapshot.
-/

namespace DexCache

/-- The entity store. -/
structure Store where
  pairs : Collection Pair PairGroup
  tokens : Collection Token TokenGroup
  populated : Bool := false
  closed : Bool := false
deriving Repr

namespace Store

/-- An empty store with the given thresholds. -/
def empty (pairThresholds : Thresholds PairGroup) (tokenThresholds : Thresholds TokenGroup) :
    Store :=
  { pairs := { thresholds := pairThresholds }, tokens := { thresholds := tokenThresholds } }

/-- Notes that the first population has finished. -/
def markPopulated (s : Store) : Store :=
  { s with populated := true }

/-- Drops every snapshot, once. -/
def close (s : Store) : Store :=
  if s.closed then s
  else { pairs := s.pairs.clear, tokens := s.tokens.clear, populated := false, closed := true }

/-- The identifiers of tokens that pairs need and that are not stored, each once. -/
def missingTokens (s : Store) : List String :=
  (s.pairs.all.flatMap Pair.tokenIds).eraseDups.filter fun name => !s.tokens.contains name

/-- Stored tokens, then the tokens that pairs name, each once. -/
def trackedTokens (s : Store) : List String :=
  (s.tokens.ids ++ s.pairs.all.flatMap fun p => p.tokenIds ++ p.lpTokenId?.toList).eraseDups

end Store

end DexCache
