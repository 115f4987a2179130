import DexCache.Listing.Pairs
import DexCache.Listing.Tokens
import DexCache.Proofs.Query.Numeral

/-!
# The numbers that entities are sorted by

Every name by which a listing can be sorted stands for one field of its entities.  A time or a
count is taken as it is, a text as the number that it writes; what is missing, or no decimal,
counts as zero.
-/

namespace DexCache

namespace Amount

/-- The number that a text counts for. -/
def counted (text : Option String) : ℚ :=
  ((text.bind ofText?).map value).getD 0

theorem rank_bind_ofText? (text : Option String) : rank (text.bind ofText?) = counted text := by
  unfold counted
  cases text.bind ofText? with
  | none => exact rank_none
  | some a => rfl

/-- An integer that may be missing is sorted as itself. -/
theorem rank_map_ofInt {α : Type} {toInt : α → Int} {number : α → ℚ}
    (h : ∀ a, (toInt a : ℚ) = number a) (found : Option α) :
    rank (found.map fun a => .ofInt (toInt a)) = (found.map number).getD 0 := by
  cases found with
  | none => exact rank_none
  | some a => simp [rank, value, ofInt, h]

/-- The text of a decimal, however long, counts for just the number that it writes. -/
theorem map_value_ofText? (n : Query.Numeral) :
    (ofText? n.text).map value = if n.InRange then some n.value else none := by
  rw [ofText?_numeral]
  split
  · rw [Option.map_some, value_ofNumeral]
  · rfl

end Amount

open Amount (counted)

/-- The numbers by which pairs can be sorted, under their names. -/
def Pair.number? : String → Option (Pair → ℚ)
  | "DEPLOYED_AT" => some fun p => (p.analytics.deployedAt.map fun time => (time.toInt : ℚ)).getD 0
  | "FEES_24H" => some fun p => counted p.analytics.feesUSD24h
  | "TRADES_COUNT" => some fun p =>
    (p.analytics.tradesCount.map fun count => (count.toNat : ℚ)).getD 0
  | "TRADES_COUNT_24H" => some fun p =>
    (p.analytics.tradesCount24h.map fun count => (count.toNat : ℚ)).getD 0
  | "TVL" => some fun p => counted p.prices.lockedValueUSD
  | "VOLUME_24H" => some fun p => counted p.analytics.volumeUSD24h
  | "APR" => some fun p => counted p.analytics.feesAPR
  | _ => none

/-- The numbers by which tokens can be sorted, under their names. -/
def Token.number? : String → Option (Token → ℚ)
  | "PRICE" => some fun t => counted t.prices.price
  | "PREVIOUS_24H_PRICE" => some fun t => counted t.prices.previous24hPrice
  | "PRICE_CHANGE_24H" => some fun t => counted t.prices.priceChange24h
  | "VOLUME_24H" => some fun t => counted t.analytics.volumeUSD24h
  | "PREVIOUS_24H_VOLUME" => some fun t => counted t.analytics.previous24hVolume
  | "LIQUIDITY" => some fun t => counted t.analytics.liquidityUSD
  | "TRENDING_SCORE" => some fun t => counted t.analytics.trendingScore
  | "CREATED_AT" => some fun t => counted t.metadata.createdAt
  | _ => none

/-- The sort key of a name ranks pairs by the number of this name. -/
theorem PairSortKey.map_rank (name : String) :
    (ofName? name).map (fun key p => Amount.rank (amount key p)) = Pair.number? name := by
  unfold ofName? Pair.number?
  split
  · exact congrArg some (funext fun p => Amount.rank_map_ofInt (fun _ => rfl) _)
  · exact congrArg some (funext fun p => Amount.rank_bind_ofText? _)
  · exact congrArg some (funext fun p => Amount.rank_map_ofInt (fun _ => Int.cast_natCast _) _)
  · exact congrArg some (funext fun p => Amount.rank_map_ofInt (fun _ => Int.cast_natCast _) _)
  · exact congrArg some (funext fun p => Amount.rank_bind_ofText? _)
  · exact congrArg some (funext fun p => Amount.rank_bind_ofText? _)
  · exact congrArg some (funext fun p => Amount.rank_bind_ofText? _)
  · simp

/-- The sort key of a name ranks tokens by the number of this name. -/
theorem TokenSortKey.map_rank (name : String) :
    (ofName? name).map (fun key t => Amount.rank (amount key t)) = Token.number? name := by
  unfold ofName? Token.number?
  split
  all_goals first
    | exact congrArg some (funext fun t => Amount.rank_bind_ofText? _)
    | simp

end DexCache
