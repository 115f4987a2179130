import DexCache.Listing.Pairs
import DexCache.Listing.Tokens
import DexCache.Proofs.Decimal.Exact
import DexCache.Proofs.Decimal.Order
import Mathlib.Tactic.MkIffOfInductiveProp

/-!
# What filters ask for

A filter asks something of an entity for each of its fields that is given, and the entities
that pass all checks are those that have what is asked.  A field that an entity lacks counts as
false or zero in some of these and rules the entity out in the others.

The checks only drop entities, so their order does not matter.
-/

namespace DexCache

namespace Text

theorem isBlank_of_isWhitespace {c : Char} (h : c.isWhitespace = true) : isBlank c = true := by
  simp only [Char.isWhitespace, Bool.or_eq_true, decide_eq_true_eq] at h
  rcases h with ((rfl | rfl) | rfl) | rfl
  all_goals rfl

/-- Of visible ASCII characters between blanks only the blanks are dropped. -/
theorem trim_between {front cs back : List Char} (hfront : ∀ c ∈ front, c.isWhitespace = true)
    (hback : ∀ c ∈ back, c.isWhitespace = true) (hcs : ∀ c ∈ cs, 32 < c.toNat ∧ c.toNat < 127) :
    trim (front ++ cs ++ back) = cs := by
  have hblank {blanks : List Char} (h : ∀ c ∈ blanks, c.isWhitespace = true) :
      ∀ c ∈ blanks, isBlank c = true := fun c hc => isBlank_of_isWhitespace (h c hc)
  have hvisible : ∀ c ∈ cs, isBlank c = false := fun c hc =>
    isBlank_of_visible (hcs c hc).1 (hcs c hc).2
  rw [trim, List.append_assoc, List.dropWhile_append_of_pos (hblank hfront)]
  cases cs with
  | nil =>
      rw [List.nil_append, List.dropWhile_eq_nil_iff.2 (hblank hback)]
      rfl
  | cons c cs =>
      have hhead : ¬isBlank c = true := by simp [hvisible c List.mem_cons_self]
      rw [List.cons_append, List.dropWhile_cons_of_neg hhead, ← List.cons_append,
        List.reverse_append,
        List.dropWhile_append_of_pos fun d hd => hblank hback d (List.mem_reverse.1 hd),
        dropWhile_isBlank fun d hd => hvisible d (List.mem_reverse.1 hd), List.reverse_reverse]

/-- The lower case of an ASCII text is that of its letters. -/
theorem lowercase_ascii {cs : List Char} (h : ∀ c ∈ cs, c.toNat < 128) :
    lowercase cs = cs.map Char.toLower := by
  have hfrom (before : List Char) : lowercaseFrom before cs = cs.map Char.toLower := by
    induction cs generalizing before with
    | nil => rfl
    | cons c cs ih =>
        obtain ⟨hc, hcs⟩ := List.forall_mem_cons.1 h
        rw [lowercaseFrom, ih hcs, lowercaseChar, if_pos hc]
        rfl
  exact hfrom []

theorem occursIn_iff {needle text : List Char} :
    occursIn needle text = true ↔ needle <:+: text := by
  induction text with
  | nil => simp [occursIn]
  | cons c rest ih => simp [occursIn, ih, List.infix_cons_iff]

/-- Is a search term found in one of the texts?  A blank one is found everywhere. -/
def Found (term : String) (texts : List (Option String)) : Prop :=
  lowercase (trim term.toList) = [] ∨
    ∃ text, some text ∈ texts ∧ lowercase (trim term.toList) <:+: lowercase text.toList

theorem matchesSearch_iff {term : String} {texts : List (Option String)} :
    matchesSearch term texts = true ↔ Found term texts := by
  rw [matchesSearch, Bool.or_eq_true, List.isEmpty_iff, List.any_eq_true]
  refine or_congr_right ⟨?_, ?_⟩
  · rintro ⟨text, hmem, hoccurs⟩
    cases text with
    | none => cases hoccurs
    | some t => exact ⟨t, hmem, occursIn_iff.1 hoccurs⟩
  · rintro ⟨t, hmem, hinfix⟩
    exact ⟨some t, hmem, occursIn_iff.2 hinfix⟩

end Text

namespace Amount

/-- Does a text hold an amount of at least `least`? -/
def Reaches (text : Option String) (least : Amount) : Prop :=
  ∃ t ∈ text, ∃ a ∈ ofText? t, least.value ≤ a.value

theorem atLeast_iff {text : Option String} {least : Amount} :
    atLeast text least = true ↔ Reaches text least := by
  have hcmp (a : Amount) : (cmp a least != .lt) = true ↔ least.value ≤ a.value := by
    rw [cmp_eq, bne_iff_ne, compare_ge_iff_ge]
  cases text with
  | none => simp [atLeast, Reaches]
  | some t =>
      cases hread : ofText? t with
      | none => simp [atLeast, Reaches, hread]
      | some a => simp [atLeast, Reaches, hread, hcmp]

end Amount

/-- What a filter asks of the two tokens of a pair. -/
@[mk_iff]
structure PairFilter.Sides (f : PairFilter) (p : Pair) : Prop where
  /-- Two tokens may stand in either order. -/
  both : ∀ a ∈ f.firstTokenId, ∀ b ∈ f.secondTokenId,
    ∃ x ∈ p.tokens.firstToken, ∃ y ∈ p.tokens.secondToken,
      x.identifier = a ∧ y.identifier = b ∨ x.identifier = b ∧ y.identifier = a
  /-- One token stands on its own side. -/
  first : f.secondTokenId = none → ∀ a ∈ f.firstTokenId,
    ∃ x ∈ p.tokens.firstToken, x.identifier = a
  second : f.firstTokenId = none → ∀ b ∈ f.secondTokenId,
    ∃ y ∈ p.tokens.secondToken, y.identifier = b

/-- What a filter asks of a pair. -/
@[mk_iff]
structure PairFilter.Admits (f : PairFilter) (p : Pair) : Prop where
  address : ∀ addresses ∈ f.addresses, p.address ∈ addresses
  tokens : f.Sides p
  issued : f.issuedLpToken = some true → p.tokens.liquidityPoolToken ≠ none
  lpToken : ∀ ids ∈ f.lpTokenIds, ∃ t ∈ p.tokens.liquidityPoolToken, t.identifier ∈ ids
  state : ∀ states ∈ f.state, ∃ s ∈ p.info.state, s ∈ states
  search : ∀ term ∈ f.searchToken, Text.Found term
    ((p.tokens.firstToken.toList ++ p.tokens.secondToken.toList).flatMap fun t =>
      [some t.identifier, t.metadata.name, t.metadata.ticker])
  farms : ∀ has ∈ f.hasFarms, p.tokens.hasFarms.getD false = has
  dualFarms : ∀ has ∈ f.hasDualFarms, p.tokens.hasDualFarms.getD false = has
  volume : ∀ least ∈ f.minVolume, Amount.Reaches p.analytics.volumeUSD24h least
  lockedValue : ∀ least ∈ f.minLockedValueUSD, Amount.Reaches p.prices.lockedValueUSD least
  trades : ∀ least ∈ f.minTradesCount, least ≤ p.analytics.tradesCount.getD 0
  trades24h : ∀ least ∈ f.minTradesCount24h, least ≤ p.analytics.tradesCount24h.getD 0
  deployed : ∀ least ∈ f.minDeployedAt, ∃ time ∈ p.analytics.deployedAt, least ≤ time

/-- What a filter asks of a token. -/
@[mk_iff]
structure TokenFilter.Admits (f : TokenFilter) (t : Token) : Prop where
  identifier : ∀ ids ∈ f.identifiers, t.identifier ∈ ids
  /-- All tokens are of the type `All`. -/
  type : ∀ type ∈ f.tokenType, type ≠ "All" → t.metadata.tokenType = some type
  search : ∀ term ∈ f.searchToken,
    Text.Found term [some t.identifier, t.metadata.name, t.metadata.ticker]
  liquidity : ∀ least ∈ f.minLiquidity, Amount.Reaches t.analytics.liquidityUSD least

theorem PairFilter.sidesMatch_iff {f : PairFilter} {p : Pair} :
    f.sidesMatch p = true ↔ f.Sides p := by
  rw [sides_iff]
  unfold sidesMatch Pair.firstTokenId? Pair.secondTokenId?
  cases f.firstTokenId with
  | none => cases f.secondTokenId <;> simp
  | some a =>
      cases f.secondTokenId with
      | none => simp
      | some b => cases p.tokens.firstToken <;> cases p.tokens.secondToken <;> simp

/-- A pair passes all checks if and only if it has what the filter asks for. -/
theorem PairFilter.forall_predicates_iff (f : PairFilter) (p : Pair) :
    (∀ check ∈ f.predicates, check p = true) ↔ f.Admits p := by
  have hissued : (∀ asked, f.issuedLpToken = some asked →
      (!asked || p.lpTokenId?.isSome) = true) ↔
        (f.issuedLpToken = some true → p.tokens.liquidityPoolToken ≠ none) := by
    rw [← Option.isSome_iff_ne_none, Pair.lpTokenId?, Option.isSome_map]
    constructor
    · exact fun h hasked => by simpa using h true hasked
    · rintro h (_ | _) hasked
      · rfl
      · simpa using h hasked
  have hpool (ids : List String) : (∃ id, p.lpTokenId? = some id ∧ id ∈ ids) ↔
      ∃ t ∈ p.tokens.liquidityPoolToken, t.identifier ∈ ids := by
    rw [Pair.lpTokenId?]
    cases p.tokens.liquidityPoolToken <;> simp
  rw [admits_iff]
  simp only [predicates, List.forall_mem_cons, List.not_mem_nil, false_imp_iff, implies_true,
    and_true, Option.all_eq_true, Option.any_eq_true, decide_eq_true_eq, beq_iff_eq,
    sidesMatch_iff, Text.matchesSearch_iff, Amount.atLeast_iff, hissued, hpool]
  exact Iff.rfl

/-- A token passes all checks if and only if it has what the filter asks for. -/
theorem TokenFilter.forall_predicates_iff (f : TokenFilter) (t : Token) :
    (∀ check ∈ f.predicates, check t = true) ↔ f.Admits t := by
  have htype : (∀ type, f.tokenType = some type →
      (type == allTypes || t.metadata.tokenType == some type) = true) ↔
        ∀ type ∈ f.tokenType, type ≠ allTypes → t.metadata.tokenType = some type := by
    simp only [Bool.or_eq_true, beq_iff_eq, or_iff_not_imp_left]
    exact Iff.rfl
  rw [admits_iff]
  simp only [predicates, List.forall_mem_cons, List.not_mem_nil, false_imp_iff, implies_true,
    and_true, Option.all_eq_true, decide_eq_true_eq, Text.matchesSearch_iff, Amount.atLeast_iff,
    htype]
  exact Iff.rfl

instance (f : PairFilter) (p : Pair) : Decidable (f.Admits p) :=
  decidable_of_iff _ (f.forall_predicates_iff p)

instance (f : TokenFilter) (t : Token) : Decidable (f.Admits t) :=
  decidable_of_iff _ (f.forall_predicates_iff t)

end DexCache
