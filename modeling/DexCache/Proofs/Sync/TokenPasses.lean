import DexCache.Proofs.Sync.Recovery

/-!
# What a token pass does to readiness

A token pass goes over the tracked tokens: those that are stored and all that stored pairs name,
their liquidity pool tokens among them.  A check wants fewer tokens stored, the two that each pair
trades, and it wants every group of a stored token fresh.

So where a pair names a liquidity pool token that is not stored, a check may find the cache ready.
The pass then stores that token with the one group that it reads, the others are missing, and the
cache is not ready any more.  This is the only way in which a pass without failures loses
readiness.
-/

namespace DexCache

variable {now : Int} {s s' : Store} {tasks : List RefreshTask}

/-- The task that reads a group of the tracked tokens. -/
def TokenGroup.task : TokenGroup → RefreshTask
  | .metadata => .tokenMetadata
  | .prices => .tokenPrices
  | .analytics => .tokenAnalytics

namespace TokenGroup

theorem task_injective : Function.Injective task := by
  intro g g' h
  cases g <;> cases g' <;> first | rfl | cases h

theorem task_ne_first (g : TokenGroup) : g.task ≠ .pairTokensAndFarms := by
  cases g <;> decide

theorem task_token (identifier : String) (g : TokenGroup) :
    (Cell.token identifier g).task = g.task := by
  cases g <;> rfl

theorem task_token_mem (identifier : String) (g : TokenGroup) :
    (Cell.token identifier g).task ∈ [g.task] :=
  List.mem_singleton.2 (task_token identifier g)

theorem task_token_not_mem (identifier : String) {g other : TokenGroup} (h : other ≠ g) :
    (Cell.token identifier other).task ∉ [g.task] := by
  rw [task_token, List.mem_singleton]
  exact fun heq => h (task_injective heq)

theorem exists_ne (g : TokenGroup) : ∃ other : TokenGroup, other ≠ g := by
  cases g
  · exact ⟨.prices, by decide⟩
  · exact ⟨.metadata, by decide⟩
  · exact ⟨.metadata, by decide⟩

end TokenGroup

/-- The tasks of tokens do not write pairs. -/
theorem Cell.task_pair_ne (address : String) (pairGroup : PairGroup) (g : TokenGroup) :
    (Cell.pair address pairGroup).task ≠ g.task := by
  cases pairGroup <;> cases g <;> simp [Cell.task, TokenGroup.task]

/-- In a settled store the tokens are fresh. -/
theorem Settled.fresh_token (h : Settled s now) (hs : s.Sound) {identifier : String}
    (hstored : identifier ∈ s.tokens.ids) (g : TokenGroup) :
    s.Fresh now (.token identifier g) := by
  obtain ⟨e, he, rfl⟩ := List.mem_map.1 hstored
  exact (hs.fresh_token_iff he g).2 (h.tokens e he g)

namespace Refreshed

/-- What the tasks do not write is as fresh as it was. -/
theorem fresh_iff (h : Refreshed now tasks s s') {cell : Cell} (hcell : cell.task ∉ tasks) :
    s'.Fresh now cell ↔ s.Fresh now cell := by
  rw [Store.Fresh, Store.Fresh, h.others cell hcell, Store.threshold_of_settings h.settings]

/-- What the tasks write has no age. -/
theorem fresh_written_iff (h : Refreshed now tasks s s') {cell : Cell} (htracked : s.Tracks cell)
    (hcell : cell.task ∈ tasks) : s'.Fresh now cell ↔ 0 ≤ s.threshold cell := by
  rw [Store.Fresh, h.written cell htracked hcell,
    Store.threshold_of_settings h.settings]
  constructor
  · rintro ⟨time, htime, hage⟩
    obtain rfl := Option.some.inj htime
    omega
  · exact fun hage => ⟨now, rfl, by omega⟩

end Refreshed

/-- Are the liquidity pool tokens of all stored pairs stored? -/
def Store.HoldsPoolTokens (s : Store) : Prop :=
  ∀ p ∈ s.pairs.all, ∀ identifier ∈ p.lpTokenId?, identifier ∈ s.tokens.ids

/-- In a settled store that holds the liquidity pool tokens every tracked token is stored. -/
theorem Settled.mem_tokens_ids (h : Settled s now) (hpool : s.HoldsPoolTokens) {identifier : String}
    (htracked : identifier ∈ s.trackedTokens) : identifier ∈ s.tokens.ids := by
  rcases Store.mem_trackedTokens_iff.1 htracked with hstored | ⟨p, hp, hnamed⟩
  · exact hstored
  · rcases List.mem_append.1 hnamed with htraded | hpooled
    · exact Collection.mem_ids_iff.2 (h.needed p hp identifier htraded)
    · exact hpool p hp identifier (Option.mem_toList.1 hpooled)

section Pass

variable {g : TokenGroup}

/-- A pass leaves the pairs as fresh as they were. -/
theorem Refreshed.fresh_pair (h : Refreshed now [g.task] s s') (hs : s.Sound)
    (hsettled : Settled s now) {address : String} (hstored : address ∈ s'.pairs.ids)
    (pairGroup : PairGroup) : s'.Fresh now (.pair address pairGroup) := by
  have hbefore : address ∈ s.pairs.ids := (h.tracks (.pair address pairGroup)).1 hstored
  rw [h.fresh_iff (by simpa using Cell.task_pair_ne address pairGroup g)]
  exact hsettled.fresh_pair hs hbefore pairGroup

/-- After a pass the tokens are fresh that were stored before. -/
theorem Refreshed.fresh_token (h : Refreshed now [g.task] s s') (hs : s.Sound)
    (hsettled : Settled s now) (hage : 0 ≤ s.tokens.thresholds.of g) {identifier : String}
    (hstored : identifier ∈ s.tokens.ids) (other : TokenGroup) :
    s'.Fresh now (.token identifier other) := by
  by_cases hother : other = g
  · subst hother
    have htracked : s.Tracks (.token identifier other) :=
      Store.mem_trackedTokens_iff.2 (.inl hstored)
    exact (h.fresh_written_iff htracked (TokenGroup.task_token_mem identifier other)).2 hage
  · rw [h.fresh_iff (TokenGroup.task_token_not_mem identifier hother)]
    exact hsettled.fresh_token hs hstored other

/-- A token pass keeps a store settled exactly if no pair names a liquidity pool token that is not
stored, and what is written now counts as fresh. -/
theorem Refreshed.settled_iff (h : Refreshed now [g.task] s s') (hs : s.Sound)
    (hsettled : Settled s now) :
    Settled s' now ↔
      s.HoldsPoolTokens ∧ (s.tokens.ids ≠ [] → 0 ≤ s.tokens.thresholds.of g) := by
  have hwritten {identifier : String} (htracked : identifier ∈ s.trackedTokens) :
      identifier ∈ s'.tokens.ids :=
    Store.mem_tokens_ids_of_lastUpdate? (h.written (.token identifier g) htracked
      (TokenGroup.task_token_mem identifier g))
  constructor
  · intro hafter
    constructor
    · intro p hp identifier hidentifier
      have htracked : identifier ∈ s.trackedTokens := Store.mem_trackedTokens_iff.2
        (.inr ⟨p, hp, List.mem_append_right _ (Option.mem_toList.2 hidentifier)⟩)
      -- a group that the pass does not write can only be fresh if it was written before
      obtain ⟨other, hother⟩ := g.exists_ne
      have hfresh := hafter.fresh_token h.sound (hwritten htracked) other
      rw [h.fresh_iff (TokenGroup.task_token_not_mem identifier hother)] at hfresh
      obtain ⟨time, htime, -⟩ := hfresh
      exact Store.mem_tokens_ids_of_lastUpdate? htime
    · intro hne
      obtain ⟨identifier, hstored⟩ := List.exists_mem_of_ne_nil _ hne
      have htracked : s.Tracks (.token identifier g) :=
        Store.mem_trackedTokens_iff.2 (.inl hstored)
      have hfresh := hafter.fresh_token h.sound (hwritten htracked) g
      exact (h.fresh_written_iff htracked (TokenGroup.task_token_mem identifier g)).1 hfresh
  · rintro ⟨hpool, hage⟩
    have hkept {identifier : String} (hstored : identifier ∈ s'.trackedTokens) :
        identifier ∈ s.tokens.ids :=
      hsettled.mem_tokens_ids hpool ((h.tracks (.token identifier g)).1 hstored)
    refine settled_of_fresh h.sound (fun address hstored => h.fresh_pair hs hsettled hstored)
      (fun identifier hstored => ?_) fun p hp name hname => ?_
    · have hbefore := hkept (Store.mem_trackedTokens_iff.2 (.inl hstored))
      exact h.fresh_token hs hsettled (hage (List.ne_nil_of_mem hbefore)) hbefore
    · have htracked : name ∈ s'.trackedTokens :=
        Store.mem_trackedTokens_iff.2 (.inr ⟨p, hp, List.mem_append_left _ hname⟩)
      exact hwritten ((h.tracks (.token name g)).1 htracked)

end Pass

open ColdStart (found failures)

/-- A token pass that starts from a store in which a check finds the cache ready, in which no read
fails and whose events are applied at the time of that check leaves the cache ready exactly if
every liquidity pool token of a stored pair is stored, and writes of now are fresh.  If the services
answer every read, no read fails. -/
theorem check_tokenPass_done_iff {S : Type} (src : Source (StateM S)) (policy : ReadPolicy)
    {s : Store} (hs : s.Sound) {m : Monitor} {now : Int} (hdone : (m.check s now).status = .done)
    (g : TokenGroup) {feed : EventFeed} (hopen : feed.isOpen = true) (st : S) :
    ∃ events failed,
      (refresh src policy g.task s feed st).1 =
        (.ok ⟨events.length, failed⟩, { feed with waiting := feed.waiting ++ events }) ∧
      (src.Answers → failed = 0) ∧
      (failed = 0 →
        (((m.check s now).check (StoreEvent.applyAll events now s) now).status = .done ↔
          s.HoldsPoolTokens ∧ (s.tokens.ids ≠ [] → 0 ≤ s.tokens.thresholds.of g))) := by
  have hregistry : g.task = .pairTokensAndFarms →
      (retry policy.retries src.pairAddresses st).1 = .ok [] := fun h => absurd h g.task_ne_first
  obtain ⟨results, hfitting, hout⟩ :=
    (leads_refresh hopen hregistry : Leads (refresh src policy g.task s feed) st _)
  refine ⟨found results, failures results, hout, fun hanswers => ?_, fun hfull => ?_⟩
  · refine ColdStart.failures_eq_zero_iff.2 fun r hr => ?_
    obtain ⟨cell, -, hfit⟩ := hfitting.exists_asked hr
    exact hfit.succeeds hanswers
  · obtain ⟨-, hpopulated, hfresh⟩ := (m.check_done_iff s now).1 hdone
    have hrefreshed : Refreshed now [g.task] s (StoreEvent.applyAll (found results) now s) :=
      (hfitting.covers hfull).refreshed hs g.task_ne_first
    have hpopulated' : (StoreEvent.applyAll (found results) now s).populated = true :=
      (congrArg (fun settings => settings.2.2) hrefreshed.settings).trans hpopulated
    rw [Monitor.check_done_iff, isFresh_inspect_iff,
      hrefreshed.settled_iff hs (isFresh_inspect_iff.1 hfresh)]
    exact ⟨fun h => h.2.2, fun h => ⟨.inr hdone, hpopulated', h⟩⟩

section Pooled

/-- A populated store with one pair that has a liquidity pool token, and with the two tokens that
the pair trades, all written at the start. -/
def pooledStore : Store where
  pairs := .ofHistory (.uniform 10)
    [.put { pricedPair with tokens.liquidityPoolToken := some { identifier := "LP-1" } } 0]
  tokens := .ofHistory (.uniform 10)
    [.put { identifier := "T-2" } 0, .put { identifier := "T-1" } 0]
  populated := true

/-- The cache is ready; a pass over the prices stores the liquidity pool token, and it is not ready
any more. -/
theorem check_tokenPass_pooled :
    let m : Monitor := { status := .inProgress }
    ∃ events, (refresh TableSource.source pricedPolicy .tokenPrices pooledStore {}
        pricedSource).1 = (.ok ⟨3, 0⟩, { waiting := events }) ∧
      (m.check pooledStore 0).status = .done ∧
      ((m.check pooledStore 0).check (StoreEvent.applyAll events 0 pooledStore) 0).status ≠
        .done := by
  intro m
  have hsound : pooledStore.Sound := ⟨by decide +kernel, by decide +kernel⟩
  have hdone : (m.check pooledStore 0).status = .done := by decide +kernel
  obtain ⟨events, failed, hout, -, hready⟩ := check_tokenPass_done_iff TableSource.source
    pricedPolicy hsound hdone .prices (show ({} : EventFeed).isOpen = true from rfl) pricedSource
  have hcounted : (refresh TableSource.source pricedPolicy .tokenPrices pooledStore {}
      pricedSource).1.1 = .ok ⟨3, 0⟩ := by decide +kernel
  have hcounts : (Except.ok ⟨events.length, failed⟩ : Except Failure RefreshOutcome) = .ok ⟨3, 0⟩ :=
    (congrArg Prod.fst hout).symm.trans hcounted
  obtain ⟨hlength, rfl⟩ := RefreshOutcome.mk.inj (Except.ok.inj hcounts)
  refine ⟨events, ?_, hdone, fun hstill => ?_⟩
  · rw [← hlength]
    exact hout
  · have hpool := ((hready rfl).1 hstill).1
    unfold Store.HoldsPoolTokens at hpool
    revert hpool
    decide +kernel

end Pooled

end DexCache
