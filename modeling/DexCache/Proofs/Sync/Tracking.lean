import DexCache.Proofs.Sync.TokenPasses

/-!
# Token passes reach every token that is tracked

The tracked tokens are those that are stored and those that stored pairs name.  A token pass writes
one group of each and leaves the pairs alone, so the next pass tracks the same tokens, although the
store has grown.  After a pass for each group, at one time, every tracked token is stored and fresh.
-/

namespace DexCache

variable {s : Store} {now : Int}

/-! ### What is tracked -/

/-- What is stored is tracked first, in the order of the store. -/
theorem Store.ids_isPrefix_trackedTokens (h : s.tokens.ids.Nodup) :
    s.tokens.ids <+: s.trackedTokens := by
  rw [Store.trackedTokens, List.eraseDups_append, Distinct.eraseDups_eq_self h]
  exact List.prefix_append _ _

/-- Named by a pair are its first, its second and its liquidity pool token. -/
theorem Pair.mem_named_iff {p : Pair} {name : String} :
    name ∈ p.tokenIds ++ p.lpTokenId?.toList ↔
      p.firstTokenId? = some name ∨ p.secondTokenId? = some name ∨ p.lpTokenId? = some name := by
  simp [Pair.tokenIds, Option.mem_toList]

/-! ### The pairs stay as they are -/

namespace StoreEvent

/-- An event that writes no cell of a pair leaves the pairs as they are. -/
theorem pairs_apply {e : StoreEvent} (h : ∀ address g, .pair address g ∉ e.cells) (now : Int)
    (s : Store) : (e.apply now s).pairs = s.pairs := by
  cases e with
  | putPair p => exact absurd (by simp [cells, FieldGroup.mem_all]) (h p.address .info)
  | putToken t => rfl
  | patchPair address p => exact absurd (by simp [cells]) (h address p.group)
  | patchToken identifier p => rfl

theorem pairs_applyAll {events : List StoreEvent}
    (h : ∀ e ∈ events, ∀ address g, .pair address g ∉ e.cells) (now : Int) (s : Store) :
    (applyAll events now s).pairs = s.pairs := by
  induction events generalizing s with
  | nil => rfl
  | cons e events ih =>
      rw [List.forall_mem_cons] at h
      exact (ih h.2 (e.apply now s)).trans (pairs_apply h.1 now s)

end StoreEvent

namespace Cache

variable {S : Type} {src : Source (StateM S)} {policy : ReadPolicy} {c : Cache} {st : S}

open ColdStart (found failures mem_found_iff)

/-- A token pass sends no event that writes a pair, whatever fails. -/
theorem leads_refresh_token (g : TokenGroup) (hopen : c.feed.isOpen = true) :
    Leads (c.refresh src policy g.task) st fun out _ => ∃ events,
      (∀ e ∈ events, ∀ address pairGroup, .pair address pairGroup ∉ e.cells) ∧
        out.2 = c.queued events := by
  have hregistry : g.task = .pairTokensAndFarms →
      (retry policy.retries src.pairAddresses st).1 = .ok [] := fun h => absurd h g.task_ne_first
  refine (DexCache.leads_refresh hopen hregistry).bind fun out st' h => ?_
  obtain ⟨results, hfitting, rfl⟩ := h
  refine ⟨found results, fun e he address pairGroup hcell => ?_, rfl⟩
  obtain ⟨asked, hasked, hfit⟩ := hfitting.exists_asked (mem_found_iff.1 he)
  have htask := ((RefreshTask.mem_asked_iff g.task_ne_first).1 hasked).1
  rcases hfit.serves e rfl with hone | ⟨p, -, -, rfl⟩
  · rw [hone, List.mem_singleton] at hcell
    exact Cell.task_pair_ne address pairGroup g (hcell ▸ htask)
  · exact Cell.task_pair_ne _ _ g htask

/-- Token passes leave the pairs as they are. -/
theorem leads_pairs_refreshAll (groups : List TokenGroup) (hopen : c.feed.isOpen = true)
    (hwaiting : c.feed.waiting = []) :
    Leads (refreshAll src policy now (groups.map TokenGroup.task) c) st fun out _ =>
      out.2.store.pairs = c.store.pairs := by
  induction groups generalizing c st with
  | nil => rfl
  | cons g groups ih =>
      refine (leads_refresh_token g hopen).bind fun out st' h => ?_
      obtain ⟨outcome, ended⟩ := out
      obtain ⟨events, hevents, rfl⟩ := h
      -- the store that the next pass finds, with nothing waiting
      let next := ((c.queued events).drain now).2
      have hnext : next.store.pairs = c.store.pairs := by
        rw [store_drain_queued, store_drain, hwaiting]
        exact StoreEvent.pairs_applyAll hevents now c.store
      refine (ih (c := next) hopen rfl).bind fun out st'' h => ?_
      exact h.trans hnext

end Cache

/-! ### Every tracked token becomes fresh -/

section Passes

variable {s' : Store} {tasks : List RefreshTask}

/-- After a pass for each group nothing is stale or missing among the tokens. -/
theorem Refreshed.tokens_fresh (h : Refreshed now tasks s s')
    (htasks : ∀ g : TokenGroup, g.task ∈ tasks) (hages : ∀ g, 0 ≤ s.tokens.thresholds.of g) :
    (s'.inspect now).staleTokens = [] ∧ (s'.inspect now).missingTokens = [] := by
  -- what is tracked afterwards was tracked before, so each pass has written its group
  have hfresh {identifier : String} (htracked : identifier ∈ s'.trackedTokens) (g : TokenGroup) :
      s'.Fresh now (.token identifier g) := by
    have hbefore : s.Tracks (.token identifier g) := (h.tracks (.token identifier g)).1 htracked
    have htask : (Cell.token identifier g).task ∈ tasks := by
      rw [TokenGroup.task_token]
      exact htasks g
    exact (h.fresh_written_iff hbefore htask).2 (hages g)
  rw [Store.inspect, ← List.isEmpty_iff, ← List.isEmpty_iff, Collection.staleIds_isEmpty,
    Collection.allFresh_all_iff, Store.missingTokens_isEmpty_iff]
  constructor
  · intro e he g
    have hstored : Entity.id e.snapshot ∈ s'.tokens.ids := List.mem_map_of_mem he
    exact (h.sound.fresh_token_iff he g).1
      (hfresh (Store.mem_trackedTokens_iff.2 (.inl hstored)) g)
  · intro p hp name hname
    have htracked : name ∈ s'.trackedTokens :=
      Store.mem_trackedTokens_iff.2 (.inr ⟨p, hp, List.mem_append_left _ hname⟩)
    obtain ⟨time, htime, -⟩ := hfresh htracked .metadata
    exact Collection.mem_ids_iff.1 (Store.mem_tokens_ids_of_lastUpdate? htime)

end Passes

namespace Cache

variable {S : Type} {src : Source (StateM S)} {policy : ReadPolicy} {c : Cache} {st : S}

/-- Tracked are the stored tokens, in the order of the store, and then those that stored pairs name,
each once.  After a pass for each group of the tokens, in any order and at one time, no token is
stale or missing if no read has failed; if the services answer every read, none fails.  The pairs
are as they were, whatever fails. -/
theorem tokenPasses_cover :
    (∀ s : Store, s.trackedTokens.Nodup ∧ (s.Sound → s.tokens.ids <+: s.trackedTokens) ∧
      ∀ name, name ∈ s.trackedTokens ↔ name ∈ s.tokens.ids ∨ ∃ p ∈ s.pairs.all,
        p.firstTokenId? = some name ∨ p.secondTokenId? = some name ∨ p.lpTokenId? = some name) ∧
    ∀ {S : Type} (src : Source (StateM S)) (policy : ReadPolicy) (now : Int) (c : Cache) (st : S),
      c.store.Sound → c.feed.isOpen = true → c.feed.waiting = [] →
      (∀ g, 0 ≤ c.store.tokens.thresholds.of g) →
      ∀ groups : List TokenGroup, groups.Perm FieldGroup.all →
      let passes := (c.refreshAll src policy now (groups.map TokenGroup.task) st).1
      (src.Answers → ∀ outcome ∈ passes.1, RefreshOutcome.Full outcome) ∧
        ((∀ outcome ∈ passes.1, RefreshOutcome.Full outcome) →
          (passes.2.store.inspect now).staleTokens = [] ∧
            (passes.2.store.inspect now).missingTokens = []) ∧
        passes.2.store.pairs = c.store.pairs := by
  constructor
  · intro s
    refine ⟨Distinct.nodup_eraseDups _, fun hs => Store.ids_isPrefix_trackedTokens hs.tokens, ?_⟩
    simp only [Store.mem_trackedTokens_iff, Pair.mem_named_iff, implies_true]
  intro S src policy now c st hs hopen hwaiting hages groups hgroups passes
  have hlater : .pairTokensAndFarms ∉ groups.map TokenGroup.task := by
    rw [List.mem_map]
    rintro ⟨g, -, hg⟩
    exact g.task_ne_first hg
  have htasks (g : TokenGroup) : g.task ∈ groups.map TokenGroup.task :=
    List.mem_map_of_mem (hgroups.mem_iff.2 (FieldGroup.mem_all g))
  have hround : Leads (refreshAll src policy now (groups.map TokenGroup.task) c) st _ :=
    leads_refreshAll hlater hopen hwaiting hs
  have hpairs : Leads (refreshAll src policy now (groups.map TokenGroup.task) c) st _ :=
    leads_pairs_refreshAll groups hopen hwaiting
  obtain ⟨hanswers, hrefreshed, -⟩ := hround
  exact ⟨hanswers, fun hfull => (hrefreshed hfull).tokens_fresh htasks hages, hpairs⟩

section Sparse

/-- A cache with one pair: of its first token only the prices were written, and neither its second
nor its liquidity pool token is stored. -/
def sparse : Cache where
  store :=
    { pairs := pooledStore.pairs
      tokens := .ofHistory (.uniform 10) [.patch "T-1" (.prices {}) 0] }
  bus := .ofCapacity 1

/-- Before the passes a check finds tokens stale and missing, after them it finds none. -/
theorem tokenPasses_cover_sparse :
    let passes := (sparse.refreshAll TableSource.source pricedPolicy 20
      [.tokenMetadata, .tokenPrices, .tokenAnalytics] pricedSource).1
    sparse.store.trackedTokens = ["T-1", "T-2", "LP-1"] ∧
      (sparse.store.inspect 20).staleTokens = ["T-1"] ∧
      (sparse.store.inspect 20).missingTokens = ["T-2"] ∧
      (passes.2.store.inspect 20).staleTokens = [] ∧
      (passes.2.store.inspect 20).missingTokens = [] ∧
      passes.2.store.pairs = pooledStore.pairs := by
  intro passes
  have hfull : ∀ outcome ∈ passes.1, RefreshOutcome.Full outcome := by decide +kernel
  obtain ⟨-, hcovered, hpairs⟩ := tokenPasses_cover.2 TableSource.source pricedPolicy 20 sparse
    pricedSource ⟨by decide +kernel, by decide +kernel⟩ rfl rfl (fun g => by cases g <;> decide)
    [.metadata, .prices, .analytics] (List.Perm.refl _)
  exact ⟨by decide +kernel, by decide +kernel, by decide +kernel, (hcovered hfull).1,
    (hcovered hfull).2, hpairs⟩

end Sparse

end Cache

end DexCache
