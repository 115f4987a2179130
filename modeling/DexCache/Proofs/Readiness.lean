import DexCache.Proofs.Store.History
import DexCache.Readiness

/-!
# When a check finds the cache ready

A check looks at what is stored: every group of every entity must be fresh, and the tokens that
stored pairs need must be stored.  What never reached the store leaves no trace in it.
-/

namespace DexCache

namespace Monitor

theorem status_publish (m : Monitor) (next : Readiness) : (m.publish next).status = next := by
  unfold publish
  split
  · assumption
  · rfl

/-- A check publishes readiness if the first start has begun without failing, the first
population has finished and nothing is stale or missing. -/
theorem check_done_iff (m : Monitor) (s : Store) (now : Int) :
    (m.check s now).status = .done ↔
      (m.status = .inProgress ∨ m.status = .done) ∧ s.populated = true ∧
        (s.inspect now).isFresh = true := by
  rw [check, status_publish]
  unfold evaluate
  cases m.status with
  | notStarted => simp
  | failed => simp
  | inProgress => simp
  | done => simp

end Monitor

/-- Everything that is stored is fresh, and the tokens that stored pairs need are there. -/
structure Settled (s : Store) (now : Int) : Prop where
  pairs : ∀ e ∈ s.pairs.entries, ∀ g, ∃ time,
    e.stamps.at? g = some time ∧ now - time ≤ s.pairs.thresholds.of g
  tokens : ∀ e ∈ s.tokens.entries, ∀ g, ∃ time,
    e.stamps.at? g = some time ∧ now - time ≤ s.tokens.thresholds.of g
  needed : ∀ p ∈ s.pairs.all, ∀ name ∈ p.tokenIds, s.tokens.contains name = true

theorem Collection.staleIds_isEmpty {α G P : Type} [DecidableEq G] [FieldGroup G]
    [Entity α G P] (c : Collection α G) (groups : List G) (now : Int) :
    (c.staleIds groups now).isEmpty = c.allFresh groups now := by
  rw [Bool.eq_iff_iff]
  simp [staleIds, allFresh, List.filter_eq_nil_iff]

theorem Collection.allFresh_all_iff {α G P : Type} [DecidableEq G] [FieldGroup G] [Entity α G P]
    {c : Collection α G} {now : Int} : c.allFresh FieldGroup.all now = true ↔
      ∀ e ∈ c.entries, ∀ g, ∃ time,
        e.stamps.at? g = some time ∧ now - time ≤ c.thresholds.of g := by
  rw [allFresh_iff]
  constructor
  · exact fun h e he g => h e he g (FieldGroup.mem_all g)
  · exact fun h e he g _ => h e he g

/-- No token is missing exactly if the tokens that pairs need are stored. -/
theorem Store.missingTokens_isEmpty_iff {s : Store} : s.missingTokens.isEmpty = true ↔
    ∀ p ∈ s.pairs.all, ∀ name ∈ p.tokenIds, s.tokens.contains name = true := by
  simp only [missingTokens, List.isEmpty_iff, List.filter_eq_nil_iff, List.mem_eraseDups,
    List.mem_flatMap]
  constructor
  · intro h p hp name hname
    simpa using h name ⟨p, hp, hname⟩
  · rintro h name ⟨p, hp, hname⟩
    simpa using h p hp name hname

/-- Nothing keeps a store from being fresh exactly if it is settled. -/
theorem isFresh_inspect_iff {s : Store} {now : Int} :
    (s.inspect now).isFresh = true ↔ Settled s now := by
  simp only [FreshnessReport.isFresh, Store.inspect, Bool.and_eq_true,
    Collection.staleIds_isEmpty, Collection.allFresh_all_iff, Store.missingTokens_isEmpty_iff]
  constructor
  · rintro ⟨⟨hpairs, htokens⟩, hneeded⟩
    exact ⟨hpairs, htokens, hneeded⟩
  · exact fun h => ⟨⟨h.pairs, h.tokens⟩, h.needed⟩

end DexCache
