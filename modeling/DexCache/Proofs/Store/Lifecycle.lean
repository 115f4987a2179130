import DexCache.Proofs.Readiness
import DexCache.Proofs.Store.Watched

/-!
# The readiness of a cache over time

Readiness is published by checks and marks only, and each of them can publish few states.  A check
finds the cache ready if it was started and has not failed, and if the writes that the cache has
seen cover it: the first population is noted, every group of every stored entity was last written
within its threshold, and both tokens of every stored pair are stored.
-/

namespace DexCache

/-- Has every group of every stored entity a last write that is not too old? -/
def Write.Covers {α G P : Type} [DecidableEq G] [FieldGroup G] [Entity α G P]
    (t : Thresholds G) (writes : List (Write α P)) (now : Int) : Prop :=
  ∀ a ∈ (Collection.ofHistory t writes).all, ∀ g : G,
    ∃ time, Write.last? (Entity.id a) g writes = some time ∧ now - time ≤ t.of g

/-- Freshness of all entries is a matter of the writes. -/
theorem Collection.fresh_ofHistory_iff {α G P : Type} [DecidableEq G] [FieldGroup G]
    [Entity α G P] {t : Thresholds G} {writes : List (Write α P)} {now : Int} :
    (∀ e ∈ (ofHistory t writes).entries, ∀ g, ∃ time, e.stamps.at? g = some time ∧
      now - time ≤ (ofHistory t writes).thresholds.of g) ↔ Write.Covers t writes now := by
  rw [Write.Covers, all, List.forall_mem_map, thresholds_ofHistory]
  refine forall₂_congr fun e he => forall_congr' fun g => ?_
  rw [at?_of_mem_ofHistory he g]

namespace Watched

variable (pairs : Thresholds PairGroup) (tokens : Thresholds TokenGroup)

/-- Has the cache after these steps all that it needs to be ready at a time? -/
structure Covered (history : List Step) (now : Int) : Prop where
  populated : (ofHistory pairs tokens history).store.populated = true
  pairsFresh : Write.Covers pairs (pairWrites history) now
  tokensFresh : Write.Covers tokens (tokenWrites history) now
  first : ∀ p ∈ (ofHistory pairs tokens history).store.pairs.all, ∀ name ∈ p.firstTokenId?,
    (ofHistory pairs tokens history).store.tokens.contains name = true
  second : ∀ p ∈ (ofHistory pairs tokens history).store.pairs.all, ∀ name ∈ p.secondTokenId?,
    (ofHistory pairs tokens history).store.tokens.contains name = true

/-- A store is populated and nothing keeps it from being fresh exactly if the cache is covered. -/
theorem covered_iff {history : List Step} {now : Int} :
    (ofHistory pairs tokens history).store.populated = true ∧
        ((ofHistory pairs tokens history).store.inspect now).isFresh = true ↔
      Covered pairs tokens history now := by
  have hneeded (p : Pair) (there : String → Prop) : (∀ name ∈ p.tokenIds, there name) ↔
      (∀ name ∈ p.firstTokenId?, there name) ∧ ∀ name ∈ p.secondTokenId?, there name := by
    simp only [Pair.tokenIds, List.forall_mem_append, Option.mem_toList, Option.mem_def]
  rw [isFresh_inspect_iff]
  constructor
  · rintro ⟨hpopulated, hsettled⟩
    have hpairs := hsettled.pairs
    have htokens := hsettled.tokens
    rw [pairs_ofHistory, Collection.fresh_ofHistory_iff] at hpairs
    rw [tokens_ofHistory, Collection.fresh_ofHistory_iff] at htokens
    exact ⟨hpopulated, hpairs, htokens, fun p hp => ((hneeded p _).1 (hsettled.needed p hp)).1,
      fun p hp => ((hneeded p _).1 (hsettled.needed p hp)).2⟩
  · intro h
    refine ⟨h.populated, ?_, ?_, fun p hp => (hneeded p _).2 ⟨h.first p hp, h.second p hp⟩⟩
    · rw [pairs_ofHistory]
      exact Collection.fresh_ofHistory_iff.2 h.pairsFresh
    · rw [tokens_ofHistory]
      exact Collection.fresh_ofHistory_iff.2 h.tokensFresh

end Watched

/-- Has the first start begun and not failed? -/
def Readiness.Running (status : Readiness) : Prop :=
  status = .inProgress ∨ status = .done

instance (status : Readiness) : Decidable status.Running :=
  inferInstanceAs (Decidable (_ ∨ _))

/-- A check leaves what it finds before a start and after a failure, and otherwise publishes
whether the store is populated and fresh. -/
theorem Monitor.evaluate_eq (m : Monitor) (s : Store) (now : Int) :
    m.evaluate s now = if m.status.Running then
      if s.populated = true ∧ (s.inspect now).isFresh = true then .done else .inProgress
    else m.status := by
  unfold evaluate Readiness.Running
  cases m.status <;> simp

namespace Watched

/-- What one step may do to a cache; `covered` tells at which times it had all that it needs. -/
structure Lifecycle (before after : Watched) (s : Step) (covered : Int → Prop) : Prop where
  /-- A check publishes what it returns: whether a running cache has all that it needs. -/
  checked : ∀ now, s = .check now →
    after.monitor.status = before.monitor.evaluate before.store now ∧
      (after.monitor.status = .done ↔ before.monitor.status.Running ∧ covered now) ∧
      (before.monitor.status.Running → ¬ covered now → after.monitor.status = .inProgress)
  /-- Before a start and after a failure only a start changes what is published. -/
  idle : ¬ before.monitor.status.Running → after.monitor.status =
    if s = .markStarted then .inProgress else before.monitor.status
  failed : before.monitor.status ≠ .failed →
    (after.monitor.status = .failed ↔ s = .markFailed ∧ before.monitor.status = .inProgress)
  done : before.monitor.status ≠ .done →
    (after.monitor.status = .done ↔
      ∃ now, s = .check now ∧ before.monitor.status = .inProgress ∧ covered now)
  store : s = .markStarted ∨ s = .markFailed ∨ (∃ now, s = .check now) →
    after.store = before.store
  /-- The first population is noted in the store, and nothing else changes there. -/
  populated : s = .markPopulated → after.store = { before.store with populated := true }

/-- A step publishes by the rule of its kind. -/
theorem status_step (w : Watched) (s : Step) : (w.step s).monitor.status =
    match s with
    | .markStarted => .inProgress
    | .markFailed => if w.monitor.status = .inProgress then .failed else w.monitor.status
    | .check now => w.monitor.evaluate w.store now
    | _ => w.monitor.status := by
  cases s with
  | markStarted => exact Monitor.status_publish _ _
  | check now => exact Monitor.status_publish _ _
  | markFailed =>
      simp only [step, Monitor.markFailed]
      split
      · exact Monitor.status_publish _ _
      · rfl
  | pairs _ => rfl
  | tokens _ => rfl
  | markPopulated => rfl
  | close => rfl

theorem lifecycle_step (w : Watched) (s : Step) :
    Lifecycle w (w.step s) s fun now =>
      w.store.populated = true ∧ (w.store.inspect now).isFresh = true := by
  have hstatus := status_step w s
  refine { checked := ?_, idle := ?_, failed := ?_, done := ?_, store := ?_, populated := ?_ }
  · rintro now rfl
    refine ⟨hstatus, w.monitor.check_done_iff w.store now, fun hrunning hcovered => ?_⟩
    rw [hstatus]
    simp only [w.monitor.evaluate_eq, if_pos hrunning, if_neg hcovered]
  · intro hidle
    rw [hstatus]
    cases s with
    | check now => simp [w.monitor.evaluate_eq, hidle]
    | markFailed => simp [show w.monitor.status ≠ .inProgress from fun h => hidle (.inl h)]
    | _ => simp
  · intro hne
    rw [hstatus]
    cases s with
    | check now =>
        simp only [w.monitor.evaluate_eq]
        split_ifs <;> simp [hne]
    | _ => simp [hne]
  · intro hne
    cases s with
    | check now =>
        have hdone := w.monitor.check_done_iff w.store now
        simp only [hne, or_false] at hdone
        show (w.monitor.check w.store now).status = .done ↔ _
        simpa using hdone
    | markFailed =>
        rw [hstatus]
        simp only
        split_ifs <;> simp [hne]
    | _ => rw [hstatus]; simp [hne]
  · rintro (rfl | rfl | ⟨now, rfl⟩)
    all_goals rfl
  · rintro rfl
    rfl

/-- In every run each step changes the readiness of the cache as the rule of its kind says, and
a running cache is found ready exactly when the writes that it has seen cover it. -/
theorem lifecycle (pairs : Thresholds PairGroup) (tokens : Thresholds TokenGroup)
    (history : List Step) (s : Step) :
    Lifecycle (ofHistory pairs tokens history) (ofHistory pairs tokens (s :: history)) s
      (Covered pairs tokens history) := by
  have hcovered : Covered pairs tokens history = fun now =>
      (ofHistory pairs tokens history).store.populated = true ∧
        ((ofHistory pairs tokens history).store.inspect now).isFresh = true :=
    funext fun _ => propext (covered_iff pairs tokens).symm
  rw [hcovered]
  exact lifecycle_step _ s

end Watched

end DexCache
