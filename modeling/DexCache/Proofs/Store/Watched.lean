import DexCache.Proofs.Store.History
import DexCache.Interception.Store

/-!
# A store and its monitor over time

A running cache changes its store and the published readiness in single steps, in any order
and at any times.  This module gives the steps, the state after any of them, and the writes
that each collection has seen; a store that is closed is cleared once.  Every statement about
a reachable state is a statement about such a list of steps.

The latest step comes first.
-/

namespace DexCache

/-- A store and the monitor that watches it. -/
structure Watched where
  store : Store
  monitor : Monitor := {}

namespace Watched

/-- One change of a store or of its monitor. -/
inductive Step where
  | pairs (w : Write Pair PairPatch)
  | tokens (w : Write Token TokenPatch)
  | markPopulated
  | close
  | markStarted
  | markFailed
  | check (now : Int)
deriving DecidableEq, Repr

/-- The state after one step. -/
def step (w : Watched) : Step → Watched
  | .pairs write => { w with store := { w.store with pairs := w.store.pairs.apply write } }
  | .tokens write => { w with store := { w.store with tokens := w.store.tokens.apply write } }
  | .markPopulated => { w with store := w.store.markPopulated }
  | .close => { w with store := w.store.close }
  | .markStarted => { w with monitor := w.monitor.markStarted }
  | .markFailed => { w with monitor := w.monitor.markFailed }
  | .check now => { w with monitor := w.monitor.check w.store now }

/-- The state that steps lead to from an empty store before the first start. -/
def ofHistory (pairs : Thresholds PairGroup) (tokens : Thresholds TokenGroup) :
    List Step → Watched
  | [] => { store := .empty pairs tokens }
  | s :: earlier => (ofHistory pairs tokens earlier).step s

/-- What hooks see of this state. -/
def view (w : Watched) (now : Int) : Interception.View :=
  ⟨w.store, w.monitor.status, now⟩

/-- The writes to pairs among steps; only the first closing drops anything. -/
def pairWrites : List Step → List (Write Pair PairPatch)
  | [] => []
  | .pairs w :: earlier => w :: pairWrites earlier
  | .close :: earlier =>
    if .close ∈ earlier then pairWrites earlier else .clear :: pairWrites earlier
  | _ :: earlier => pairWrites earlier

/-- The writes to tokens among steps; only the first closing drops anything. -/
def tokenWrites : List Step → List (Write Token TokenPatch)
  | [] => []
  | .tokens w :: earlier => w :: tokenWrites earlier
  | .close :: earlier =>
    if .close ∈ earlier then tokenWrites earlier else .clear :: tokenWrites earlier
  | _ :: earlier => tokenWrites earlier

variable (pairs : Thresholds PairGroup) (tokens : Thresholds TokenGroup)

/-- A store counts as closed once a closing is among its steps. -/
theorem closed_ofHistory (history : List Step) :
    (ofHistory pairs tokens history).store.closed = decide (Step.close ∈ history) := by
  induction history with
  | nil => rfl
  | cons s earlier ih =>
      cases s with
      | close =>
          simp only [ofHistory, step, Store.close]
          split
          · next h => simpa using h
          · simp
      | _ => simpa [ofHistory, step, Store.markPopulated] using ih

/-- The pairs are the outcome of the writes to pairs. -/
theorem pairs_ofHistory (history : List Step) :
    (ofHistory pairs tokens history).store.pairs =
      Collection.ofHistory pairs (pairWrites history) := by
  induction history with
  | nil => rfl
  | cons s earlier ih =>
      cases s with
      | pairs w => simp [ofHistory, step, pairWrites, Collection.ofHistory, ih]
      | close =>
          have hclosed := closed_ofHistory pairs tokens earlier
          by_cases h : Step.close ∈ earlier
          · simp [ofHistory, step, Store.close, pairWrites, hclosed, h, ih]
          · simp [ofHistory, step, Store.close, pairWrites, hclosed, h, ih,
              Collection.ofHistory, Collection.apply]
      | _ => simpa [ofHistory, step, Store.markPopulated, pairWrites] using ih

/-- The tokens are the outcome of the writes to tokens. -/
theorem tokens_ofHistory (history : List Step) :
    (ofHistory pairs tokens history).store.tokens =
      Collection.ofHistory tokens (tokenWrites history) := by
  induction history with
  | nil => rfl
  | cons s earlier ih =>
      cases s with
      | tokens w => simp [ofHistory, step, tokenWrites, Collection.ofHistory, ih]
      | close =>
          have hclosed := closed_ofHistory pairs tokens earlier
          by_cases h : Step.close ∈ earlier
          · simp [ofHistory, step, Store.close, tokenWrites, hclosed, h, ih]
          · simp [ofHistory, step, Store.close, tokenWrites, hclosed, h, ih,
              Collection.ofHistory, Collection.apply]
      | _ => simpa [ofHistory, step, Store.markPopulated, tokenWrites] using ih

/-- A store that is ready with one pair, just written. -/
def onePair (snapshot : Pair) (time : Int) : Watched :=
  ofHistory {} {} [.check time, .pairs (.put snapshot time), .markPopulated, .markStarted]

end Watched

end DexCache
