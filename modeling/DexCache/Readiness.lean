import DexCache.Store.Basic

/-!
# Readiness

The cache is ready when the first population has finished, every group of every stored
entity is fresh and both tokens of every pair are stored.  Readiness is evaluated from the
store and published; before a start and after a failure it stays as it is.
-/

namespace DexCache

/-- The published state of the cache. -/
inductive Readiness where
  | notStarted
  | inProgress
  | done
  | failed
deriving DecidableEq, Repr, Inhabited

/-- The name of a state. -/
def Readiness.name : Readiness → String
  | .notStarted => "NOT_STARTED"
  | .inProgress => "IN_PROGRESS"
  | .done => "DONE"
  | .failed => "FAILED"

/-- What keeps the store from being fresh. -/
structure FreshnessReport where
  stalePairs : List String
  staleTokens : List String
  missingTokens : List String
deriving DecidableEq, Repr

/-- Does nothing keep the store from being fresh? -/
def FreshnessReport.isFresh (r : FreshnessReport) : Bool :=
  r.stalePairs.isEmpty && r.staleTokens.isEmpty && r.missingTokens.isEmpty

/-- Everything outside its thresholds, and the tokens that are missing. -/
def Store.inspect (s : Store) (now : Int) : FreshnessReport :=
  { stalePairs := s.pairs.staleIds FieldGroup.all now
    staleTokens := s.tokens.staleIds FieldGroup.all now
    missingTokens := s.missingTokens }

/-- A state and how often it has changed. -/
structure Monitor where
  status : Readiness := .notStarted
  changes : Nat := 0
deriving DecidableEq, Repr, Inhabited

namespace Monitor

/-- Publishes a state; publishing the current one changes nothing. -/
def publish (m : Monitor) (next : Readiness) : Monitor :=
  if m.status = next then m else ⟨next, m.changes + 1⟩

/-- The first population begins. -/
def markStarted (m : Monitor) : Monitor :=
  m.publish .inProgress

/-- The first population has failed for good. -/
def markFailed (m : Monitor) : Monitor :=
  if m.status = .inProgress then m.publish .failed else m

/-- The state that a check would publish. -/
def evaluate (m : Monitor) (s : Store) (now : Int) : Readiness :=
  match m.status with
  | .notStarted => .notStarted
  | .failed => .failed
  | .inProgress | .done =>
    if s.populated && (s.inspect now).isFresh then .done else .inProgress

/-- Evaluates and publishes the state. -/
def check (m : Monitor) (s : Store) (now : Int) : Monitor :=
  m.publish (m.evaluate s now)

end Monitor

end DexCache
