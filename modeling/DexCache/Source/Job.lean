import DexCache.Source.Basic
import DexCache.Source.Pool
import DexCache.Source.Retry

/-!
# Reads as jobs

What runs in a pool: a single read, or the three groups of a new entity read together.
Reads that belong together are attempted in order at each turn; the first that has failed
for good ends them all.
-/

namespace DexCache

/-- How reads are made: how often each is tried again, and how many run at a time. -/
structure ReadPolicy where
  retries : Nat
  width : Nat
deriving DecidableEq, Repr, Inhabited

/-- A single read of one entity. -/
structure Single (α : Type) where
  id : String
  part : Attempts α

namespace Single

/-- How many attempts there can still be. -/
def cost (s : Single α) : Nat :=
  s.part.cost

/-- The jobs that read each of these entities. -/
def start (policy : ReadPolicy) (ids : List String) : List (Single α) :=
  ids.map fun id => ⟨id, .left policy.retries⟩

/-- One attempt. -/
def turn [Monad m] (read : String → m (Except ε α)) (s : Single α) :
    m (Turn (Single α) (Except ε α) cost s) := do
  match ← s.part.advance (read s.id) with
  | .error e => return .finished (.error e)
  | .ok ⟨part, bound⟩ =>
    match open_ : part.value? with
    | some a => return .finished (.ok a)
    | none => return .waiting ⟨s.id, part⟩ (bound.2 open_)

end Single

/-- Three reads that belong together. -/
structure Triple (α β γ : Type) where
  first : Attempts α
  second : Attempts β
  third : Attempts γ

namespace Triple

/-- How many attempts there can still be at all three. -/
def cost (t : Triple α β γ) : Nat :=
  t.first.cost + t.second.cost + t.third.cost

/-- Three reads none of which was attempted. -/
def start (policy : ReadPolicy) : Triple α β γ :=
  ⟨.left policy.retries, .left policy.retries, .left policy.retries⟩

/-- One attempt of each read that has not succeeded. -/
def turn [Monad m] (readFirst : m (Except ε α)) (readSecond : m (Except ε β))
    (readThird : m (Except ε γ)) (t : Triple α β γ) :
    m (Turn (Triple α β γ) (Except ε (α × β × γ)) cost t) := do
  match ← t.first.advance readFirst with
  | .error e => return .finished (.error e)
  | .ok ⟨p, hp⟩ =>
  match ← t.second.advance readSecond with
  | .error e => return .finished (.error e)
  | .ok ⟨q, hq⟩ =>
  match ← t.third.advance readThird with
  | .error e => return .finished (.error e)
  | .ok ⟨r, hr⟩ =>
  match hp' : p.value?, hq' : q.value?, hr' : r.value? with
  | some a, some b, some c => return .finished (.ok (a, b, c))
  | none, _, _ =>
    return .waiting ⟨p, q, r⟩ (by have := hp.2 hp'; simp only [cost]; omega)
  | _, none, _ =>
    return .waiting ⟨p, q, r⟩ (by have := hq.2 hq'; simp only [cost]; omega)
  | _, _, none =>
    return .waiting ⟨p, q, r⟩ (by have := hr.2 hr'; simp only [cost]; omega)

end Triple

namespace Source

/-- A token that is to be read. -/
structure TokenJob where
  identifier : String
  parts : Triple TokenMetadata TokenPrices TokenAnalytics

/-- A pair that is to be read, with its references. -/
structure PairJob where
  address : String
  refs : PairRefs
  parts : Triple PairInfo PairPrices PairAnalytics

/-- How many attempts there can still be at the groups of a token. -/
def TokenJob.cost (j : TokenJob) : Nat := j.parts.cost

/-- How many attempts there can still be at the groups of a pair. -/
def PairJob.cost (j : PairJob) : Nat := j.parts.cost

variable [Monad m] (src : Source m)

/-- Attempts all groups of a token. -/
def tokenTurn (j : TokenJob) :
    m (Turn TokenJob (Except Failure Token) TokenJob.cost j) := do
  match ← j.parts.turn (src.tokenMetadata j.identifier) (src.tokenPrices j.identifier)
      (src.tokenAnalytics j.identifier) with
  | .finished (.error e) => return .finished (.error e)
  | .finished (.ok (metadata, prices, analytics)) =>
    return .finished (.ok ⟨j.identifier, metadata, prices, analytics⟩)
  | .waiting parts closer => return .waiting ⟨j.identifier, parts⟩ closer

/-- Attempts all groups of a pair but its tokens, which are copied. -/
def pairTurn (known : String → Option Token) (j : PairJob) :
    m (Turn PairJob (Except Failure Pair) PairJob.cost j) := do
  match ← j.parts.turn (src.pairInfo j.address) (src.pairPrices j.address)
      (src.pairAnalytics j.address) with
  | .finished (.error e) => return .finished (.error e)
  | .finished (.ok (info, prices, analytics)) =>
    return .finished (.ok ⟨j.address, j.refs.tokens known, info, prices, analytics⟩)
  | .waiting parts closer => return .waiting ⟨j.address, j.refs, parts⟩ closer

/-- Runs jobs and gives their results in the order of the jobs. -/
def batch {σ α : Type} {cost : σ → Nat} (policy : ReadPolicy)
    (turn : (job : σ) → m (Turn σ α cost job)) (jobs : List σ) : m (List α) := do
  return Pool.inOrder (← (Pool.ofJobs policy.width .asStarted jobs).run turn fun _ => false)

/-- Runs jobs and gives their results in the order of finishing; a result that says `stop` is
the last. -/
def stream {σ α : Type} {cost : σ → Nat} (policy : ReadPolicy)
    (turn : (job : σ) → m (Turn σ α cost job)) (stop : α → Bool) (jobs : List σ) :
    m (List α) := do
  return (← (Pool.ofJobs policy.width .asFinished jobs).run turn stop).map Prod.snd

end Source

end DexCache
