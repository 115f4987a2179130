/-!
# Trying again

A read may fail for a while.  It is attempted a fixed number of times, and only its last
failure counts.  Between two attempts it waits, which matters to the reads that run beside
it, so a read can also be taken one attempt at a time.
-/

namespace DexCache

/-- Attempts a read at most `attempts + 1` times. -/
def retry [Monad m] (attempts : Nat) (read : m (Except ε α)) : m (Except ε α) :=
  match attempts with
  | 0 => read
  | attempts + 1 => do
    match ← read with
    | .ok a => return .ok a
    | .error _ => retry attempts read

/-- A read between two attempts. -/
inductive Attempts (α : Type) where
  | succeeded (value : α)
  /-- So many attempts are left after the next one. -/
  | left (more : Nat)
deriving DecidableEq, Repr

namespace Attempts

/-- How many attempts there can still be. -/
def cost : Attempts α → Nat
  | succeeded _ => 0
  | left more => more + 1

/-- The value that was read. -/
def value? : Attempts α → Option α
  | succeeded a => some a
  | left _ => none

/-- What one more attempt leads to, unless it was the last and failed: a read that has
succeeded is left alone, any other comes closer to its end. -/
def Next (p : Attempts α) : Type :=
  { q : Attempts α // q.cost ≤ p.cost ∧ (q.value? = none → q.cost < p.cost) }

/-- Makes an attempt, if there is still something to read. -/
def advance [Monad m] (read : m (Except ε α)) : (p : Attempts α) → m (Except ε p.Next)
  | succeeded a => return .ok ⟨succeeded a, Nat.le_refl _, fun h => nomatch h⟩
  | left 0 => do
    match ← read with
    | .ok a => return .ok ⟨succeeded a, Nat.zero_le _, fun h => nomatch h⟩
    | .error e => return .error e
  | left (more + 1) => do
    match ← read with
    | .ok a => return .ok ⟨succeeded a, Nat.zero_le _, fun h => nomatch h⟩
    | .error _ => return .ok ⟨left more, Nat.le_succ _, fun _ => Nat.lt_succ_self _⟩

end Attempts

end DexCache
