import DexCache.Checkpoint
import DexCache.Readiness
import DexCache.Source.Job

/-!
# Cold start

The first population of the store.  A registered pair that the latest checkpoint has, with
both of its tokens, is restored; everything else is read.  The pairs are stored in the
order of the registry whatever the order in which reads finish.

The work is done in four steps, each a function of what was read before it, so that the
outcome can be described without speaking of the reads.
-/

namespace DexCache

/-- What a cold start has done. -/
structure ColdStartReport where
  restoredPairs : Nat := 0
  fetchedPairs : Nat := 0
  restoredTokens : Nat := 0
  fetchedTokens : Nat := 0
  failed : Nat := 0
deriving DecidableEq, Repr, Inhabited

/-- A pair of a checkpoint and its tokens, if both are there. -/
def Checkpoint.restorable? (c : Checkpoint) (address : String) : Option (Pair × List Token) := do
  let p ← c.pair? address
  if p.tokenIds.length < 2 then none
  let tokens ← p.tokenIds.mapM c.token?
  return (p, tokens)

/-- A cold start under way. -/
structure ColdStart where
  registry : List String
  store : Store
  report : ColdStartReport := {}
  /-- The tokens that were stored. -/
  known : List Token := []
  /-- The pairs to be stored, the latest first, each with the time it is from. -/
  pairs : List (Pair × Int) := []
  /-- The addresses of pairs that must be read. -/
  fresh : List String := []
deriving Repr

namespace ColdStart

/-- The stored token with this identifier. -/
def token? (c : ColdStart) (identifier : String) : Option Token :=
  c.known.find? fun t => t.identifier = identifier

/-- Stores a token. -/
def addToken (c : ColdStart) (t : Token) (time : Int) : ColdStart :=
  { c with store := { c.store with tokens := c.store.tokens.put t time }, known := t :: c.known }

/-- Stores a token of a checkpoint unless it is there already. -/
def restoreToken (time : Int) (c : ColdStart) (t : Token) : ColdStart :=
  match c.token? t.identifier with
  | some _ => c
  | none =>
    let c := c.addToken t time
    { c with report := { c.report with restoredTokens := c.report.restoredTokens + 1 } }

/-- Restores a pair with its tokens. -/
def restorePair (time : Int) (c : ColdStart) (p : Pair) (tokens : List Token) : ColdStart :=
  let c := tokens.foldl (restoreToken time) c
  { c with
    pairs := (p, time) :: c.pairs
    report := { c.report with restoredPairs := c.report.restoredPairs + 1 } }

/-- Restores a registered pair, or notes that it must be read. -/
def visit (checkpoint : Option Checkpoint) (c : ColdStart) (address : String) : ColdStart :=
  match checkpoint.bind fun cp => (cp.restorable? address).map fun found => (cp, found) with
  | some (cp, p, tokens) => c.restorePair cp.createdAt.instant p tokens
  | none => { c with fresh := c.fresh ++ [address] }

/-- The first step: everything that can be restored is. -/
def ofRegistry (s : Store) (checkpoint : Option Checkpoint) (registry : List String) : ColdStart :=
  registry.foldl (visit checkpoint) { registry, store := s }

/-- Counts failures. -/
def addFailed (c : ColdStart) (count : Nat) : ColdStart :=
  { c with report := { c.report with failed := c.report.failed + count } }

/-- The pairs whose references were read. -/
def referenced (c : ColdStart) (results : List (Except Failure PairRefs)) :
    List (String × PairRefs) :=
  (c.fresh.zip results).filterMap fun (address, result) =>
    result.toOption.map fun refs => (address, refs)

/-- The tokens that these pairs need and that were not restored, each once. -/
def missingTokens (c : ColdStart) (pairs : List (String × PairRefs)) : List String :=
  (pairs.flatMap fun p => p.2.tokenIds).eraseDups.filter fun name => (c.token? name).isNone

/-- Stores a token that was read. -/
def acceptToken (now : Int) (c : ColdStart) : Except Failure Token → ColdStart
  | .ok t =>
    let c := c.addToken t now
    { c with report := { c.report with fetchedTokens := c.report.fetchedTokens + 1 } }
  | .error _ => c.addFailed 1

/-- Keeps a pair that was read. -/
def acceptPair (now : Int) (c : ColdStart) : Except Failure Pair → ColdStart
  | .ok p =>
    { c with
      pairs := (p, now) :: c.pairs
      report := { c.report with fetchedPairs := c.report.fetchedPairs + 1 } }
  | .error _ => c.addFailed 1

/-- The pair that is to be stored under an address, with its time. -/
def pair? (c : ColdStart) (address : String) : Option (Pair × Int) :=
  c.pairs.find? fun p => p.1.address = address

/-- The last step: the pairs are stored in the order of the registry. -/
def finish (c : ColdStart) : Store :=
  let pairs := (c.registry.eraseDups.filterMap c.pair?).foldl
    (fun pairs p => pairs.put p.1 p.2) c.store.pairs
  { c.store with pairs }.markPopulated

/-- Reads what could not be restored and finishes. -/
def complete [Monad m] (src : Source m) (policy : ReadPolicy) (now : Int) (c : ColdStart) :
    m ColdStart := do
  let refs ← Source.batch policy (Single.turn src.pairRefs) (Single.start policy c.fresh)
  let referenced := c.referenced refs
  let c := c.addFailed (c.fresh.length - referenced.length)
  let tokens ← Source.batch policy src.tokenTurn
    ((c.missingTokens referenced).map fun name => ⟨name, .start policy⟩)
  let c := tokens.foldl (acceptToken now) c
  let pairs ← Source.batch policy (src.pairTurn c.token?)
    (referenced.map fun (address, refs) => ⟨address, refs, .start policy⟩)
  return pairs.foldl (acceptPair now) c

end ColdStart

/-- Populates the store, starting from a checkpoint if there is one.  If the registry cannot
be read nothing is stored and the cache has failed. -/
def coldStart [Monad m] (src : Source m) (policy : ReadPolicy) (checkpoint : Option Checkpoint)
    (now : Int) (s : Store) (monitor : Monitor) :
    m (Except Failure ColdStartReport × Store × Monitor) := do
  let monitor := monitor.markStarted
  match ← retry policy.retries src.pairAddresses with
  | .error e => return (.error (.during "pair registry unavailable" e), s, monitor.markFailed)
  | .ok registry =>
    let c ← (ColdStart.ofRegistry s checkpoint registry).complete src policy now
    let s := c.finish
    return (.ok c.report, s, monitor.check s now)

end DexCache
