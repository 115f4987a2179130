import DexCache.Proofs.Source.Pool
import DexCache.Source.Table
import DexCache.Sync.Cache

/-!
# Reads written down

A source can write down every read that is made of it, with its answer.  That changes nothing
else: whatever is computed from the source comes out the same, and leaves the services in the
same state.

This holds of any computation that only makes reads.  It is shown of the steps of a cold start,
one after the other.
-/

namespace DexCache

/-- What a read of each kind gives. -/
def ReadKind.Answer : ReadKind → Type
  | .pairAddresses => List String
  | .blockNonce => UInt64
  | .pairRefs => PairRefs
  | .pairInfo => PairInfo
  | .pairPrices => PairPrices
  | .pairAnalytics => PairAnalytics
  | .tokenMetadata => TokenMetadata
  | .tokenPrices => TokenPrices
  | .tokenAnalytics => TokenAnalytics

/-- One attempt at a read, and its answer. -/
structure Reading where
  kind : ReadKind
  id : String
  answer : Except Failure kind.Answer

namespace Source

variable {S α β : Type}

/-- A read that is written down behind those before it. -/
def noted (kind : ReadKind) (id : String) (read : StateM S (Except Failure kind.Answer)) :
    StateM (S × List Reading) (Except Failure kind.Answer) := fun s =>
  ((read s.1).1, (read s.1).2, s.2 ++ [⟨kind, id, (read s.1).1⟩])

/-- A source that writes down all its reads. -/
def journaled (src : Source (StateM S)) : Source (StateM (S × List Reading)) where
  pairAddresses := noted .pairAddresses "" src.pairAddresses
  blockNonce := noted .blockNonce "" src.blockNonce
  pairRefs id := noted .pairRefs id (src.pairRefs id)
  pairInfo id := noted .pairInfo id (src.pairInfo id)
  pairPrices id := noted .pairPrices id (src.pairPrices id)
  pairAnalytics id := noted .pairAnalytics id (src.pairAnalytics id)
  tokenMetadata id := noted .tokenMetadata id (src.tokenMetadata id)
  tokenPrices id := noted .tokenPrices id (src.tokenPrices id)
  tokenAnalytics id := noted .tokenAnalytics id (src.tokenAnalytics id)

end Source

/-- Does a computation do what another does, but for what it writes down? -/
def Erases {S J α : Type} (x : StateM (S × J) α) (y : StateM S α) : Prop :=
  ∀ s, (x s).1 = (y s.1).1 ∧ (x s).2.1 = (y s.1).2

namespace Erases

variable {S J α β γ ε : Type}

theorem pure (a : α) : Erases (pure a : StateM (S × J) α) (pure a) := fun _ => ⟨rfl, rfl⟩

theorem bind {x : StateM (S × J) α} {y : StateM S α} {f : α → StateM (S × J) β}
    {g : α → StateM S β} (h : Erases x y) (hnext : ∀ a, Erases (f a) (g a)) :
    Erases (x >>= f) (y >>= g) := by
  intro s
  obtain ⟨hvalue, hstate⟩ := h s
  show (f (x s).1 (x s).2).1 = (g (y s.1).1 (y s.1).2).1 ∧
    (f (x s).1 (x s).2).2.1 = (g (y s.1).1 (y s.1).2).2
  rw [← hvalue, ← hstate]
  exact hnext (x s).1 (x s).2

theorem noted (kind : ReadKind) (id : String) (read : StateM S (Except Failure kind.Answer)) :
    Erases (Source.noted kind id read) read := fun _ => ⟨rfl, rfl⟩

variable {x : StateM (S × J) (Except ε α)} {y : StateM S (Except ε α)}

theorem retry (h : Erases x y) (attempts : Nat) :
    Erases (DexCache.retry attempts x) (DexCache.retry attempts y) := by
  induction attempts with
  | zero => exact h
  | succ attempts ih =>
      refine h.bind fun r => ?_
      cases r with
      | ok a => exact .pure _
      | error e => exact ih

theorem advance (h : Erases x y) (p : Attempts α) : Erases (p.advance x) (p.advance y) := by
  cases p with
  | succeeded a => exact .pure _
  | left more =>
      cases more with
      | zero =>
          refine h.bind fun r => ?_
          cases r <;> exact .pure _
      | succ more =>
          refine h.bind fun r => ?_
          cases r <;> exact .pure _

theorem singleTurn {read : String → StateM (S × J) (Except ε α)}
    {plain : String → StateM S (Except ε α)} (h : ∀ id, Erases (read id) (plain id))
    (job : Single α) : Erases (job.turn read) (job.turn plain) := by
  refine ((h job.id).advance job.part).bind fun r => ?_
  cases r with
  | error e => exact .pure _
  | ok next =>
      obtain ⟨part, bound⟩ := next
      simp only
      split
      · exact .pure _
      · exact .pure _

theorem tripleTurn {x' : StateM (S × J) (Except ε β)} {y' : StateM S (Except ε β)}
    {x'' : StateM (S × J) (Except ε γ)} {y'' : StateM S (Except ε γ)} (h : Erases x y)
    (h' : Erases x' y') (h'' : Erases x'' y'') (t : Triple α β γ) :
    Erases (t.turn x x' x'') (t.turn y y' y'') := by
  refine (h.advance t.first).bind fun r => ?_
  cases r with
  | error e => exact .pure _
  | ok first =>
  refine (h'.advance t.second).bind fun r => ?_
  cases r with
  | error e => exact .pure _
  | ok second =>
  refine (h''.advance t.third).bind fun r => ?_
  cases r with
  | error e => exact .pure _
  | ok third =>
      obtain ⟨⟨p, hp⟩, ⟨q, hq⟩, ⟨r, hr⟩⟩ := first, second, third
      simp only
      split <;> exact .pure _

theorem run {σ : Type} {cost : σ → Nat} {turn' : (job : σ) → StateM (S × J) (Turn σ α cost job)}
    {turn : (job : σ) → StateM S (Turn σ α cost job)} (h : ∀ job, Erases (turn' job) (turn job))
    (stop : α → Bool) (p : Pool σ) : Erases (p.run turn' stop) (p.run turn stop) := by
  induction hn : p.turnsLeft cost using Nat.strongRecOn generalizing p with
  | _ n ih =>
      subst hn
      cases hnext : p.next? with
      | none =>
          rw [Pool.run_of_done hnext, Pool.run_of_done hnext]
          exact .pure _
      | some found =>
          obtain ⟨job, rest⟩ := found
          rw [Pool.run_of_next? hnext, Pool.run_of_next? hnext]
          have hcost := Pool.turnsLeft_next? cost hnext
          refine (h job.2).bind fun made => ?_
          cases made with
          | finished a =>
              simp only
              split
              · exact .pure _
              · exact (ih _ (by omega) rest rfl).bind fun _ => .pure _
          | waiting again closer =>
              have hless := Pool.turnsLeft_wait cost rest (job.1, again)
              refine ih _ ?_ (rest.wait (job.1, again)) rfl
              simp only at hless
              omega

theorem batch {σ : Type} {cost : σ → Nat} {turn' : (job : σ) → StateM (S × J) (Turn σ α cost job)}
    {turn : (job : σ) → StateM S (Turn σ α cost job)} (h : ∀ job, Erases (turn' job) (turn job))
    (policy : ReadPolicy) (jobs : List σ) :
    Erases (Source.batch policy turn' jobs) (Source.batch policy turn jobs) :=
  (run h _ _).bind fun _ => .pure _

section Steps

variable (src : Source (StateM S))

theorem tokenTurn (job : Source.TokenJob) :
    Erases (src.journaled.tokenTurn job) (src.tokenTurn job) := by
  have hmetadata : Erases (src.journaled.tokenMetadata job.identifier)
      (src.tokenMetadata job.identifier) := noted _ _ _
  have hprices : Erases (src.journaled.tokenPrices job.identifier)
      (src.tokenPrices job.identifier) := noted _ _ _
  have hanalytics : Erases (src.journaled.tokenAnalytics job.identifier)
      (src.tokenAnalytics job.identifier) := noted _ _ _
  refine (tripleTurn hmetadata hprices hanalytics job.parts).bind fun made => ?_
  split <;> exact .pure _

theorem pairTurn (known : String → Option Token) (job : Source.PairJob) :
    Erases (src.journaled.pairTurn known job) (src.pairTurn known job) := by
  have hinfo : Erases (src.journaled.pairInfo job.address) (src.pairInfo job.address) :=
    noted _ _ _
  have hprices : Erases (src.journaled.pairPrices job.address) (src.pairPrices job.address) :=
    noted _ _ _
  have hanalytics : Erases (src.journaled.pairAnalytics job.address)
      (src.pairAnalytics job.address) := noted _ _ _
  refine (tripleTurn hinfo hprices hanalytics job.parts).bind fun made => ?_
  split <;> exact .pure _

theorem complete (policy : ReadPolicy) (now : Int) (c : ColdStart) :
    Erases (c.complete src.journaled policy now) (c.complete src policy now) := by
  have hrefs (id : String) : Erases (src.journaled.pairRefs id) (src.pairRefs id) := noted _ _ _
  refine (batch (singleTurn hrefs) policy _).bind fun refs => ?_
  refine (batch (tokenTurn src) policy _).bind fun tokens => ?_
  exact (batch (pairTurn src _) policy _).bind fun pairs => .pure _

theorem coldStart (policy : ReadPolicy) (checkpoint : Option Checkpoint) (now : Int) (s : Store)
    (monitor : Monitor) :
    Erases (DexCache.coldStart src.journaled policy checkpoint now s monitor)
      (DexCache.coldStart src policy checkpoint now s monitor) := by
  have hregistry : Erases src.journaled.pairAddresses src.pairAddresses := noted _ _ _
  refine (hregistry.retry policy.retries).bind fun r => ?_
  cases r with
  | error e => exact .pure _
  | ok registry => exact (complete src policy now _).bind fun c => .pure _

/-- A cold start does the same when all its reads are written down. -/
theorem cacheColdStart (policy : ReadPolicy) (c : Cache) (now : Int) :
    Erases (c.coldStart src.journaled policy now) (c.coldStart src policy now) :=
  (coldStart src policy _ now c.store c.monitor).bind fun _ => .pure _

end Steps

end Erases

end DexCache
