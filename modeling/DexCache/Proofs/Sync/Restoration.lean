import DexCache.Proofs.Paired
import DexCache.Proofs.Source.Pool
import DexCache.Proofs.Store.History
import DexCache.Source.Table
import DexCache.Sync.ColdStart

/-!
# What a cold start restores

A registered pair that a checkpoint has with both its tokens is restored, and its tokens with
it: they are stored as they are in the checkpoint, and all their groups count as written when
the checkpoint was made.  What is read afterwards leaves them alone, because only other pairs
and tokens are read.

The reads may do anything, and may finish in any order.
-/

namespace DexCache

namespace Checkpoint

/-- What can be restored is in the checkpoint. -/
theorem of_restorable? {cp : Checkpoint} {address : String} {p : Pair} {tokens : List Token}
    (h : cp.restorable? address = some (p, tokens)) :
    cp.pair? address = some p ∧ p.address = address ∧
      ∀ t ∈ tokens, cp.token? t.identifier = some t := by
  simp only [restorable?, Option.bind_eq_bind, Option.bind_eq_some_iff] at h
  obtain ⟨p', hpair, h⟩ := h
  split at h
  · cases h
  · obtain ⟨tokens', htokens, h⟩ := Option.bind_eq_some_iff.1 h
    cases h
    refine ⟨hpair, by simpa using List.find?_some hpair, ?_⟩
    intro t ht
    obtain ⟨name, -, hname⟩ := Paired.exists_left (Paired.forall₂_of_mapM htokens) ht
    have hid : t.identifier = name := by simpa using List.find?_some hname
    rw [hid, hname]

end Checkpoint

namespace ColdStart

/-- What every step keeps, all steps keep. -/
theorem foldl_keeps {α β γ : Type} (kept : β → γ) {step : β → α → β}
    (h : ∀ b a, kept (step b a) = kept b) (xs : List α) (b : β) :
    kept (xs.foldl step b) = kept b := by
  induction xs generalizing b with
  | nil => rfl
  | cons x xs ih => rw [List.foldl_cons, ih, h]

/-- What a cold start leaves alone until it finishes. -/
def frame (c : ColdStart) :
    List String × Collection Pair PairGroup × Thresholds TokenGroup :=
  (c.registry, c.store.pairs, c.store.tokens.thresholds)

/-- A cold start that has restored what it can of these addresses and read nothing yet. -/
structure Restoring (cp : Checkpoint) (visited : List String) (c : ColdStart) : Prop where
  tokens : ∀ t ∈ c.known, cp.token? t.identifier = some t ∧
    c.store.tokens.find? t.identifier = some ⟨t, .all cp.createdAt.instant⟩
  pairs : ∀ e ∈ c.pairs, cp.pair? e.1.address = some e.1 ∧ e.2 = cp.createdAt.instant
  fresh : ∀ address ∈ c.fresh, cp.restorable? address = none
  restored : ∀ address ∈ visited, ∀ p tokens, cp.restorable? address = some (p, tokens) →
    (p, cp.createdAt.instant) ∈ c.pairs ∧ ∀ t ∈ tokens, t ∈ c.known

theorem token?_eq_none_iff {c : ColdStart} {name : String} :
    c.token? name = none ↔ ∀ t ∈ c.known, t.identifier ≠ name := by
  simp [token?]

/-- Restoring a token of the checkpoint makes it known and keeps everything else. -/
theorem Restoring.restoreToken {cp : Checkpoint} {visited : List String} {c : ColdStart}
    (h : Restoring cp visited c) {t : Token} (ht : cp.token? t.identifier = some t) :
    Restoring cp visited (restoreToken cp.createdAt.instant c t) ∧
      t ∈ (ColdStart.restoreToken cp.createdAt.instant c t).known ∧
      ∀ t' ∈ c.known, t' ∈ (ColdStart.restoreToken cp.createdAt.instant c t).known := by
  unfold ColdStart.restoreToken
  cases hknown : c.token? t.identifier with
  | some t' =>
      have hmem : t' ∈ c.known := List.mem_of_find?_eq_some hknown
      -- the token is known already, and as the checkpoint has it
      have hid : t'.identifier = t.identifier := by simpa using List.find?_some hknown
      have heq : t' = t := by
        have htoken := (h.tokens t' hmem).1
        rw [hid, ht] at htoken
        exact (Option.some.inj htoken).symm
      exact ⟨h, heq ▸ hmem, fun _ h => h⟩
  | none =>
      have hnew := token?_eq_none_iff.1 hknown
      refine ⟨⟨?_, h.pairs, h.fresh, ?_⟩, List.mem_cons_self, fun _ h => List.mem_cons_of_mem _ h⟩
      · intro t' ht'
        rcases List.mem_cons.1 ht' with rfl | ht'
        · exact ⟨ht, Collection.find?_put_self _ t' _⟩
        · obtain ⟨htoken, hfound⟩ := h.tokens t' ht'
          exact ⟨htoken, (Collection.find?_put_of_ne _ t _ (hnew t' ht')).trans hfound⟩
      · intro address haddress p tokens hrestorable
        obtain ⟨hpair, htokens⟩ := h.restored address haddress p tokens hrestorable
        exact ⟨hpair, fun t' ht' => List.mem_cons_of_mem _ (htokens t' ht')⟩

theorem Restoring.restoreTokens {cp : Checkpoint} {visited : List String} {tokens : List Token}
    (htokens : ∀ t ∈ tokens, cp.token? t.identifier = some t) {c : ColdStart}
    (h : Restoring cp visited c) :
    Restoring cp visited (tokens.foldl (ColdStart.restoreToken cp.createdAt.instant) c) ∧
      (∀ t ∈ tokens, t ∈ (tokens.foldl (ColdStart.restoreToken cp.createdAt.instant) c).known) ∧
      ∀ t ∈ c.known, t ∈ (tokens.foldl (ColdStart.restoreToken cp.createdAt.instant) c).known := by
  induction tokens generalizing c with
  | nil => exact ⟨h, by simp, fun _ h => h⟩
  | cons t rest ih =>
      obtain ⟨hstep, hnew, hkept⟩ := h.restoreToken (htokens t List.mem_cons_self)
      obtain ⟨hrest, hrestNew, hrestKept⟩ :=
        ih (fun t' ht' => htokens t' (List.mem_cons_of_mem _ ht')) hstep
      refine ⟨hrest, ?_, fun t' ht' => hrestKept t' (hkept t' ht')⟩
      intro t' ht'
      rcases List.mem_cons.1 ht' with rfl | ht'
      · exact hrestKept t' hnew
      · exact hrestNew t' ht'

theorem visit_of_restorable {cp : Checkpoint} {address : String} {p : Pair} {tokens : List Token}
    (h : cp.restorable? address = some (p, tokens)) (c : ColdStart) :
    visit (some cp) c address = c.restorePair cp.createdAt.instant p tokens := by
  simp [visit, h]

theorem visit_of_not_restorable {cp : Checkpoint} {address : String}
    (h : cp.restorable? address = none) (c : ColdStart) :
    visit (some cp) c address = { c with fresh := c.fresh ++ [address] } := by
  simp [visit, h]

/-- Visiting a registered address restores its pair or notes that it must be read. -/
theorem Restoring.visit {cp : Checkpoint} {visited : List String} {c : ColdStart}
    (h : Restoring cp visited c) (address : String) :
    Restoring cp (address :: visited) (ColdStart.visit (some cp) c address) := by
  cases hrestorable : cp.restorable? address with
  | none =>
      rw [visit_of_not_restorable hrestorable]
      refine ⟨h.tokens, h.pairs, ?_, ?_⟩
      · intro a ha
        rcases List.mem_append.1 ha with ha | ha
        · exact h.fresh a ha
        · rw [List.mem_singleton.1 ha, hrestorable]
      · intro a ha p tokens hfound
        rcases List.mem_cons.1 ha with rfl | ha
        · rw [hrestorable] at hfound
          cases hfound
        · exact h.restored a ha p tokens hfound
  | some found =>
      obtain ⟨p, tokens⟩ := found
      obtain ⟨hpair, haddress, htokens⟩ := Checkpoint.of_restorable? hrestorable
      obtain ⟨hstep, hnew, hkept⟩ := h.restoreTokens htokens
      rw [visit_of_restorable hrestorable]
      refine ⟨hstep.tokens, ?_, hstep.fresh, ?_⟩
      · intro e he
        rcases List.mem_cons.1 he with rfl | he
        · exact ⟨haddress ▸ hpair, rfl⟩
        · exact hstep.pairs e he
      · intro a ha p' tokens' hfound
        rcases List.mem_cons.1 ha with rfl | ha
        · rw [hrestorable] at hfound
          cases hfound
          exact ⟨List.mem_cons_self, hnew⟩
        · obtain ⟨hpair', htokens'⟩ := hstep.restored a ha p' tokens' hfound
          exact ⟨List.mem_cons_of_mem _ hpair', htokens'⟩

/-- After the first step everything that can be restored is. -/
theorem restoring_ofRegistry (cp : Checkpoint) (s : Store) (registry : List String) :
    Restoring cp registry (ofRegistry s (some cp) registry) := by
  -- each visit adds its address in front, so the visited ones are in reverse
  have hfold : ∀ (rest visited : List String) (c : ColdStart), Restoring cp visited c →
      Restoring cp (rest.reverse ++ visited) (rest.foldl (ColdStart.visit (some cp)) c) := by
    intro rest
    induction rest with
    | nil => exact fun _ _ h => h
    | cons a rest ih =>
        intro visited c h
        rw [List.reverse_cons, List.append_assoc]
        exact ih (a :: visited) _ (h.visit a)
  have hstart : Restoring cp [] { registry, store := s } := by constructor <;> simp
  have hall := hfold registry [] _ hstart
  refine ⟨hall.tokens, hall.pairs, hall.fresh, ?_⟩
  intro a ha
  exact hall.restored a (by simpa using ha)

/-- A restored pair is the one that is kept under its address. -/
theorem Restoring.pair?_of_mem {cp : Checkpoint} {visited : List String} {c : ColdStart}
    (h : Restoring cp visited c) {e : Pair × Int} (he : e ∈ c.pairs) :
    c.pair? e.1.address = some e := by
  refine Distinct.find?_of_unique he (by simp) fun other hother hsame => ?_
  have haddress : other.1.address = e.1.address := by simpa using hsame
  obtain ⟨hpair, htime⟩ := h.pairs e he
  obtain ⟨hotherPair, hotherTime⟩ := h.pairs other hother
  rw [haddress, hpair] at hotherPair
  exact Prod.ext (Option.some.inj hotherPair).symm (hotherTime.trans htime.symm)

theorem frame_visit (checkpoint : Option Checkpoint) (c : ColdStart) (address : String) :
    (visit checkpoint c address).frame = c.frame := by
  have htoken (time : Int) (c : ColdStart) (t : Token) :
      (ColdStart.restoreToken time c t).frame = c.frame := by
    unfold ColdStart.restoreToken
    split <;> rfl
  unfold visit
  split
  · exact foldl_keeps frame (htoken _) _ c
  · rfl

theorem frame_ofRegistry (s : Store) (checkpoint : Option Checkpoint)
    (registry : List String) :
    (ofRegistry s checkpoint registry).frame = (registry, s.pairs, s.tokens.thresholds) :=
  foldl_keeps frame (frame_visit checkpoint) registry _

theorem frame_acceptToken (now : Int) (c : ColdStart) (r : Except Failure Token) :
    (acceptToken now c r).frame = c.frame := by
  cases r <;> rfl

theorem pairs_acceptToken (now : Int) (c : ColdStart) (r : Except Failure Token) :
    (acceptToken now c r).pairs = c.pairs := by
  cases r <;> rfl

theorem frame_acceptPair (now : Int) (c : ColdStart) (r : Except Failure Pair) :
    (acceptPair now c r).frame = c.frame := by
  cases r <;> rfl

theorem store_acceptPair (now : Int) (c : ColdStart) (r : Except Failure Pair) :
    (acceptPair now c r).store = c.store := by
  cases r <;> rfl

/-- Storing tokens that were read leaves every other token alone. -/
theorem find?_foldl_acceptToken {now : Int} {name : String}
    {results : List (Except Failure Token)}
    (h : ∀ r ∈ results, ∀ t, r = .ok t → t.identifier ≠ name) (c : ColdStart) :
    (results.foldl (acceptToken now) c).store.tokens.find? name =
      c.store.tokens.find? name := by
  induction results generalizing c with
  | nil => rfl
  | cons r rest ih =>
      rw [List.foldl_cons, ih fun r' hr' => h r' (List.mem_cons_of_mem _ hr')]
      cases r with
      | error e => rfl
      | ok t => exact Collection.find?_put_of_ne _ t now (h _ List.mem_cons_self t rfl).symm

/-- Keeping pairs that were read leaves every other pair alone. -/
theorem pair?_foldl_acceptPair {now : Int} {address : String}
    {results : List (Except Failure Pair)}
    (h : ∀ r ∈ results, ∀ p, r = .ok p → p.address ≠ address) (c : ColdStart) :
    (results.foldl (acceptPair now) c).pair? address = c.pair? address := by
  induction results generalizing c with
  | nil => rfl
  | cons r rest ih =>
      rw [List.foldl_cons, ih fun r' hr' => h r' (List.mem_cons_of_mem _ hr')]
      cases r with
      | error e => rfl
      | ok p =>
          have hne : p.address ≠ address := h _ List.mem_cons_self p rfl
          simp [pair?, acceptPair, hne]

theorem token?_of_mem_missingTokens {c : ColdStart} {pairs : List (String × PairRefs)}
    {name : String} (h : name ∈ c.missingTokens pairs) : c.token? name = none := by
  simpa using (List.mem_filter.1 h).2

theorem mem_fresh_of_mem_referenced {c : ColdStart} {results : List (Except Failure PairRefs)}
    {p : String × PairRefs} (h : p ∈ c.referenced results) : p.1 ∈ c.fresh := by
  obtain ⟨⟨address, result⟩, hmem, hresult⟩ := List.mem_filterMap.1 h
  obtain ⟨refs, -, rfl⟩ := Option.map_eq_some_iff.1 hresult
  exact (List.of_mem_zip hmem).1

/-- A cold start with the tokens that were read. -/
def filled (c : ColdStart) (now : Int) (refs : List (Except Failure PairRefs))
    (tokens : List (Except Failure Token)) : ColdStart :=
  tokens.foldl (acceptToken now)
    (c.addFailed (c.fresh.length - (c.referenced refs).length))

/-- A cold start with the pairs that were read as well. -/
def loaded (c : ColdStart) (now : Int) (refs : List (Except Failure PairRefs))
    (tokens : List (Except Failure Token)) (pairs : List (Except Failure Pair)) : ColdStart :=
  pairs.foldl (acceptPair now) (c.filled now refs tokens)

/-- What could not be restored is read in three rounds: the references of pairs, the tokens that
they need, the pairs.  The results of a round stand beside what was to be read in it. -/
structure Rounds (c : ColdStart) (now : Int) (refs : List (Except Failure PairRefs))
    (tokens : List (Except Failure Token)) (pairs : List (Except Failure Pair)) : Prop where
  length_refs : c.fresh.length = refs.length
  readTokens : List.Forall₂ (fun name r => ∀ t, r = .ok t → t.identifier = name)
    (c.missingTokens (c.referenced refs)) tokens
  readPairs : List.Forall₂ (fun asked r => ∀ p, r = .ok p →
      p.address = asked.1 ∧ p.tokens = asked.2.tokens (c.filled now refs tokens).token?)
    (c.referenced refs) pairs

/-- Completing a cold start keeps what the three rounds give. -/
theorem complete_eq {S : Type} (src : Source (StateM S)) (policy : ReadPolicy) (now : Int)
    (c : ColdStart) (st : S) :
    ∃ refs tokens pairs, Rounds c now refs tokens pairs ∧
      (c.complete src policy now st).1 = c.loaded now refs tokens pairs := by
  simp only [complete, bind, StateT.bind]
  have hlength : c.fresh.length =
      (Source.batch policy (Single.turn src.pairRefs) (Single.start policy c.fresh) st).1.length := by
    refine (Source.forall₂_batch (fun _ _ => True) (fun _ _ => True) ?_ policy
      (List.forall₂_map_right_iff.2 (List.forall₂_same.2 fun _ _ => trivial)) st).length_eq
    intro _ job s _
    cases (Single.turn src.pairRefs job s).1 <;> trivial
  generalize Source.batch policy (Single.turn src.pairRefs) (Single.start policy c.fresh) st = out
    at hlength ⊢
  obtain ⟨refs, s₁⟩ := out
  refine ⟨refs, _, _, ⟨hlength, ?_, ?_⟩, rfl⟩
  · refine Source.forall₂_batch (fun name job => job.identifier = name) _
      (fun name => src.tokenTurn_keeps (· = name)) policy ?_ s₁
    exact List.forall₂_map_right_iff.2 (List.forall₂_same.2 fun _ _ => rfl)
  · refine Source.forall₂_batch
      (fun asked job => job.address = asked.1 ∧ job.refs = asked.2) _
      (fun asked => src.pairTurn_keeps _ asked.1 asked.2) policy ?_ _
    exact List.forall₂_map_right_iff.2 (List.forall₂_same.2 fun _ _ => ⟨rfl, rfl⟩)

/-- What was restored is still there when everything else has been read. -/
theorem complete_keeps {S : Type} (src : Source (StateM S)) (policy : ReadPolicy) (now : Int)
    (c : ColdStart) (st : S) :
    (c.complete src policy now st).1.frame = c.frame ∧
      (∀ t ∈ c.known, (c.complete src policy now st).1.store.tokens.find? t.identifier =
        c.store.tokens.find? t.identifier) ∧
      ∀ address, address ∉ c.fresh →
        (c.complete src policy now st).1.pair? address = c.pair? address := by
  obtain ⟨refs, tokens, pairs, hrounds, heq⟩ := complete_eq src policy now c st
  rw [heq, loaded, filled]
  refine ⟨?_, ?_, ?_⟩
  · rw [foldl_keeps frame (frame_acceptPair now), foldl_keeps frame (frame_acceptToken now)]
    rfl
  · intro t ht
    rw [foldl_keeps store (store_acceptPair now), find?_foldl_acceptToken]
    · rfl
    · intro r hr t' ht' hid
      obtain ⟨name, hname, hread⟩ := Paired.exists_left hrounds.readTokens hr
      exact token?_eq_none_iff.1 (token?_of_mem_missingTokens hname) t ht
        (hid.symm.trans (hread t' ht'))
  · intro address haddress
    rw [pair?_foldl_acceptPair, pair?, foldl_keeps ColdStart.pairs (pairs_acceptToken now)]
    · rfl
    · intro r hr p hp hid
      obtain ⟨asked, hasked, hread⟩ := Paired.exists_left hrounds.readPairs hr
      rw [← hid, (hread p hp).1] at haddress
      exact haddress (mem_fresh_of_mem_referenced hasked)

/-- Storing pairs one after the other leaves the last of each address. -/
theorem find?_foldl_put {p : Pair} {time : Int} {ps : List (Pair × Int)}
    {pairs : Collection Pair PairGroup}
    (hone : ∀ q ∈ ps, q.1.address = p.address → q = (p, time))
    (hthere : (p, time) ∈ ps ∨ pairs.find? p.address = some ⟨p, .all time⟩) :
    (ps.foldl (fun pairs q => pairs.put q.1 q.2) pairs).find? p.address =
      some ⟨p, .all time⟩ := by
  induction ps generalizing pairs with
  | nil => exact hthere.resolve_left (by simp)
  | cons q rest ih =>
      refine ih (fun q' hq' => hone q' (List.mem_cons_of_mem _ hq')) ?_
      -- either this pair is put now and stays, or it is still to come or was there before
      by_cases hq : q.1.address = p.address
      · obtain rfl := hone q List.mem_cons_self hq
        exact .inr (Collection.find?_put_self _ p time)
      · rcases hthere with hmem | hfound
        · rcases List.mem_cons.1 hmem with rfl | hmem
          · exact absurd rfl hq
          · exact .inl hmem
        · exact .inr ((Collection.find?_put_of_ne _ q.1 q.2 (Ne.symm hq)).trans hfound)

/-- A registered pair is stored as it was kept, with its own time. -/
theorem find?_finish {c : ColdStart} {p : Pair} {time : Int} (hregistered : p.address ∈ c.registry)
    (hkept : c.pair? p.address = some (p, time)) :
    c.finish.pairs.find? p.address = some ⟨p, .all time⟩ := by
  refine find?_foldl_put ?_ (.inl ?_)
  · intro q hq hid
    obtain ⟨address, -, hfound⟩ := List.mem_filterMap.1 hq
    have haddress : q.1.address = address := by simpa using List.find?_some hfound
    rw [← haddress, hid, hkept] at hfound
    exact (Option.some.inj hfound).symm
  · exact List.mem_filterMap.2 ⟨p.address, List.mem_eraseDups.2 hregistered, hkept⟩

/-- Finishing stores under the thresholds that there are. -/
theorem thresholds_finish (c : ColdStart) :
    c.finish.pairs.thresholds = c.store.pairs.thresholds ∧
      c.finish.tokens.thresholds = c.store.tokens.thresholds := by
  refine ⟨?_, rfl⟩
  have hput (pairs : Collection Pair PairGroup) (p : Pair × Int) :
      (pairs.put p.1 p.2).thresholds = pairs.thresholds := rfl
  exact foldl_keeps Collection.thresholds hput _ c.store.pairs

end ColdStart

section ColdStarted

variable {S : Type} {src : Source (StateM S)} {policy : ReadPolicy} {st st' : S}
  {registry : List String}

/-- Once the registry has been read, a cold start restores, reads the rest and finishes. -/
theorem store_coldStart (h : retry policy.retries src.pairAddresses st = (.ok registry, st'))
    (checkpoint : Option Checkpoint) (now : Int) (s : Store) (monitor : Monitor) :
    (coldStart src policy checkpoint now s monitor st).1.2.1 =
      ((ColdStart.ofRegistry s checkpoint registry).complete src policy now st').1.finish := by
  simp only [coldStart, bind, StateT.bind, h]
  rfl

theorem thresholds_coldStart (h : retry policy.retries src.pairAddresses st = (.ok registry, st'))
    (checkpoint : Option Checkpoint) (now : Int) (s : Store) (monitor : Monitor) :
    let started := (coldStart src policy checkpoint now s monitor st).1.2.1
    started.pairs.thresholds = s.pairs.thresholds ∧
      started.tokens.thresholds = s.tokens.thresholds := by
  simp only [store_coldStart h]
  have hframe := ((ColdStart.ofRegistry s checkpoint registry).complete_keeps src policy now
    st').1.trans (ColdStart.frame_ofRegistry s checkpoint registry)
  obtain ⟨hpairs, htokens⟩ := Prod.mk.inj (Prod.mk.inj hframe).2
  obtain ⟨hfinishPairs, hfinishTokens⟩ := ColdStart.thresholds_finish
    ((ColdStart.ofRegistry s checkpoint registry).complete src policy now st').1
  exact ⟨hfinishPairs.trans (congrArg Collection.thresholds hpairs),
    hfinishTokens.trans htokens⟩

/-- What a cold start restores is stored as it is in the checkpoint, and counts as written in
all its groups when the checkpoint was made. -/
theorem restored_coldStart (h : retry policy.retries src.pairAddresses st = (.ok registry, st'))
    {cp : Checkpoint} {address : String} (hregistered : address ∈ registry) {p : Pair}
    {tokens : List Token} (hrestorable : cp.restorable? address = some (p, tokens)) (now : Int)
    (s : Store) (monitor : Monitor) :
    let restored := (coldStart src policy (some cp) now s monitor st).1.2.1
    restored.pairs.find? address = some ⟨p, .all cp.createdAt.instant⟩ ∧
      ∀ t ∈ tokens,
        restored.tokens.find? t.identifier = some ⟨t, .all cp.createdAt.instant⟩ := by
  simp only [store_coldStart h]
  have hstart := ColdStart.restoring_ofRegistry cp s registry
  have hregistry := (Prod.mk.inj (ColdStart.frame_ofRegistry s (some cp) registry)).1
  generalize ColdStart.ofRegistry s (some cp) registry = c at hstart hregistry
  obtain ⟨hkeptFrame, hkeptTokens, hkeptPairs⟩ := c.complete_keeps src policy now st'
  obtain ⟨hpair, hknown⟩ := hstart.restored address hregistered p tokens hrestorable
  obtain ⟨-, haddress, -⟩ := Checkpoint.of_restorable? hrestorable
  refine ⟨?_, ?_⟩
  -- what can be restored is not among what is to be read, so no read touches it
  · have hfresh : address ∉ c.fresh := by
      intro hmem
      rw [hstart.fresh address hmem] at hrestorable
      cases hrestorable
    have hpair? := hstart.pair?_of_mem hpair
    subst haddress
    refine ColdStart.find?_finish ?_ ((hkeptPairs _ hfresh).trans hpair?)
    rw [(Prod.mk.inj hkeptFrame).1, hregistry]
    exact hregistered
  · intro t ht
    exact (hkeptTokens t (hknown t ht)).trans (hstart.tokens t (hknown t ht)).2

/-- A cold start from a captured store takes every group of a restored pair and of its tokens to
be written at the time of the capture, whenever and whether it was written before, and goes by
that time alone when it is asked for fresh data. -/
theorem written_at_capture (h : retry policy.retries src.pairAddresses st = (.ok registry, st'))
    (s : Store) (nonce : UInt64) (captured now : Int) (pairs : Thresholds PairGroup)
    (tokens : Thresholds TokenGroup) (monitor : Monitor) {address : String}
    (hregistered : address ∈ registry) {p : Pair} {needed : List Token}
    (hrestorable : (Checkpoint.capture s nonce captured).restorable? address =
      some (p, needed)) :
    let restored := (coldStart src policy (some (.capture s nonce captured)) now
      (.empty pairs tokens) monitor st).1.2.1
    (restored.pairs.get? address = some p ∧ ∀ g,
      restored.pairs.lastUpdate? address g = some captured ∧
      ∀ later, restored.pairs.isFresh address [g] later = true ↔
        later - captured ≤ pairs.of g) ∧
    ∀ t ∈ needed, restored.tokens.get? t.identifier = some t ∧ ∀ g,
      restored.tokens.lastUpdate? t.identifier g = some captured ∧
      ∀ later, restored.tokens.isFresh t.identifier [g] later = true ↔
        later - captured ≤ tokens.of g := by
  intro restored
  have hcaptured : (Checkpoint.capture s nonce captured).createdAt.instant = captured :=
    Time.Timestamp.instant_ofInstant captured
  obtain ⟨hpair, htokens⟩ :=
    restored_coldStart h hregistered hrestorable now (.empty pairs tokens) monitor
  rw [hcaptured] at hpair
  obtain ⟨hpairThresholds, htokenThresholds⟩ :=
    thresholds_coldStart h (some (.capture s nonce captured)) now (.empty pairs tokens) monitor
  have hpairs : restored.pairs.thresholds = pairs := hpairThresholds
  have htokens' : restored.tokens.thresholds = tokens := htokenThresholds
  refine ⟨⟨by simp [Collection.get?, restored, hpair], fun g => ⟨?_, fun later => ?_⟩⟩, ?_⟩
  · simp [Collection.lastUpdate?, restored, hpair]
  · rw [Collection.isFresh, hpair]
    simp [Collection.entryFresh, Collection.groupFresh, hpairs]
  · intro t ht
    have htoken := htokens t ht
    rw [hcaptured] at htoken
    refine ⟨by simp [Collection.get?, restored, htoken], fun g => ⟨?_, fun later => ?_⟩⟩
    · simp [Collection.lastUpdate?, restored, htoken]
    · rw [Collection.isFresh, htoken]
      simp [Collection.entryFresh, Collection.groupFresh, htokens']

end ColdStarted

section Priced

/-- A pair of two tokens. -/
def pricedPair : Pair where
  address := "a1"
  tokens :=
    { firstToken := some { identifier := "T-1" }, secondToken := some { identifier := "T-2" } }

/-- A store in which everything was written at the start but the metadata and the analytics of
one token. -/
def pricedStore : Store where
  pairs := .ofHistory {} [.put pricedPair 0]
  tokens := .ofHistory {} [.put { identifier := "T-2" } 0, .patch "T-1" (.prices {}) 0]

/-- The registry of the one pair. -/
def pricedSource : TableSource where
  pairs := [("a1", ⟨"T-1", "T-2", none, false, false, none, none⟩)]

/-- One attempt at each read, one read at a time. -/
def pricedPolicy : ReadPolicy := ⟨0, 1⟩

theorem pricedSource_registry :
    retry pricedPolicy.retries TableSource.source.pairAddresses pricedSource =
      (.ok ["a1"], { pricedSource with calls := [.pairAddresses] }) := rfl

theorem pricedStore_restorable (nonce : UInt64) (captured : Int) :
    (Checkpoint.capture pricedStore nonce captured).restorable? "a1" =
      some (pricedPair, [{ identifier := "T-1" }, { identifier := "T-2" }]) := rfl

/-- The pair counts as written when it was captured. -/
theorem written_at_capture_priced :
    let restored := (coldStart TableSource.source pricedPolicy
      (some (.capture pricedStore 7 100)) 150 (.empty {} {}) {} pricedSource).1.2.1
    restored.pairs.lastUpdate? "a1" .info = some 100 := by
  intro restored
  have hwritten := written_at_capture pricedSource_registry pricedStore 7 100 150 {} {} {}
    List.mem_cons_self (pricedStore_restorable 7 100)
  exact (hwritten.1.2 .info).1

/-- The times of a store do not outlive a checkpoint: a group comes back as written later than
it was, and one that was never written comes back fresh. -/
theorem capture_forgets_times :
    let restored := (coldStart TableSource.source pricedPolicy
      (some (.capture pricedStore 7 100)) 100 (.empty {} {}) {} pricedSource).1.2.1
    pricedStore.tokens.lastUpdate? "T-1" .prices = some 0 ∧
      restored.tokens.lastUpdate? "T-1" .prices = some 100 ∧
      pricedStore.tokens.lastUpdate? "T-1" .metadata = none ∧
      restored.tokens.isFresh "T-1" [.metadata] 100 = true := by
  intro restored
  have htoken : restored.tokens.find? "T-1" = some ⟨{ identifier := "T-1" }, .all 100⟩ :=
    (restored_coldStart pricedSource_registry List.mem_cons_self
      (pricedStore_restorable 7 100) 100 (.empty {} {}) {}).2 { identifier := "T-1" }
      List.mem_cons_self
  refine ⟨rfl, ?_, rfl, ?_⟩
  · rw [Collection.lastUpdate?, htoken]
    rfl
  · have hthresholds : restored.tokens.thresholds = {} :=
      (thresholds_coldStart pricedSource_registry _ 100 (.empty {} {}) {}).2
    rw [Collection.isFresh, htoken]
    simp [Collection.entryFresh, Collection.groupFresh, hthresholds, Thresholds.of,
      Thresholds.explicit?]

end Priced

end DexCache
