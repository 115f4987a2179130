import DexCache.Proofs.Source.Readings
import DexCache.Proofs.Sync.Accounts

/-!
# How a cold start divides the registry

A cold start from an empty store restores the registered pairs that the checkpoint has with both of
their tokens.  Of the others it stores those all of whose reads succeed, and the rest are lost; the
tokens that they need and that were not restored are divided in the same way.  Nothing else is read
but the registry.

What succeeds is read off the journal of all attempts, so this holds of any services and of any
pattern of failures.  The results of each round of reads stand beside what was to be read in it,
and the journal tells of each key what its reads have given: the proofs go from keys to results and
back.
-/

namespace DexCache

/-- What a cold start goes by: the latest checkpoint, the registry, and the journal of all reads,
each of which may be tried again so often. -/
structure Basis where
  checkpoint : Option Checkpoint
  registry : List String
  retries : Nat
  log : List Reading

namespace Basis

variable (b : Basis)

/-- A registered pair that the checkpoint has with both of its tokens, as it was at this time. -/
structure Restores (address : String) (p : Pair) (first second : Token) (time : Int) : Prop where
  registered : address ∈ b.registry
  held : ∃ cp ∈ b.checkpoint, cp.Holds address p first second ∧ time = cp.createdAt.instant

/-- A token that comes with a restored pair. -/
def RestoresToken (t : Token) (time : Int) : Prop :=
  ∃ address p first second, b.Restores address p first second time ∧ (t = first ∨ t = second)

/-- A registered pair that the checkpoint lacks, or that it has without both of its tokens. -/
structure Fresh (address : String) : Prop where
  registered : address ∈ b.registry
  lacking : ∀ cp ∈ b.checkpoint, ∀ p first second, ¬ cp.Holds address p first second

/-- A fresh pair whose references were read. -/
structure Refers (address : String) (refs : PairRefs) : Prop where
  fresh : b.Fresh address
  read : Yields b.retries (answers b.log address .pairRefs) (.ok refs)

/-- A fresh pair all of whose reads succeeded, with copies of these tokens. -/
def ReadsPair (known : String → Option Token) (p : Pair) : Prop :=
  ∃ refs, b.Refers p.address refs ∧
    PairYields b.retries (answers b.log p.address) p.address (refs.tokens known) (.ok p)

/-- A token that a fresh pair needs whose references were read, and that was not restored. -/
structure Misses (name : String) : Prop where
  needed : ∃ address refs, b.Refers address refs ∧ name ∈ refs.tokenIds
  lacking : ∀ t time, b.RestoresToken t time → t.identifier ≠ name

/-- A missing token all of whose reads succeeded. -/
structure ReadsToken (t : Token) : Prop where
  missing : b.Misses t.identifier
  read : TokenYields b.retries (answers b.log t.identifier) t.identifier (.ok t)

/-- All attempts at a read have failed. -/
def Fails (kind : ReadKind) (id : String) : Prop :=
  ∃ e, Yields b.retries (answers b.log id kind) (.error e)

end Basis

/-- What a cold start from an empty store leaves and reports: each registered pair is restored, read
or lost, and so is each token that is needed. -/
structure Partitioned (b : Basis) (now : Int) (s : Store) (report : ColdStartReport) : Prop where
  order : s.pairs.ids.Sublist b.registry
  pairs : ∀ e, e ∈ s.pairs.entries ↔
    (∃ address first second time, b.Restores address e.snapshot first second time ∧
      e.stamps = .all time) ∨ b.ReadsPair s.tokens.get? e.snapshot ∧ e.stamps = .all now
  lostPairs : ∀ address ∈ b.registry, address ∉ s.pairs.ids →
    ∃ kind ∈ .pairRefs :: ReadKind.ofPair, b.Fails kind address
  once : s.tokens.ids.Nodup
  tokens : ∀ e, e ∈ s.tokens.entries ↔
    (∃ time, b.RestoresToken e.snapshot time ∧ e.stamps = .all time) ∨
      b.ReadsToken e.snapshot ∧ e.stamps = .all now
  lostTokens : ∀ name, b.Misses name → name ∉ s.tokens.ids →
    ∃ kind ∈ ReadKind.ofToken, b.Fails kind name
  reads : ∀ r ∈ b.log, r.kind = .pairAddresses ∨ (r.kind = .pairRefs ∧ b.Fresh r.id) ∨
    (r.kind ∈ ReadKind.ofToken ∧ b.Misses r.id) ∨
    (r.kind ∈ ReadKind.ofPair ∧ ∃ refs, b.Refers r.id refs)
  pairCount : report.restoredPairs + report.fetchedPairs = s.pairs.size
  tokenCount : report.restoredTokens + report.fetchedTokens = s.tokens.size
  failed : ∃ missing : List String, missing.Nodup ∧ (∀ name, name ∈ missing ↔ b.Misses name) ∧
    report.failed = (b.registry.filter (· ∉ s.pairs.ids)).length +
      (missing.filter (· ∉ s.tokens.ids)).length

namespace ColdStart

variable {c : ColdStart} {now : Int} {refs : List (Except Failure PairRefs)}
  {tokens : List (Except Failure Token)} {pairs : List (Except Failure Pair)}

/-- The results of the three rounds go by the answers in a journal, and besides the registry
nothing else has been read. -/
structure Heard (retries : Nat) (log : List Reading) (c : ColdStart) (now : Int)
    (refs : List (Except Failure PairRefs)) (tokens : List (Except Failure Token))
    (pairs : List (Except Failure Pair)) : Prop where
  readRefs : List.Forall₂ (fun address r => Yields retries (answers log address .pairRefs) r)
    c.fresh refs
  readTokens : List.Forall₂ (fun name r => TokenYields retries (answers log name) name r)
    (c.missingTokens (c.referenced refs)) tokens
  readPairs : List.Forall₂ (fun asked r => PairYields retries (answers log asked.1) asked.1
    (asked.2.tokens (c.filled now refs tokens).token?) r) (c.referenced refs) pairs
  only : ∀ r ∈ log, r.kind = .pairAddresses ∨ (r.kind = .pairRefs ∧ r.id ∈ c.fresh) ∨
    (r.kind ∈ ReadKind.ofToken ∧ r.id ∈ c.missingTokens (c.referenced refs)) ∨
    (r.kind ∈ ReadKind.ofPair ∧ r.id ∈ (c.referenced refs).map Prod.fst)

theorem Heard.rounds {retries : Nat} {log : List Reading}
    (h : Heard retries log c now refs tokens pairs) : Rounds c now refs tokens pairs where
  length_refs := h.readRefs.length_eq
  readTokens := h.readTokens.imp fun name r hr t ht => by
    subst ht
    exact hr.1
  readPairs := h.readPairs.imp fun asked r hr p hp => by
    subst hp
    exact ⟨hr.1, hr.2.1⟩

/-- Completing a cold start with a journal gives what the answers in it say. -/
theorem leads_complete {S : Type} (src : Source (StateM S)) (policy : ReadPolicy)
    {s : S × List Reading} (hfresh : c.fresh.Nodup)
    (hnew : ∀ r ∈ s.2, r.kind = .pairAddresses) :
    Leads (c.complete src.journaled policy now) s fun ended s' => ∃ refs tokens pairs,
      Heard policy.retries s'.2 c now refs tokens pairs ∧
        ended = c.loaded now refs tokens pairs := by
  have hnone (name : String) (kind : ReadKind) (hkind : kind ≠ .pairAddresses) :
      answers s.2 name kind = [] := by
    rw [List.eq_nil_iff_forall_not_mem]
    exact fun a ha => hkind (hnew _ (mem_answers_iff.1 ha))
  -- the references of pairs
  refine (Source.leads_batch [.pairRefs] id
    (fun address job heard => job.id = address ∧
      job.part.Stands policy.retries (heard .pairRefs))
    (fun _ r heard => Yields policy.retries (heard .pairRefs) r) ?_ policy
    (by rwa [List.map_id]) ?_).bind fun refs s₁ h => ?_
  · rintro _ job s ⟨rfl, hstands⟩
    exact Single.leads_turn src.pairRefs hstands
  · refine List.forall₂_map_right_iff.2 (List.forall₂_same.2 fun address _ => ⟨rfl, ?_⟩)
    rw [hnone _ _ (by decide)]
    exact Attempts.stands_left policy.retries
  obtain ⟨hrefs, hsame₁⟩ := h
  -- the tokens that they need
  refine (Source.leads_batch ReadKind.ofToken id
    (fun name job heard => job.Stands policy.retries heard name)
    (fun name r heard => TokenYields policy.retries heard name r)
    (fun name job s h => Source.leads_tokenTurn src h) policy
    (by rw [List.map_id]; exact c.nodup_missingTokens (c.referenced refs)) ?_).bind
    fun tokens s₂ h => ?_
  · refine List.forall₂_map_right_iff.2 (List.forall₂_same.2 fun name _ => ⟨rfl, ?_⟩)
    refine Triple.stands_start policy fun kind hkind => ?_
    rw [hsame₁ kind _ (.inl (by revert kind; decide)), hnone _ _ (by revert kind; decide)]
  obtain ⟨htokens, hsame₂⟩ := h
  -- the pairs themselves
  refine (Source.leads_batch ReadKind.ofPair Prod.fst
    (fun asked job heard => job.Stands policy.retries heard asked)
    (fun asked r heard => PairYields policy.retries heard asked.1
      (asked.2.tokens (c.filled now refs tokens).token?) r)
    (fun asked job s h => Source.leads_pairTurn src _ h) policy
    (hfresh.sublist (addresses_referenced hrefs.length_eq)) ?_).bind fun pairs s₃ h => ?_
  · refine List.forall₂_map_right_iff.2 (List.forall₂_same.2 fun asked _ => ⟨⟨rfl, rfl⟩, ?_⟩)
    refine Triple.stands_start policy fun kind hkind => ?_
    rw [hsame₂ kind _ (.inl (by revert kind; decide)),
      hsame₁ kind _ (.inl (by revert kind; decide)), hnone _ _ (by revert kind; decide)]
  obtain ⟨hpairs, hsame₃⟩ := h
  suffices hheard : Heard policy.retries s₃.2 c now refs tokens pairs from
    ⟨refs, tokens, pairs, hheard, rfl⟩
  refine ⟨?_, ?_, hpairs, ?_⟩
  · refine hrefs.imp fun address r hr => ?_
    rw [hsame₃ .pairRefs address (.inl (by decide)), hsame₂ .pairRefs address (.inl (by decide))]
    exact hr
  · exact htokens.imp fun name r hr => hr.congr fun kind hkind =>
      hsame₃ kind name (.inl (by revert kind; decide))
  -- what is in the journal was read in one of the rounds
  · intro r hr
    by_cases h₃ : r.kind ∈ ReadKind.ofPair ∧ r.id ∈ (c.referenced refs).map Prod.fst
    · exact .inr (.inr (.inr h₃))
    have hr₂ := mem_of_answers_eq (hsame₃ _ _ (not_and_or.1 h₃)) hr
    by_cases h₂ : r.kind ∈ ReadKind.ofToken ∧ r.id ∈ (c.missingTokens (c.referenced refs)).map id
    · rw [List.map_id] at h₂
      exact .inr (.inr (.inl h₂))
    have hr₁ := mem_of_answers_eq (hsame₂ _ _ (not_and_or.1 h₂)) hr₂
    by_cases h₁ : r.kind ∈ [ReadKind.pairRefs] ∧ r.id ∈ c.fresh.map id
    · rw [List.map_id, List.mem_singleton] at h₁
      exact .inr (.inl h₁)
    exact .inl (hnew r (mem_of_answers_eq (hsame₁ _ _ (not_and_or.1 h₁)) hr₁))

section Divided

variable {b : Basis} {checkpoint : Option Checkpoint} {address name : String} {p : Pair}
  {t : Token} {time : Int}

theorem held?_eq_some_iff {tokens : List Token} :
    held? checkpoint address = some (p, tokens) ↔ ∃ first second, tokens = [first, second] ∧
      ∃ cp ∈ checkpoint, cp.Holds address p first second := by
  simp only [held?, Option.bind_eq_some_iff, Checkpoint.restorable?_eq_some_iff]
  constructor
  · rintro ⟨cp, hcp, first, second, htokens, hholds⟩
    exact ⟨first, second, htokens, cp, hcp, hholds⟩
  · rintro ⟨first, second, htokens, cp, hcp, hholds⟩
    exact ⟨cp, hcp, first, second, htokens, hholds⟩

theorem takenAt_of_mem {cp : Checkpoint} (h : cp ∈ checkpoint) :
    takenAt checkpoint = cp.createdAt.instant := by
  rw [takenAt, Option.mem_def.1 h]
  rfl

/-- What is restored is what is held of the registry. -/
theorem restores_iff {first second : Token} : b.Restores address p first second time ↔
    address ∈ b.registry ∧ held? b.checkpoint address = some (p, [first, second]) ∧
      time = takenAt b.checkpoint := by
  constructor
  · rintro ⟨hregistered, cp, hcp, hholds, rfl⟩
    exact ⟨hregistered, held?_eq_some_iff.2 ⟨first, second, rfl, cp, hcp, hholds⟩,
      (takenAt_of_mem hcp).symm⟩
  · rintro ⟨hregistered, hheld, rfl⟩
    obtain ⟨first', second', htokens, cp, hcp, hholds⟩ := held?_eq_some_iff.1 hheld
    cases htokens
    exact ⟨hregistered, cp, hcp, hholds, takenAt_of_mem hcp⟩

section Restored

variable (h : Restored b.checkpoint b.registry c)

include h

theorem Restored.mem_fresh_iff : address ∈ c.fresh ↔ b.Fresh address := by
  rw [h.fresh, List.mem_filter, Option.isNone_iff_eq_none]
  constructor
  · rintro ⟨hregistered, hnone⟩
    refine ⟨hregistered, fun cp hcp p first second hholds => ?_⟩
    rw [held?_eq_some_iff.2 ⟨first, second, rfl, cp, hcp, hholds⟩] at hnone
    cases hnone
  · rintro ⟨hregistered, hlacking⟩
    refine ⟨hregistered, Option.eq_none_iff_forall_ne_some.2 fun found hfound => ?_⟩
    obtain ⟨first, second, -, cp, hcp, hholds⟩ := held?_eq_some_iff.1 hfound
    exact hlacking cp hcp _ _ _ hholds

theorem Restored.mem_pairs_iff :
    (p, time) ∈ c.pairs ↔ ∃ address first second, b.Restores address p first second time := by
  simp only [h.pairs, List.mem_reverse, List.mem_filterMap, Option.map_eq_some_iff, restores_iff]
  constructor
  · rintro ⟨address, hregistered, ⟨p', tokens⟩, hheld, hsame⟩
    cases hsame
    obtain ⟨first, second, rfl, -⟩ := held?_eq_some_iff.1 hheld
    exact ⟨address, first, second, hregistered, hheld, rfl⟩
  · rintro ⟨address, first, second, hregistered, hheld, rfl⟩
    exact ⟨address, hregistered, _, hheld, rfl⟩

theorem Restored.restoresToken_iff :
    b.RestoresToken t time ↔ t ∈ c.known ∧ time = takenAt b.checkpoint := by
  simp only [Basis.RestoresToken, h.known, restores_iff]
  constructor
  · rintro ⟨address, p, first, second, ⟨hregistered, hheld, rfl⟩, ht⟩
    exact ⟨⟨address, hregistered, p, _, hheld, by simpa using ht⟩, rfl⟩
  · rintro ⟨⟨address, hregistered, p, tokens, hheld, ht⟩, rfl⟩
    obtain ⟨first, second, rfl, -⟩ := held?_eq_some_iff.1 hheld
    exact ⟨address, p, first, second, ⟨hregistered, hheld, rfl⟩, by simpa using ht⟩

variable (heard : Heard b.retries b.log c now refs tokens pairs)

include heard

theorem Restored.mem_referenced_iff {asked : PairRefs} :
    (address, asked) ∈ c.referenced refs ↔ b.Refers address asked := by
  have hzip : (address, asked) ∈ c.referenced refs ↔
      (address, .ok asked) ∈ c.fresh.zip refs := by
    constructor
    · intro hmem
      obtain ⟨⟨address', r⟩, hr, hasked⟩ := List.mem_filterMap.1 hmem
      cases r with
      | ok asked' =>
          cases hasked
          exact hr
      | error e => cases hasked
    · exact fun hmem => List.mem_filterMap.2 ⟨_, hmem, rfl⟩
  rw [hzip]
  constructor
  · intro hmem
    exact ⟨h.mem_fresh_iff.1 (List.of_mem_zip hmem).1, List.forall₂_zip heard.readRefs hmem⟩
  · rintro ⟨hfresh, hread⟩
    obtain ⟨r, hr⟩ := Paired.exists_mem_zip heard.readRefs (h.mem_fresh_iff.2 hfresh)
    obtain rfl := hread.unique (List.forall₂_zip heard.readRefs hr)
    exact hr

theorem Restored.mem_missing_iff :
    name ∈ c.missingTokens (c.referenced refs) ↔ b.Misses name := by
  rw [mem_missingTokens_iff, token?_eq_none_iff]
  constructor
  · rintro ⟨⟨⟨address, asked⟩, hasked, hneeded⟩, hunknown⟩
    refine ⟨⟨address, asked, (h.mem_referenced_iff heard).1 hasked, hneeded⟩, ?_⟩
    exact fun t time ht => hunknown t (h.restoresToken_iff.1 ht).1
  · rintro ⟨⟨address, asked, hasked, hneeded⟩, hlacking⟩
    refine ⟨⟨(address, asked), (h.mem_referenced_iff heard).2 hasked, hneeded⟩, ?_⟩
    exact fun t ht => hlacking t _ (h.restoresToken_iff.2 ⟨ht, rfl⟩)

theorem Restored.mem_found_tokens_iff : t ∈ found tokens ↔ b.ReadsToken t := by
  rw [mem_found_iff]
  constructor
  · intro ht
    obtain ⟨name, hname, hread⟩ := Paired.exists_left heard.readTokens ht
    obtain rfl := hread.1
    exact ⟨(h.mem_missing_iff heard).1 hname, hread⟩
  · rintro ⟨hmissing, hread⟩
    obtain ⟨r, hr, hread'⟩ :=
      Paired.exists_right heard.readTokens ((h.mem_missing_iff heard).2 hmissing)
    rwa [← hread.unique hread']

theorem Restored.mem_found_pairs_iff :
    p ∈ found pairs ↔ b.ReadsPair (c.filled now refs tokens).token? p := by
  rw [mem_found_iff]
  constructor
  · intro hp
    obtain ⟨⟨address, asked⟩, hasked, hread⟩ := Paired.exists_left heard.readPairs hp
    obtain rfl := hread.1
    exact ⟨asked, (h.mem_referenced_iff heard).1 hasked, hread⟩
  · rintro ⟨asked, hasked, hread⟩
    obtain ⟨r, hr, hread'⟩ :=
      Paired.exists_right heard.readPairs ((h.mem_referenced_iff heard).2 hasked)
    rwa [← hread.unique hread']

/-- A registered pair that is neither restored nor read has a read that failed for good. -/
theorem Restored.fails_of_lost (hregistered : address ∈ b.registry)
    (hlost : ∀ q ∈ (c.loaded now refs tokens pairs).pairs, q.1.address ≠ address) :
    ∃ kind ∈ .pairRefs :: ReadKind.ofPair, b.Fails kind address := by
  have hfresh : address ∈ c.fresh := by
    rw [h.fresh, List.mem_filter, Option.isNone_iff_eq_none]
    refine ⟨hregistered, Option.eq_none_iff_forall_ne_some.2 fun found hheld => ?_⟩
    have hkept : (found.1, takenAt b.checkpoint) ∈ c.pairs := by
      rw [h.pairs, List.mem_reverse]
      exact List.mem_filterMap.2 ⟨address, hregistered, by rw [hheld]; rfl⟩
    exact hlost _ (mem_pairs_loaded.2 (.inl hkept)) (address_of_held? hheld)
  obtain ⟨r, hr⟩ := Paired.exists_mem_zip heard.readRefs hfresh
  have hrefs := List.forall₂_zip heard.readRefs hr
  cases r with
  | error e => exact ⟨.pairRefs, List.mem_cons_self, e, hrefs⟩
  | ok asked =>
      have hasked := (h.mem_referenced_iff heard).2 ⟨h.mem_fresh_iff.1 hfresh, hrefs⟩
      obtain ⟨r, hr, hread⟩ := Paired.exists_right heard.readPairs hasked
      cases r with
      | ok p => exact absurd hread.1 (hlost _ (mem_pairs_loaded.2 (.inr ⟨p, hr, rfl⟩)))
      | error e =>
          rcases hread with hread | hread | hread
          · exact ⟨.pairInfo, by decide, e, hread⟩
          · exact ⟨.pairPrices, by decide, e, hread⟩
          · exact ⟨.pairAnalytics, by decide, e, hread⟩

/-- A missing token that was not read has a read that failed for good. -/
theorem Restored.fails_of_missing (hmissing : b.Misses name)
    (hlost : ∀ t ∈ found tokens, t.identifier ≠ name) :
    ∃ kind ∈ ReadKind.ofToken, b.Fails kind name := by
  obtain ⟨r, hr, hread⟩ :=
    Paired.exists_right heard.readTokens ((h.mem_missing_iff heard).2 hmissing)
  cases r with
  | ok t => exact absurd hread.1 (hlost t (mem_found_iff.2 hr))
  | error e =>
      rcases hread with hread | hread | hread
      · exact ⟨.tokenMetadata, by decide, e, hread⟩
      · exact ⟨.tokenPrices, by decide, e, hread⟩
      · exact ⟨.tokenAnalytics, by decide, e, hread⟩

/-- What is kept of pairs was restored or read. -/
theorem Restored.mem_kept_iff {e : Stored Pair PairGroup} :
    e ∈ (c.loaded now refs tokens pairs).pairs.map (fun q => ⟨q.1, .all q.2⟩) ↔
      (∃ address first second time, b.Restores address e.snapshot first second time ∧
        e.stamps = .all time) ∨
      b.ReadsPair (c.filled now refs tokens).token? e.snapshot ∧ e.stamps = .all now := by
  rw [List.mem_map]
  constructor
  · rintro ⟨⟨p, time⟩, hkept, rfl⟩
    rcases mem_pairs_loaded.1 hkept with hrestored | ⟨p', hread, hp'⟩
    · obtain ⟨address, first, second, hrestores⟩ := h.mem_pairs_iff.1 hrestored
      exact .inl ⟨address, first, second, time, hrestores, rfl⟩
    · cases hp'
      exact .inr ⟨(h.mem_found_pairs_iff heard).1 (mem_found_iff.2 hread), rfl⟩
  · obtain ⟨p, stamps⟩ := e
    rintro (⟨address, first, second, time, hrestores, rfl⟩ | ⟨hread, rfl⟩)
    · have hrestored := h.mem_pairs_iff.2 ⟨address, first, second, hrestores⟩
      exact ⟨_, mem_pairs_loaded.2 (.inl hrestored), rfl⟩
    · have hok := mem_found_iff.1 ((h.mem_found_pairs_iff heard).2 hread)
      exact ⟨_, mem_pairs_loaded.2 (.inr ⟨p, hok, rfl⟩), rfl⟩

/-- What is stored of tokens was restored or read. -/
theorem Restored.mem_filled_iff {e : Stored Token TokenGroup} :
    e ∈ (c.filled now refs tokens).store.tokens.entries ↔
      (∃ time, b.RestoresToken e.snapshot time ∧ e.stamps = .all time) ∨
        b.ReadsToken e.snapshot ∧ e.stamps = .all now := by
  obtain ⟨htokens, -⟩ := heard.rounds.tokens_filled h
  rw [htokens, List.mem_append, List.mem_map, List.mem_map]
  constructor
  · rintro (⟨t, ht, rfl⟩ | ⟨t, ht, rfl⟩)
    · exact .inl ⟨_, h.restoresToken_iff.2 ⟨List.mem_reverse.1 ht, rfl⟩, rfl⟩
    · exact .inr ⟨(h.mem_found_tokens_iff heard).1 ht, rfl⟩
  · obtain ⟨t, stamps⟩ := e
    rintro (⟨time, hrestores, rfl⟩ | ⟨hread, rfl⟩)
    · obtain ⟨ht, rfl⟩ := h.restoresToken_iff.1 hrestores
      exact .inl ⟨t, List.mem_reverse.2 ht, rfl⟩
    · exact .inr ⟨t, (h.mem_found_tokens_iff heard).2 hread, rfl⟩

/-- Completing a cold start divides the registry. -/
theorem Restored.partitioned (hsame : c.registry = b.registry) (hregistry : b.registry.Nodup)
    (hempty : c.store.pairs.entries = []) :
    Partitioned b now (c.loaded now refs tokens pairs).finish
      (c.loaded now refs tokens pairs).report := by
  let ended := c.loaded now refs tokens pairs
  have hrounds := heard.rounds
  obtain ⟨hstored, horder⟩ := hrounds.finish_loaded h hsame hregistry hempty
  obtain ⟨-, honce, hknown⟩ := hrounds.tokens_filled h
  obtain ⟨hpairCount, htokenCount⟩ := hrounds.counts_loaded h hsame hregistry hempty
  have hfailed := hrounds.failed_loaded h hsame hregistry hempty
  have hfinish : ended.finish.tokens = (c.filled now refs tokens).store.tokens := by
    rw [Rounds.tokens_finish, store_loaded]
  refine ⟨horder, ?_, ?_, ?_, ?_, ?_, ?_, hpairCount, htokenCount, ?_⟩
  · intro e
    have hcopies : ended.finish.tokens.get? = (c.filled now refs tokens).token? :=
      funext fun name => hfinish ▸ hknown name
    rw [hstored.mem_iff, hcopies]
    exact h.mem_kept_iff heard
  · intro address hregistered hlost
    refine h.fails_of_lost heard hregistered fun q hq hid => hlost ?_
    have hentry := hstored.mem_iff.2 (List.mem_map_of_mem hq)
    exact hid ▸ List.mem_map_of_mem hentry
  · rw [hfinish]
    exact honce
  · intro e
    rw [hfinish]
    exact h.mem_filled_iff heard
  · intro name hmissing hlost
    refine h.fails_of_missing heard hmissing fun t ht hid => hlost ?_
    have hentry : ⟨t, .all now⟩ ∈ (c.filled now refs tokens).store.tokens.entries :=
      (h.mem_filled_iff heard).2 (.inr ⟨(h.mem_found_tokens_iff heard).1 ht, rfl⟩)
    rw [hfinish]
    exact hid ▸ List.mem_map_of_mem hentry
  · intro r hr
    rcases heard.only r hr with hregistry | ⟨hkind, hid⟩ | ⟨hkind, hid⟩ | ⟨hkind, hid⟩
    · exact .inl hregistry
    · exact .inr (.inl ⟨hkind, h.mem_fresh_iff.1 hid⟩)
    · exact .inr (.inr (.inl ⟨hkind, (h.mem_missing_iff heard).1 hid⟩))
    · obtain ⟨⟨address, asked⟩, hasked, rfl⟩ := List.mem_map.1 hid
      exact .inr (.inr (.inr ⟨hkind, asked, (h.mem_referenced_iff heard).1 hasked⟩))
  · exact ⟨_, c.nodup_missingTokens (c.referenced refs), fun name => h.mem_missing_iff heard,
      hfailed⟩

end Restored

end Divided

end ColdStart

section Started

variable {S : Type} (src : Source (StateM S)) (policy : ReadPolicy)

/-- Once its registry has been read, a cold start from an empty store divides it. -/
theorem leads_coldStart {registry : List String} (hregistry : registry.Nodup) {st : S}
    (hread : (retry policy.retries src.pairAddresses st).1 = .ok registry)
    (checkpoint : Option Checkpoint) (now : Int) (pairs : Thresholds PairGroup)
    (tokens : Thresholds TokenGroup) (monitor : Monitor) :
    Leads (coldStart src.journaled policy checkpoint now (.empty pairs tokens) monitor) (st, [])
      fun out s' => ∃ report, out.1 = .ok report ∧
        Partitioned ⟨checkpoint, registry, policy.retries, s'.2⟩ now out.2.1 report := by
  -- so far only the registry has been read
  have hfirst : Leads (retry policy.retries src.journaled.pairAddresses) (st, []) fun r s' =>
      r = .ok registry ∧ ∀ r ∈ s'.2, r.kind = .pairAddresses := by
    have hsame := (Erases.noted .pairAddresses "" src.pairAddresses).retry policy.retries (st, [])
    obtain ⟨more, hmore, hkinds⟩ :=
      leads_retry .pairAddresses "" src.pairAddresses policy.retries (st, [])
    refine ⟨hsame.1.trans hread, fun r hr => List.mem_singleton.1 (hkinds r ?_).1⟩
    rw [List.nil_append] at hmore
    exact hmore ▸ hr
  refine hfirst.bind fun answer s₁ h => ?_
  obtain ⟨rfl, honly⟩ := h
  have hrestored := ColdStart.restored_ofRegistry checkpoint registry pairs tokens
  have hframe := ColdStart.frame_ofRegistry (.empty pairs tokens) checkpoint registry
  obtain ⟨hsame, hrest⟩ := Prod.mk.inj hframe
  have hfresh := hregistry.filter fun a => (ColdStart.held? checkpoint a).isNone
  rw [← hrestored.fresh] at hfresh
  refine (ColdStart.leads_complete src policy hfresh honly).bind fun ended s₂ h => ?_
  obtain ⟨refs, readTokens, readPairs, heard, rfl⟩ := h
  have hempty : (ColdStart.ofRegistry (.empty pairs tokens) checkpoint registry).store.pairs.entries
      = [] := congrArg Collection.entries (Prod.mk.inj hrest).1
  exact ⟨_, rfl, hrestored.partitioned (b := ⟨checkpoint, registry, policy.retries, s₂.2⟩) heard
    hsame hregistry hempty⟩

/-- A cold start of a cache with an empty store fails if its registry cannot be read.  Else it
divides the registry: what is restored, what is read and what is lost goes by the checkpoint that
could be reached, if there is one, and by the answers to the reads. -/
theorem Cache.coldStart_partitions (c : Cache) {pairs : Thresholds PairGroup}
    {tokens : Thresholds TokenGroup} (hempty : c.store = .empty pairs tokens) (now : Int) (st : S)
    (hregistry : ∀ registry, (retry policy.retries src.pairAddresses st).1 = .ok registry →
      registry.Nodup) :
    let started := (c.coldStart src policy now st).1
    let journaled := c.coldStart src.journaled policy now (st, [])
    (journaled.1 = started ∧ journaled.2.1 = (c.coldStart src policy now st).2) ∧
      match (retry policy.retries src.pairAddresses st).1 with
      | .error e => started.1 = .error (.during "pair registry unavailable" e) ∧
          started.2.store = c.store ∧ started.2.monitor.status = .failed
      | .ok registry => ∃ report, started.1 = .ok report ∧
          Partitioned ⟨c.latestCheckpoint?.toOption.join, registry, policy.retries, journaled.2.2⟩
            now started.2.store report := by
  have herased := Erases.cacheColdStart src policy c now (st, [])
  refine ⟨herased, ?_⟩
  cases hread : (retry policy.retries src.pairAddresses st).1 with
  | error e =>
      have hfirst : Leads (retry policy.retries src.pairAddresses) st fun r _ => r = .error e :=
        hread
      have hfailed : Leads (c.coldStart src policy now) st fun out _ =>
          out.1 = .error (.during "pair registry unavailable" e) ∧
            out.2.store = c.store ∧ out.2.monitor.status = .failed := by
        refine Leads.bind (hfirst.bind fun r s' h => ?_) fun out s' h => h
        subst h
        refine ⟨rfl, rfl, ?_⟩
        have hstarted : c.monitor.markStarted.status = .inProgress := Monitor.status_publish _ _
        show c.monitor.markStarted.markFailed.status = .failed
        rw [Monitor.markFailed, if_pos hstarted, Monitor.status_publish]
      exact hfailed
  | ok registry =>
      have hdivided : Leads (c.coldStart src.journaled policy now) (st, []) fun out s' =>
          ∃ report, out.1 = .ok report ∧ Partitioned
            ⟨c.latestCheckpoint?.toOption.join, registry, policy.retries, s'.2⟩ now
            out.2.store report := by
        rw [Cache.coldStart, hempty]
        exact (leads_coldStart src policy (hregistry registry hread) hread _ now pairs tokens
          c.monitor).bind fun out s' h => h
      rw [← herased.1]
      exact hdivided

/-- Of two registered pairs one is restored, and the other is lost after its references and the
token that it needs beside the restored ones have been read. -/
theorem partitions_two_pairs :
    let asked : PairRefs := ⟨"T-2", "T-3", none, false, false, none, none⟩
    let chain : TableSource :=
      { pairs := [("a1", asked), ("a2", asked)], failing := [("pair_info:a2", -1)] }
    let cache : Cache :=
      { store := .empty {} {}, bus := .ofCapacity 1
        checkpoints := ⟨[.capture pricedStore 7 100]⟩ }
    let started := (cache.coldStart TableSource.source pricedPolicy 150 chain).1
    let log := (cache.coldStart TableSource.source.journaled pricedPolicy 150 (chain, [])).2.2
    started.2.store.pairs.ids = ["a1"] ∧ started.2.store.tokens.ids = ["T-1", "T-2", "T-3"] ∧
      ∃ report, started.1 = .ok report ∧ report.failed = 1 ∧ Partitioned
        ⟨some (.capture pricedStore 7 100), ["a1", "a2"], 0, log⟩ 150 started.2.store report := by
  intro asked chain cache started log
  have hread : (retry pricedPolicy.retries TableSource.source.pairAddresses chain).1 =
      .ok ["a1", "a2"] := rfl
  have hcount : started.1.toOption.map ColdStartReport.failed = some 1 := by decide +kernel
  obtain ⟨-, hdivided⟩ := Cache.coldStart_partitions TableSource.source pricedPolicy cache rfl 150
    chain fun registry hregistry => by
      rw [hread] at hregistry
      obtain rfl := Except.ok.inj hregistry
      decide
  rw [hread] at hdivided
  obtain ⟨report, hreport, hpartitioned⟩ := hdivided
  refine ⟨by decide +kernel, by decide +kernel, report, hreport, ?_, hpartitioned⟩
  change started.1 = _ at hreport
  rw [hreport] at hcount
  exact Option.some.inj hcount

end Started

end DexCache
