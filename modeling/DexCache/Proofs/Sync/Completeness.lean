import DexCache.Proofs.Readiness
import DexCache.Proofs.Sync.Restoration

/-!
# What a cold start leaves out

A cold start counts each read that failed for good.  From an empty store it counts none exactly
if every registered pair is stored with both of its tokens.  The published readiness says less:
a token that was not read is missed by the pairs that name it, but a pair that was not read is
missed by nothing, and what is there can be settled without it.

The results of each round stand beside what was to be read, so the proofs compare keys: a round
has failed nowhere exactly if each key has its entity.
-/

namespace DexCache

/-- The two tokens of a pair are there. -/
structure Pair.Backed (there : String → Bool) (p : Pair) : Prop where
  both : p.tokenIds.length = 2
  there : ∀ name ∈ p.tokenIds, there name = true

theorem Pair.Backed.mono {there there' : String → Bool} {p : Pair} (h : p.Backed there)
    (hsub : ∀ name, there name = true → there' name = true) : p.Backed there' :=
  ⟨h.both, fun name hname => hsub name (h.there name hname)⟩

/-- Every registered pair is stored with both of its tokens. -/
def Complete (registry : List String) (s : Store) : Prop :=
  ∀ address ∈ registry, ∃ p, s.pairs.get? address = some p ∧ p.Backed s.tokens.contains

theorem Collection.contains_put {α G P : Type} [DecidableEq G] [FieldGroup G] [Entity α G P]
    (c : Collection α G) (snapshot : α) (now : Int) (name : String) :
    (c.put snapshot now).contains name =
      (decide (Entity.id snapshot = name) || c.contains name) := by
  by_cases hname : name = Entity.id snapshot
  · subst hname
    simp [contains, find?_put_self]
  · simp [contains, find?_put_of_ne c snapshot now hname, Ne.symm hname]

/-- What can be restored has both its tokens among those that come with it. -/
theorem Checkpoint.backed_of_restorable? {cp : Checkpoint} {address : String} {p : Pair}
    {tokens : List Token} (h : cp.restorable? address = some (p, tokens)) :
    p.Backed fun name => tokens.any fun t => t.identifier = name := by
  simp only [restorable?, Option.bind_eq_bind, Option.bind_eq_some_iff] at h
  obtain ⟨p', -, h⟩ := h
  split at h
  · cases h
  · next htwo =>
      obtain ⟨tokens', htokens, h⟩ := Option.bind_eq_some_iff.1 h
      cases h
      refine ⟨?_, fun name hname => ?_⟩
      · have hle : p.tokenIds.length ≤ 2 := by
          simp only [Pair.tokenIds, List.length_append, Option.length_toList]
          split <;> split <;> omega
        omega
      · obtain ⟨t, ht, hfound⟩ := Paired.exists_right (Paired.forall₂_of_mapM htokens) hname
        have hid : t.identifier = name := by simpa using List.find?_some hfound
        simpa using ⟨t, ht, hid⟩

namespace ColdStart

variable {registry visited : List String} {c : ColdStart} {now : Int}

/-- The tokens that are stored are the known ones. -/
def Synced (c : ColdStart) : Prop :=
  ∀ name, c.store.tokens.contains name = (c.token? name).isSome

theorem Synced.addToken (h : c.Synced) (t : Token) (time : Int) : (c.addToken t time).Synced := by
  intro name
  have hstored := Collection.contains_put c.store.tokens t time name
  refine hstored.trans ?_
  by_cases hname : t.identifier = name
  · simp [ColdStart.token?, ColdStart.addToken, hname, show Entity.id t = t.identifier from rfl]
  · simpa [ColdStart.token?, ColdStart.addToken, hname,
      show Entity.id t = t.identifier from rfl] using h name

/-- Restoring tokens stores them beside those that were there. -/
theorem Synced.restoreTokens (h : c.Synced) (time : Int) (tokens : List Token) :
    (tokens.foldl (restoreToken time) c).Synced ∧
      ∀ name, (tokens.foldl (restoreToken time) c).store.tokens.contains name =
        (c.store.tokens.contains name || tokens.any fun t => t.identifier = name) := by
  induction tokens generalizing c with
  | nil => exact ⟨h, by simp⟩
  | cons t rest ih =>
      have hstep : (restoreToken time c t).Synced ∧
          ∀ name, (restoreToken time c t).store.tokens.contains name =
            (c.store.tokens.contains name || decide (t.identifier = name)) := by
        unfold restoreToken
        split
        -- the token is known, so it is stored already
        · next t' hknown =>
            refine ⟨h, fun name => ?_⟩
            by_cases hname : t.identifier = name
            · have hthere := h t.identifier
              rw [hknown] at hthere
              simp [← hname, hthere]
            · simp [hname]
        · refine ⟨h.addToken t time, fun name => ?_⟩
          rw [Bool.or_comm]
          exact Collection.contains_put c.store.tokens t time name
      obtain ⟨hsynced, hcontains⟩ := ih hstep.1
      refine ⟨hsynced, fun name => ?_⟩
      rw [List.foldl_cons, hcontains, hstep.2, List.any_cons, Bool.or_assoc]

theorem restoreTokens_keeps (time : Int) (tokens : List Token) (c : ColdStart) :
    let kept (c : ColdStart) := (c.pairs, c.fresh, { c.report with restoredTokens := 0 })
    kept (tokens.foldl (restoreToken time) c) = kept c := by
  intro kept
  refine foldl_keeps kept (fun c t => ?_) tokens c
  unfold restoreToken
  split <;> rfl

/-- A cold start from an empty store that has visited some registered addresses: each of them is
to be read or kept with both of its tokens, and nothing has failed. -/
structure Visited (visited : List String) (c : ColdStart) : Prop where
  synced : c.Synced
  backed : ∀ e ∈ c.pairs, e.1.Backed c.store.tokens.contains
  either : ∀ address ∈ visited, address ∈ c.fresh ∨ ∃ e ∈ c.pairs, e.1.address = address
  apart : ∀ e ∈ c.pairs, e.1.address ∈ visited ∧ e.1.address ∉ c.fresh
  fresh : c.fresh.Sublist visited
  failed : c.report.failed = 0

/-- Restoring a registered pair visits it. -/
theorem Visited.restorePair (h : Visited visited c) {cp : Checkpoint} {address : String} {p : Pair}
    {tokens : List Token} (hrestorable : cp.restorable? address = some (p, tokens))
    (hnew : address ∉ visited) :
    Visited (visited ++ [address]) (c.restorePair cp.createdAt.instant p tokens) := by
  obtain ⟨-, haddress, -⟩ := Checkpoint.of_restorable? hrestorable
  obtain ⟨hsynced, hcontains⟩ := h.synced.restoreTokens cp.createdAt.instant tokens
  have hkept := restoreTokens_keeps cp.createdAt.instant tokens c
  simp only [Prod.mk.injEq] at hkept
  obtain ⟨hpairs, hfresh, hreport⟩ := hkept
  have hfailed := congrArg ColdStartReport.failed hreport
  refine ⟨hsynced, ?_, ?_, ?_, ?_, hfailed.trans h.failed⟩
  · intro e he
    simp only [ColdStart.restorePair, hpairs, List.mem_cons] at he
    rcases he with rfl | he
    · refine (Checkpoint.backed_of_restorable? hrestorable).mono fun name hname => ?_
      exact (hcontains name).trans (by rw [hname, Bool.or_true])
    · refine (h.backed e he).mono fun name hname => ?_
      exact (hcontains name).trans (by rw [hname, Bool.true_or])
  · intro a ha
    simp only [ColdStart.restorePair, hpairs, hfresh]
    rcases List.mem_append.1 ha with ha | ha
    · rcases h.either a ha with hread | ⟨e, he, hid⟩
      · exact .inl hread
      · exact .inr ⟨e, List.mem_cons_of_mem _ he, hid⟩
    · rw [List.mem_singleton.1 ha]
      exact .inr ⟨_, List.mem_cons_self, haddress⟩
  · intro e he
    simp only [ColdStart.restorePair, hpairs, hfresh, List.mem_cons] at he ⊢
    rcases he with rfl | he
    · rw [haddress]
      exact ⟨by simp, fun hmem => hnew (h.fresh.subset hmem)⟩
    · obtain ⟨hvisited, hapart⟩ := h.apart e he
      exact ⟨List.mem_append_left _ hvisited, hapart⟩
  · simp only [ColdStart.restorePair, hfresh]
    exact h.fresh.trans (List.sublist_append_left _ _)

/-- A registered pair is visited by restoring it or by noting that it must be read. -/
theorem Visited.visit (h : Visited visited c) (checkpoint : Option Checkpoint) {address : String}
    (hnew : address ∉ visited) : Visited (visited ++ [address]) (c.visit checkpoint address) := by
  unfold ColdStart.visit
  split
  · next cp p tokens hfound =>
      obtain ⟨cp', -, hfound⟩ := Option.bind_eq_some_iff.1 hfound
      obtain ⟨found, hrestorable, hpacked⟩ := Option.map_eq_some_iff.1 hfound
      cases hpacked
      exact h.restorePair hrestorable hnew
  -- the pair must be read
  · refine ⟨h.synced, h.backed, ?_, ?_, h.fresh.append_right [address], h.failed⟩
    · intro a ha
      rcases List.mem_append.1 ha with ha | ha
      · exact (h.either a ha).imp_left (List.mem_append_left _)
      · exact .inl (List.mem_append_right _ ha)
    · intro e he
      obtain ⟨hvisited, hapart⟩ := h.apart e he
      refine ⟨List.mem_append_left _ hvisited, ?_⟩
      rw [List.mem_append, List.mem_singleton, not_or]
      exact ⟨hapart, fun hid => hnew (hid ▸ hvisited)⟩

/-- The first step of a cold start from an empty store visits the whole registry. -/
theorem visited_ofRegistry (hregistry : registry.Nodup) (checkpoint : Option Checkpoint)
    (pairs : Thresholds PairGroup) (tokens : Thresholds TokenGroup) :
    Visited registry (ofRegistry (.empty pairs tokens) checkpoint registry) := by
  have hfold : ∀ (rest visited : List String) (c : ColdStart), Visited visited c →
      (visited ++ rest).Nodup →
      Visited (visited ++ rest) (rest.foldl (ColdStart.visit checkpoint) c) := by
    intro rest
    induction rest with
    | nil => intro visited c h _; simpa using h
    | cons address rest ih =>
        intro visited c h hnodup
        have hnew : address ∉ visited := by
          intro hmem
          exact (List.nodup_append.1 hnodup).2.2 _ hmem _ List.mem_cons_self rfl
        rw [List.append_cons] at hnodup ⊢
        exact ih _ _ (h.visit checkpoint hnew) hnodup
  refine hfold registry [] _ ⟨fun _ => rfl, ?_, ?_, ?_, .slnil, rfl⟩ hregistry
  all_goals simp

section Rounds

variable {refs : List (Except Failure PairRefs)} {tokens : List (Except Failure Token)}
  {pairs : List (Except Failure Pair)}

/-- Nothing has failed after some results exactly if nothing had before and every result is an
entity. -/
theorem failed_foldl_eq_zero_iff {α : Type} {accept : ColdStart → Except Failure α → ColdStart}
    (hok : ∀ c a, (accept c (.ok a)).report.failed = c.report.failed)
    (herror : ∀ c e, (accept c (.error e)).report.failed = c.report.failed + 1)
    (results : List (Except Failure α)) (c : ColdStart) :
    (results.foldl accept c).report.failed = 0 ↔
      c.report.failed = 0 ∧ ∀ r ∈ results, ∃ a, r = .ok a := by
  induction results generalizing c with
  | nil => simp
  | cons r rest ih =>
      rw [List.foldl_cons, ih, List.forall_mem_cons]
      cases r with
      | ok a => simp [hok]
      | error e => simp [herror]

/-- The stored tokens are those of before and those that were read. -/
theorem contains_filled (c : ColdStart) (now : Int) (refs : List (Except Failure PairRefs))
    (tokens : List (Except Failure Token)) (name : String) :
    (c.filled now refs tokens).store.tokens.contains name = true ↔
      c.store.tokens.contains name = true ∨ ∃ t, .ok t ∈ tokens ∧ t.identifier = name := by
  have hfold (c : ColdStart) : (tokens.foldl (acceptToken now) c).store.tokens.contains name =
      true ↔ c.store.tokens.contains name = true ∨
        ∃ t, .ok t ∈ tokens ∧ t.identifier = name := by
    induction tokens generalizing c with
    | nil => simp
    | cons r rest ih =>
        rw [List.foldl_cons, ih]
        cases r with
        | error e => simp [acceptToken, addFailed]
        | ok t =>
            have hput := Collection.contains_put c.store.tokens t now name
            simp only [acceptToken, addToken, hput, Bool.or_eq_true, decide_eq_true_eq,
              List.mem_cons, Except.ok.injEq, or_and_right, exists_or, exists_eq_left]
            exact or_assoc.trans or_left_comm
  exact hfold _

/-- The kept pairs are those of before and those that were read. -/
theorem mem_pairs_loaded {e : Pair × Int} :
    e ∈ (c.loaded now refs tokens pairs).pairs ↔
      e ∈ c.pairs ∨ ∃ p, .ok p ∈ pairs ∧ e = (p, now) := by
  have hfold (c : ColdStart) : e ∈ (pairs.foldl (acceptPair now) c).pairs ↔
      e ∈ c.pairs ∨ ∃ p, .ok p ∈ pairs ∧ e = (p, now) := by
    induction pairs generalizing c with
    | nil => simp
    | cons r rest ih =>
        rw [List.foldl_cons, ih]
        cases r with
        | error e => simp [acceptPair, addFailed]
        | ok p =>
            simp only [acceptPair, List.mem_cons, Except.ok.injEq, or_and_right, exists_or,
              exists_eq_left]
            exact or_assoc.trans or_left_comm
  have hkept : (c.filled now refs tokens).pairs = c.pairs :=
    foldl_keeps ColdStart.pairs (pairs_acceptToken now) tokens _
  rw [loaded, hfold, hkept]

theorem store_loaded (c : ColdStart) (now : Int) (refs : List (Except Failure PairRefs))
    (tokens : List (Except Failure Token)) (pairs : List (Except Failure Pair)) :
    (c.loaded now refs tokens pairs).store = (c.filled now refs tokens).store :=
  foldl_keeps store (store_acceptPair now) pairs _

/-- Reading leaves the registry and the stored pairs alone. -/
theorem loaded_keeps (c : ColdStart) (now : Int) (refs : List (Except Failure PairRefs))
    (tokens : List (Except Failure Token)) (pairs : List (Except Failure Pair)) :
    (c.loaded now refs tokens pairs).registry = c.registry ∧
      (c.loaded now refs tokens pairs).store.pairs = c.store.pairs := by
  have hframe : (c.loaded now refs tokens pairs).frame = c.frame :=
    (foldl_keeps frame (frame_acceptPair now) pairs _).trans
      (foldl_keeps frame (frame_acceptToken now) tokens _)
  exact ⟨(Prod.mk.inj hframe).1, (Prod.mk.inj (Prod.mk.inj hframe).2).1⟩

/-- Nothing has failed exactly if all references, all tokens and all pairs were read. -/
theorem failed_loaded_eq_zero_iff (hfailed : c.report.failed = 0) :
    (c.loaded now refs tokens pairs).report.failed = 0 ↔
      c.fresh.length ≤ (c.referenced refs).length ∧
        (∀ r ∈ tokens, ∃ t, r = .ok t) ∧ ∀ r ∈ pairs, ∃ p, r = .ok p := by
  rw [loaded, failed_foldl_eq_zero_iff (fun _ _ => rfl) (fun _ _ => rfl), filled,
    failed_foldl_eq_zero_iff (fun _ _ => rfl) (fun _ _ => rfl), and_assoc]
  simp only [addFailed, hfailed, Nat.zero_add, Nat.sub_eq_zero_iff_le]

theorem mem_missingTokens_iff {asked : List (String × PairRefs)} {name : String} :
    name ∈ c.missingTokens asked ↔
      (∃ a ∈ asked, name ∈ a.2.tokenIds) ∧ c.token? name = none := by
  simp [missingTokens]

theorem nodup_missingTokens (c : ColdStart) (asked : List (String × PairRefs)) :
    (c.missingTokens asked).Nodup :=
  (Distinct.nodup_eraseDups _).filter _

/-- The pairs whose references were read are those to be read, in their order. -/
theorem addresses_referenced (h : c.fresh.length = refs.length) :
    ((c.referenced refs).map Prod.fst).Sublist c.fresh := by
  have hkeys : ((c.referenced refs).map Prod.fst).Sublist ((c.fresh.zip refs).map Prod.fst) := by
    refine Distinct.sublist_map_filterMap fun e _ asked hasked => ?_
    obtain ⟨_, -, rfl⟩ := Option.map_eq_some_iff.1 hasked
    rfl
  rwa [List.map_fst_zip (Nat.le_of_eq h)] at hkeys

namespace Rounds

variable (hrounds : Rounds c now refs tokens pairs)

include hrounds

/-- A pair that was read was to be read, and needs the tokens that it refers to. -/
theorem exists_asked {p : Pair} (hp : .ok p ∈ pairs) :
    ∃ asked ∈ c.referenced refs, p.address = asked.1 ∧ p.tokenIds = asked.2.tokenIds := by
  obtain ⟨asked, hasked, hread⟩ := Paired.exists_left hrounds.readPairs hp
  obtain ⟨haddress, htokens⟩ := hread p rfl
  have hcopy (name : String) :
      (PairRefs.copy (c.filled now refs tokens).token? name).identifier = name := by
    unfold PairRefs.copy
    cases hfound : (c.filled now refs tokens).token? name with
    | none => rfl
    | some t => simpa using List.find?_some hfound
  refine ⟨asked, hasked, haddress, ?_⟩
  simp [Pair.tokenIds, Pair.firstTokenId?, Pair.secondTokenId?, htokens, PairRefs.tokens, hcopy,
    PairRefs.tokenIds]

/-- Every kept pair has two tokens. -/
theorem both (h : Visited visited c) :
    ∀ e ∈ (c.loaded now refs tokens pairs).pairs, e.1.tokenIds.length = 2 := by
  intro e he
  rcases mem_pairs_loaded.1 he with he | ⟨p, hp, rfl⟩
  · exact (h.backed e he).both
  · obtain ⟨asked, -, -, htokens⟩ := hrounds.exists_asked hp
    rw [htokens]
    rfl

/-- If all tokens were read, every kept pair has its tokens in the store. -/
theorem backed (h : Visited visited c) (htokens : ∀ r ∈ tokens, ∃ t, r = .ok t) :
    ∀ e ∈ (c.loaded now refs tokens pairs).pairs,
      e.1.Backed (c.loaded now refs tokens pairs).store.tokens.contains := by
  intro e he
  rw [store_loaded]
  refine ⟨hrounds.both h e he, fun name hname => (contains_filled c now refs tokens name).2 ?_⟩
  rcases mem_pairs_loaded.1 he with he | ⟨p, hp, rfl⟩
  · exact .inl ((h.backed e he).there name hname)
  · obtain ⟨asked, hasked, -, hids⟩ := hrounds.exists_asked hp
    cases hknown : c.token? name with
    | some t => exact .inl ((h.synced name).trans (by rw [hknown]; rfl))
    -- the token was not restored, so it was to be read
    | none =>
        have hmissing : name ∈ c.missingTokens (c.referenced refs) :=
          mem_missingTokens_iff.2 ⟨⟨asked, hasked, hids ▸ hname⟩, hknown⟩
        obtain ⟨r, hr, hread⟩ := Paired.exists_right hrounds.readTokens hmissing
        obtain ⟨t, rfl⟩ := htokens r hr
        exact .inr ⟨t, hr, hread t rfl⟩

/-- If all references and all pairs were read, a pair is kept for each registered address. -/
theorem exists_kept (h : Visited visited c)
    (hreferenced : c.fresh.length ≤ (c.referenced refs).length)
    (hpairs : ∀ r ∈ pairs, ∃ p, r = .ok p) {address : String} (haddress : address ∈ visited) :
    ∃ e ∈ (c.loaded now refs tokens pairs).pairs, e.1.address = address := by
  rcases h.either address haddress with hfresh | ⟨e, he, hid⟩
  · have hall : (c.referenced refs).map Prod.fst = c.fresh :=
      (addresses_referenced hrounds.length_refs).eq_of_length_le (by simpa using hreferenced)
    rw [← hall] at hfresh
    obtain ⟨asked, hasked, rfl⟩ := List.mem_map.1 hfresh
    obtain ⟨r, hr, hread⟩ := Paired.exists_right hrounds.readPairs hasked
    obtain ⟨p, rfl⟩ := hpairs r hr
    exact ⟨(p, now), mem_pairs_loaded.2 (.inr ⟨p, hr, rfl⟩), (hread p rfl).1⟩
  · exact ⟨e, mem_pairs_loaded.2 (.inl he), hid⟩

/-- If every pair that had to be read is there with its tokens, every missing token was read. -/
theorem tokens_read (h : Visited visited c) (hfresh : c.fresh.Nodup)
    (hread : ∀ address ∈ c.fresh, ∃ p, .ok p ∈ pairs ∧ p.address = address ∧
      p.Backed (c.loaded now refs tokens pairs).store.tokens.contains) :
    ∀ r ∈ tokens, ∃ t, r = .ok t := by
  have hsub := addresses_referenced hrounds.length_refs
  refine Paired.all_ok_of_keys Token.identifier (c.nodup_missingTokens _)
    hrounds.readTokens.length_eq fun name hname => ?_
  obtain ⟨⟨asked, hasked, hneeded⟩, hunknown⟩ := mem_missingTokens_iff.1 hname
  obtain ⟨p, hp, hid, hbacked⟩ := hread asked.1 (hsub.subset (List.mem_map_of_mem hasked))
  obtain ⟨asked', hasked', hid', htokens⟩ := hrounds.exists_asked hp
  obtain rfl : asked' = asked :=
    Distinct.eq_of_key (hfresh.sublist hsub) hasked' hasked (hid'.symm.trans hid)
  have hthere := hbacked.there name (htokens ▸ hneeded)
  rw [store_loaded] at hthere
  rcases (contains_filled c now refs tokens name).1 hthere with hbefore | hnew
  · rw [h.synced name, hunknown] at hbefore
    cases hbefore
  · exact hnew

end Rounds

end Rounds

section Finish

/-- A registered pair is stored at the end as it was kept. -/
theorem get?_finish (hempty : c.store.pairs.entries = []) {address : String}
    (haddress : address ∈ c.registry) :
    c.finish.pairs.get? address = (c.pair? address).map Prod.fst := by
  cases hkept : c.pair? address with
  | some e =>
      obtain ⟨p, time⟩ := e
      have hid : p.address = address := by simpa using List.find?_some hkept
      subst hid
      simp [Collection.get?, find?_finish haddress hkept]
  | none =>
      have hnone : ∀ q ∈ c.registry.eraseDups.filterMap c.pair?, q.1.address ≠ address := by
        rintro q hq rfl
        obtain ⟨other, -, hfound⟩ := List.mem_filterMap.1 hq
        have hid : q.1.address = other := by simpa using List.find?_some hfound
        rw [hid, hfound] at hkept
        cases hkept
      have hfold (ps : List (Pair × Int)) (pairs : Collection Pair PairGroup)
          (hps : ∀ q ∈ ps, q.1.address ≠ address) :
          (ps.foldl (fun pairs q => pairs.put q.1 q.2) pairs).find? address =
            pairs.find? address := by
        induction ps generalizing pairs with
        | nil => rfl
        | cons q rest ih =>
            obtain ⟨hq, hrest⟩ := List.forall_mem_cons.1 hps
            exact (ih _ hrest).trans (Collection.find?_put_of_ne pairs q.1 q.2 hq.symm)
      have hfind : c.finish.pairs.find? address = c.store.pairs.find? address :=
        hfold _ _ hnone
      have hbefore : c.store.pairs.find? address = none := by
        rw [Collection.find?, hempty]
        rfl
      rw [Collection.get?, hfind, hbefore]
      rfl

/-- What a cold start leaves is complete if each registered pair is kept with its tokens. -/
theorem complete_finish_iff (hempty : c.store.pairs.entries = []) :
    Complete c.registry c.finish ↔ ∀ address ∈ c.registry, ∃ e ∈ c.pairs,
      c.pair? address = some e ∧ e.1.Backed c.store.tokens.contains := by
  have hkept {address : String} (haddress : address ∈ c.registry) :
      (∃ p, c.finish.pairs.get? address = some p ∧ p.Backed c.finish.tokens.contains) ↔
        ∃ e ∈ c.pairs, c.pair? address = some e ∧ e.1.Backed c.store.tokens.contains := by
    rw [get?_finish hempty haddress]
    constructor
    · rintro ⟨p, hp, hbacked⟩
      obtain ⟨e, he, rfl⟩ := Option.map_eq_some_iff.1 hp
      exact ⟨e, List.mem_of_find?_eq_some he, he, hbacked⟩
    · rintro ⟨e, -, he, hbacked⟩
      exact ⟨e.1, by rw [he]; rfl, hbacked⟩
  exact ⟨fun h a ha => (hkept ha).1 (h a ha), fun h a ha => (hkept ha).2 (h a ha)⟩

end Finish

section Counted

variable {refs : List (Except Failure PairRefs)} {tokens : List (Except Failure Token)}
  {pairs : List (Except Failure Pair)}

/-- A pair that had to be read and is there with its tokens was read. -/
theorem exists_read (h : Visited visited c) {address : String} (hfresh : address ∈ c.fresh)
    {e : Pair × Int} (he : (c.loaded now refs tokens pairs).pair? address = some e) :
    .ok e.1 ∈ pairs ∧ e.1.address = address := by
  have hid : e.1.address = address := by simpa using List.find?_some he
  rcases mem_pairs_loaded.1 (List.mem_of_find?_eq_some he) with hbefore | ⟨p, hp, rfl⟩
  · exact absurd (hid ▸ hfresh) (h.apart e hbefore).2
  · exact ⟨hp, hid⟩

/-- From an empty store, a cold start has counted no failure exactly if it leaves every
registered pair with both of its tokens. -/
theorem failed_eq_zero_iff (hrounds : Rounds c now refs tokens pairs)
    (h : Visited c.registry c) (hregistry : c.registry.Nodup)
    (hempty : c.store.pairs.entries = []) :
    let ended := c.loaded now refs tokens pairs
    ended.report.failed = 0 ↔ Complete ended.registry ended.finish := by
  intro ended
  obtain ⟨hsame, hpairs⟩ := loaded_keeps c now refs tokens pairs
  rw [failed_loaded_eq_zero_iff h.failed, complete_finish_iff (hpairs ▸ hempty), hsame]
  constructor
  · rintro ⟨hreferenced, htokens, hread⟩ address haddress
    obtain ⟨e, he, hid⟩ := hrounds.exists_kept h hreferenced hread haddress
    cases hkept : ended.pair? address with
    | none => exact absurd (by simpa using hid) (List.find?_eq_none.1 hkept e he)
    | some e' =>
        have he' := List.mem_of_find?_eq_some hkept
        exact ⟨e', he', rfl, hrounds.backed h htokens e' he'⟩
  · intro hcomplete
    have hfresh : c.fresh.Nodup := hregistry.sublist h.fresh
    have hsub := addresses_referenced hrounds.length_refs
    have hread : ∀ address ∈ c.fresh, ∃ p, .ok p ∈ pairs ∧ p.address = address ∧
        p.Backed ended.store.tokens.contains := by
      intro address haddress
      obtain ⟨e, -, hkept, hbacked⟩ := hcomplete address (h.fresh.subset haddress)
      obtain ⟨hok, hid⟩ := exists_read h haddress hkept
      exact ⟨e.1, hok, hid, hbacked⟩
    refine ⟨?_, ?_, ?_⟩
    -- each pair that was read had its references read
    · have hall : c.fresh ⊆ (c.referenced refs).map Prod.fst := by
        intro address haddress
        obtain ⟨p, hp, rfl, -⟩ := hread address haddress
        obtain ⟨asked, hasked, hid, -⟩ := hrounds.exists_asked hp
        rw [hid]
        exact List.mem_map_of_mem hasked
      simpa using hfresh.length_le_of_subset hall
    · exact hrounds.tokens_read h hfresh hread
    · refine Paired.all_ok_of_keys Pair.address (hfresh.sublist hsub) ?_ ?_
      · rw [List.length_map]
        exact hrounds.readPairs.length_eq
      · intro address haddress
        obtain ⟨p, hp, hid, -⟩ := hread address (hsub.subset haddress)
        exact ⟨p, hp, hid⟩

end Counted

end ColdStart

section ColdStarted

variable {S : Type} {src : Source (StateM S)} {policy : ReadPolicy} {st st' : S}
  {registry : List String}

/-- Once the registry has been read, a cold start from an empty store ends with the three rounds
of reads and a check of what they left. -/
theorem exists_rounds_coldStart
    (h : retry policy.retries src.pairAddresses st = (.ok registry, st'))
    (hregistry : registry.Nodup) (checkpoint : Option Checkpoint) (now : Int)
    (pairs : Thresholds PairGroup) (tokens : Thresholds TokenGroup) (monitor : Monitor) :
    ∃ c refs readTokens readPairs, ColdStart.Visited registry c ∧ c.registry = registry ∧
      c.store.pairs.entries = [] ∧ ColdStart.Rounds c now refs readTokens readPairs ∧
      let ended := c.loaded now refs readTokens readPairs
      (coldStart src policy checkpoint now (.empty pairs tokens) monitor st).1 =
        (.ok ended.report, ended.finish, monitor.markStarted.check ended.finish now) := by
  have hvisited := ColdStart.visited_ofRegistry hregistry checkpoint pairs tokens
  have hframe := ColdStart.frame_ofRegistry (.empty pairs tokens) checkpoint registry
  generalize hc : ColdStart.ofRegistry (.empty pairs tokens) checkpoint registry = c
    at hvisited hframe
  obtain ⟨hsame, hrest⟩ := Prod.mk.inj hframe
  obtain ⟨refs, readTokens, readPairs, hrounds, heq⟩ := c.complete_eq src policy now st'
  refine ⟨c, refs, readTokens, readPairs, hvisited, hsame, ?_, hrounds, ?_⟩
  · rw [(Prod.mk.inj hrest).1]
    rfl
  · rw [← heq, ← hc]
    simp only [coldStart, bind, StateT.bind, h]
    rfl

/-- A cold start from an empty store counts no failure exactly if every registered pair is stored
with both of its tokens.  But the readiness that it publishes vouches for that only if every
registered pair is stored at all, or if something that is stored is stale or lacks a token. -/
theorem done_complete_iff (h : retry policy.retries src.pairAddresses st = (.ok registry, st'))
    (hregistry : registry.Nodup) (checkpoint : Option Checkpoint) (now : Int)
    (pairs : Thresholds PairGroup) (tokens : Thresholds TokenGroup) (monitor : Monitor) :
    ∃ report s published, (coldStart src policy checkpoint now (.empty pairs tokens) monitor st).1 =
        (.ok report, s, published) ∧
      (report.failed = 0 ↔ Complete registry s) ∧
      ((published.status = .done → Complete registry s) ↔
        (∀ address ∈ registry, s.pairs.contains address = true) ∨ ¬ Settled s now) := by
  obtain ⟨c, refs, readTokens, readPairs, hvisited, rfl, hempty, hrounds, hended⟩ :=
    exists_rounds_coldStart h hregistry checkpoint now pairs tokens monitor
  let ended := c.loaded now refs readTokens readPairs
  obtain ⟨hsame, hpairs⟩ := ColdStart.loaded_keeps c now refs readTokens readPairs
  have hdone : (monitor.markStarted.check ended.finish now).status = .done ↔
      Settled ended.finish now := by
    rw [Monitor.check_done_iff, isFresh_inspect_iff, Monitor.markStarted, Monitor.status_publish]
    exact ⟨fun h => h.2.2, fun h => ⟨.inl rfl, rfl, h⟩⟩
  have hcounted : ended.report.failed = 0 ↔ Complete c.registry ended.finish := by
    rw [← hsame]
    exact ColdStart.failed_eq_zero_iff hrounds hvisited hregistry hempty
  have hstored {address : String} (haddress : address ∈ c.registry) :
      ended.finish.pairs.get? address = (ended.pair? address).map Prod.fst :=
    ColdStart.get?_finish (hpairs ▸ hempty) (hsame.symm ▸ haddress)
  refine ⟨ended.report, ended.finish, _, hended, hcounted, ?_⟩
  rw [hdone]
  constructor
  · intro hvouched
    by_cases hsettled : Settled ended.finish now
    · refine .inl fun address haddress => ?_
      obtain ⟨p, hp, -⟩ := hvouched hsettled address haddress
      obtain ⟨e, he, -⟩ := Option.map_eq_some_iff.1 hp
      rw [Collection.contains, he]
      rfl
    · exact .inr hsettled
  · rintro (hall | hunsettled) hsettled
    -- the pairs that are stored have two tokens, and a settled store has them
    · intro address haddress
      obtain ⟨e, he⟩ := Option.isSome_iff_exists.1 (hall address haddress)
      have hget : ended.finish.pairs.get? address = some e.snapshot := by
        rw [Collection.get?, he]
        rfl
      have hmem : e.snapshot ∈ ended.finish.pairs.all :=
        List.mem_map_of_mem (List.mem_of_find?_eq_some he)
      obtain ⟨kept, hkept, hsnapshot⟩ := Option.map_eq_some_iff.1 ((hstored haddress).symm.trans hget)
      refine ⟨e.snapshot, hget, ?_, hsettled.needed _ hmem⟩
      rw [← hsnapshot]
      exact hrounds.both hvisited kept (List.mem_of_find?_eq_some hkept)
    · exact absurd hsettled hunsettled

/-- Two registered pairs, one of which is restored while the other cannot be read: a failure is
counted, readiness is published, and what is stored is settled without the pair. -/
theorem done_without_one_pair :
    let asked : PairRefs := ⟨"T-1", "T-2", none, false, false, none, none⟩
    let chain : TableSource :=
      { pairs := [("a1", asked), ("a2", asked)], failing := [("pair_token_refs:a2", -1)] }
    let out := (coldStart TableSource.source pricedPolicy (some (.capture pricedStore 7 0)) 0
      (.empty {} {}) {} chain).1
    out.2.2.status = .done ∧ Settled out.2.1 0 ∧ ¬ Complete ["a1", "a2"] out.2.1 ∧
      ∃ report, out.1 = .ok report ∧ report.failed ≠ 0 := by
  intro asked chain out
  have hread : retry pricedPolicy.retries TableSource.source.pairAddresses chain =
      (.ok ["a1", "a2"], { chain with calls := [.pairAddresses] }) := rfl
  have hdone : out.2.2.status = .done := by decide +kernel
  have habsent : out.2.1.pairs.contains "a2" = false := by decide +kernel
  obtain ⟨report, s, published, hout, hcounted, hvouched⟩ :=
    done_complete_iff hread (by decide) (some (.capture pricedStore 7 0)) 0 {} {} {}
  change out = _ at hout
  rw [hout] at hdone habsent ⊢
  have hincomplete : ¬ Complete ["a1", "a2"] s := by
    intro hcomplete
    obtain ⟨p, hp, -⟩ := hcomplete "a2" (by simp)
    obtain ⟨e, he, -⟩ := Option.map_eq_some_iff.1 hp
    rw [Collection.contains, he] at habsent
    cases habsent
  refine ⟨hdone, ?_, hincomplete, report, rfl, fun hzero => hincomplete (hcounted.1 hzero)⟩
  by_contra hunsettled
  exact hincomplete (hvouched.2 (.inr hunsettled) hdone)

end ColdStarted

end DexCache
