import DexCache.Proofs.Sync.Completeness

/-!
# What a cold start keeps, item by item

From an empty store a cold start restores the registered pairs that a checkpoint has with both of
their tokens, and notes the others.  The tokens that it stores are those it knows, each once: first
the restored ones, then those that were read.  The pairs that it keeps have distinct addresses and
are stored in the order of the registry.  Every item that is kept and every failure is counted where
it comes up, so the counts in the end are the lengths of these lists.
-/

namespace DexCache

/-- The checkpoint has a pair under this address, and the two tokens that it names. -/
structure Checkpoint.Holds (cp : Checkpoint) (address : String) (p : Pair)
    (first second : Token) : Prop where
  pair : cp.pair? address = some p
  named : p.tokenIds = [first.identifier, second.identifier]
  first : cp.token? first.identifier = some first
  second : cp.token? second.identifier = some second

theorem Checkpoint.identifier_of_token? {cp : Checkpoint} {name : String} {t : Token}
    (h : cp.token? name = some t) : t.identifier = name := by
  simpa using List.find?_some h

/-- A pair can be restored exactly if the checkpoint has it and both of its tokens. -/
theorem Checkpoint.restorable?_eq_some_iff {cp : Checkpoint} {address : String} {p : Pair}
    {tokens : List Token} : cp.restorable? address = some (p, tokens) ↔
      ∃ first second, tokens = [first, second] ∧ cp.Holds address p first second := by
  constructor
  · intro h
    obtain ⟨hpair, -, -⟩ := of_restorable? h
    have htwo := (backed_of_restorable? h).both
    simp only [restorable?, hpair, Option.bind_eq_bind, Option.bind_some, htwo, Nat.lt_irrefl,
      if_false, Option.bind_eq_some_iff] at h
    obtain ⟨tokens', htokens, h⟩ := h
    cases h
    obtain ⟨a, b, hids⟩ := List.length_eq_two.1 htwo
    have hfound := Paired.forall₂_of_mapM htokens
    rw [hids] at hfound
    cases hfound with
    | cons hfirst hrest =>
        cases hrest with
        | cons hsecond hnil =>
            cases hnil
            have hfirstId := identifier_of_token? hfirst
            have hsecondId := identifier_of_token? hsecond
            refine ⟨_, _, rfl, hpair, ?_, hfirstId ▸ hfirst, hsecondId ▸ hsecond⟩
            rw [hids, hfirstId, hsecondId]
  · rintro ⟨first, second, rfl, h⟩
    simp [restorable?, h.pair, h.named, h.first, h.second]

/-- Storing a new snapshot adds it at the end. -/
theorem Collection.entries_put_of_new {α G P : Type} [DecidableEq G] [FieldGroup G]
    [Entity α G P] {c : Collection α G} {snapshot : α} (hnew : Entity.id snapshot ∉ c.ids)
    (time : Int) : (c.put snapshot time).entries = c.entries ++ [⟨snapshot, .all time⟩] := by
  have hwrite (entries : List (Stored α G))
      (hnew : ∀ e ∈ entries, Entity.id e.snapshot ≠ Entity.id snapshot) :
      write (Entity.id snapshot) (fun _ => ⟨snapshot, .all time⟩) entries =
        entries ++ [⟨snapshot, .all time⟩] := by
    induction entries with
    | nil => rfl
    | cons e rest ih =>
        obtain ⟨he, hrest⟩ := List.forall_mem_cons.1 hnew
        rw [write, if_neg he, ih hrest, List.cons_append]
  exact hwrite c.entries fun e he hid => hnew (hid ▸ List.mem_map_of_mem he)

theorem Collection.ids_put_of_new {α G P : Type} [DecidableEq G] [FieldGroup G]
    [Entity α G P] {c : Collection α G} {snapshot : α} (hnew : Entity.id snapshot ∉ c.ids)
    (time : Int) : (c.put snapshot time).ids = c.ids ++ [Entity.id snapshot] := by
  rw [ids, entries_put_of_new hnew, List.map_append]
  rfl

namespace ColdStart

variable {checkpoint : Option Checkpoint} {registry visited : List String} {c : ColdStart}
  {now : Int}

/-- What a checkpoint, if there is one, has of a pair. -/
def held? (checkpoint : Option Checkpoint) (address : String) : Option (Pair × List Token) :=
  checkpoint.bind fun cp => cp.restorable? address

/-- The time that a checkpoint is from; it matters only if there is one. -/
def takenAt (checkpoint : Option Checkpoint) : Int :=
  (checkpoint.map fun cp => cp.createdAt.instant).getD 0

theorem visit_eq (checkpoint : Option Checkpoint) (c : ColdStart) (address : String) :
    c.visit checkpoint address = match held? checkpoint address with
      | some (p, tokens) => c.restorePair (takenAt checkpoint) p tokens
      | none => { c with fresh := c.fresh ++ [address] } := by
  cases checkpoint with
  | none => rfl
  | some cp =>
      cases h : cp.restorable? address with
      | none => simp [visit, held?, h]
      | some found => simp [visit, held?, takenAt, h]

/-- The known tokens are stored, the latest last, each once and as the checkpoint has it. -/
structure Stocked (checkpoint : Option Checkpoint) (c : ColdStart) : Prop where
  held : ∀ t ∈ c.known, ∃ cp ∈ checkpoint, cp.token? t.identifier = some t
  once : (c.known.map Token.identifier).Nodup
  stored : c.store.tokens.entries =
    c.known.reverse.map fun t => ⟨t, .all (takenAt checkpoint)⟩
  counted : c.report.restoredTokens = c.known.length

theorem Stocked.mem_ids_iff (h : Stocked checkpoint c) {name : String} :
    name ∈ c.store.tokens.ids ↔ ∃ t ∈ c.known, t.identifier = name := by
  simp [Collection.ids, h.stored, Entity.id]

/-- Restoring a token of the checkpoint makes it known, if it is not known already. -/
theorem Stocked.restoreToken (h : Stocked checkpoint c) {t : Token}
    (ht : ∃ cp ∈ checkpoint, cp.token? t.identifier = some t) :
    Stocked checkpoint (restoreToken (takenAt checkpoint) c t) ∧
      ∀ t', t' ∈ (ColdStart.restoreToken (takenAt checkpoint) c t).known ↔
        t' ∈ c.known ∨ t' = t := by
  unfold ColdStart.restoreToken
  cases hknown : c.token? t.identifier with
  | some t' =>
      have hmem : t' ∈ c.known := List.mem_of_find?_eq_some hknown
      have hid : t'.identifier = t.identifier := by simpa using List.find?_some hknown
      -- both tokens are the one that the checkpoint has
      obtain ⟨cp, hcp, htoken⟩ := ht
      obtain ⟨cp', hcp', htoken'⟩ := h.held t' hmem
      obtain rfl := Option.mem_unique hcp hcp'
      rw [hid, htoken] at htoken'
      obtain rfl := Option.some.inj htoken'
      refine ⟨h, fun t' => ⟨.inl, ?_⟩⟩
      rintro (ht' | rfl)
      · exact ht'
      · exact hmem
  | none =>
      have hnew : t.identifier ∉ c.store.tokens.ids := by
        rw [h.mem_ids_iff]
        rintro ⟨t', ht', hid⟩
        exact token?_eq_none_iff.1 hknown t' ht' hid
      refine ⟨⟨?_, ?_, ?_, ?_⟩, fun t' => by simp [addToken, or_comm]⟩
      · exact List.forall_mem_cons.2 ⟨ht, h.held⟩
      · refine List.nodup_cons.2 ⟨fun hmem => hnew ?_, h.once⟩
        rw [h.mem_ids_iff]
        exact List.mem_map.1 hmem
      · refine (Collection.entries_put_of_new hnew _).trans ?_
        simp [addToken, h.stored]
      · simp [addToken, h.counted]

theorem Stocked.restoreTokens (h : Stocked checkpoint c) {tokens : List Token}
    (htokens : ∀ t ∈ tokens, ∃ cp ∈ checkpoint, cp.token? t.identifier = some t) :
    Stocked checkpoint (tokens.foldl (ColdStart.restoreToken (takenAt checkpoint)) c) ∧
      ∀ t, t ∈ (tokens.foldl (ColdStart.restoreToken (takenAt checkpoint)) c).known ↔
        t ∈ c.known ∨ t ∈ tokens := by
  induction tokens generalizing c with
  | nil => exact ⟨h, by simp⟩
  | cons t rest ih =>
      obtain ⟨ht, hrest⟩ := List.forall_mem_cons.1 htokens
      obtain ⟨hstep, hknown⟩ := h.restoreToken ht
      obtain ⟨hstocked, hall⟩ := ih hstep hrest
      refine ⟨hstocked, fun t' => ?_⟩
      rw [List.foldl_cons, hall, hknown, List.mem_cons, or_assoc]

/-- A cold start from an empty store that has visited some registered addresses and has read
nothing yet. -/
structure Restored (checkpoint : Option Checkpoint) (visited : List String) (c : ColdStart) :
    Prop extends Stocked checkpoint c where
  fresh : c.fresh = visited.filter fun address => (held? checkpoint address).isNone
  pairs : c.pairs = (visited.filterMap fun address =>
    (held? checkpoint address).map fun found => (found.1, takenAt checkpoint)).reverse
  known : ∀ t, t ∈ c.known ↔ ∃ address ∈ visited, ∃ p tokens,
    held? checkpoint address = some (p, tokens) ∧ t ∈ tokens
  report : { c.report with restoredTokens := 0 } =
    ({ restoredPairs := c.pairs.length } : ColdStartReport)

/-- Visiting a registered address restores what is held under it, or notes that it must be read. -/
theorem Restored.visit (h : Restored checkpoint visited c) (address : String) :
    Restored checkpoint (visited ++ [address]) (c.visit checkpoint address) := by
  rw [visit_eq]
  cases hheld : held? checkpoint address with
  | none =>
      refine ⟨⟨h.held, h.once, h.stored, h.counted⟩, ?_, ?_, ?_, h.report⟩
      · simp [h.fresh, hheld]
      · simp [h.pairs, hheld]
      · intro t
        simp [h.known, or_and_right, exists_or, hheld]
  | some found =>
      obtain ⟨p, tokens⟩ := found
      obtain ⟨cp, hcp, hrestorable⟩ := Option.bind_eq_some_iff.1 hheld
      obtain ⟨-, -, htokens⟩ := Checkpoint.of_restorable? hrestorable
      obtain ⟨hstocked, hknown⟩ :=
        h.toStocked.restoreTokens fun t ht => ⟨cp, hcp, htokens t ht⟩
      have hkept := restoreTokens_keeps (takenAt checkpoint) tokens c
      simp only [Prod.mk.injEq] at hkept
      obtain ⟨hpairs, hfresh, hreport⟩ := hkept
      refine ⟨⟨hstocked.held, hstocked.once, hstocked.stored, hstocked.counted⟩, ?_, ?_, ?_, ?_⟩
      · simp [restorePair, hfresh, h.fresh, hheld]
      · simp [restorePair, hpairs, h.pairs, hheld]
      · intro t
        simp [restorePair, hknown, h.known, or_and_right, exists_or, hheld]
      · have hcount := congrArg ColdStartReport.restoredPairs (hreport.trans h.report)
        simpa [restorePair, hpairs] using And.intro hcount (hreport.trans h.report)

/-- The first step of a cold start from an empty store restores what is held of the registry. -/
theorem restored_ofRegistry (checkpoint : Option Checkpoint) (registry : List String)
    (pairs : Thresholds PairGroup) (tokens : Thresholds TokenGroup) :
    Restored checkpoint registry (ofRegistry (.empty pairs tokens) checkpoint registry) := by
  have hfold : ∀ (rest visited : List String) (c : ColdStart), Restored checkpoint visited c →
      Restored checkpoint (visited ++ rest) (rest.foldl (ColdStart.visit checkpoint) c) := by
    intro rest
    induction rest with
    | nil => exact fun visited c h => by simpa using h
    | cons address rest ih =>
        intro visited c h
        rw [List.append_cons]
        exact ih _ _ (h.visit address)
  refine hfold registry [] _ ⟨⟨?_, ?_, rfl, rfl⟩, rfl, rfl, ?_, rfl⟩
  all_goals simp

section Accepted

/-- What was read, without the failures. -/
def found {α : Type} (results : List (Except Failure α)) : List α :=
  results.filterMap Except.toOption

/-- How many reads have failed. -/
def failures {α : Type} : List (Except Failure α) → Nat
  | [] => 0
  | .ok _ :: rest => failures rest
  | .error _ :: rest => failures rest + 1

theorem mem_found_iff {α : Type} {results : List (Except Failure α)} {a : α} :
    a ∈ found results ↔ .ok a ∈ results := by
  constructor
  · intro h
    obtain ⟨r, hr, hok⟩ := List.mem_filterMap.1 h
    cases r with
    | ok b => exact Option.some.inj hok ▸ hr
    | error e => cases hok
  · exact fun h => List.mem_filterMap.2 ⟨_, h, rfl⟩

/-- Each result is a find or a failure. -/
theorem length_found_add_failures {α : Type} (results : List (Except Failure α)) :
    (found results).length + failures results = results.length := by
  induction results with
  | nil => rfl
  | cons r rest ih =>
      cases r with
      | ok a =>
          show (found rest).length + 1 + failures rest = rest.length + 1
          omega
      | error e =>
          show (found rest).length + (failures rest + 1) = rest.length + 1
          omega

/-- The tokens that were read are stored behind those that are there, and are counted. -/
theorem foldl_acceptToken {results : List (Except Failure Token)}
    (h : (c.store.tokens.ids ++ (found results).map Token.identifier).Nodup) :
    let ended := results.foldl (acceptToken now) c
    ended.known = (found results).reverse ++ c.known ∧
      ended.store.tokens.entries =
        c.store.tokens.entries ++ (found results).map (fun t => ⟨t, .all now⟩) ∧
      ended.report = { c.report with
        fetchedTokens := c.report.fetchedTokens + (found results).length
        failed := c.report.failed + failures results } := by
  induction results generalizing c with
  | nil => simp [found, failures]
  | cons r rest ih =>
      cases r with
      | error e =>
          obtain ⟨hknown, hentries, hreport⟩ := ih (c := acceptToken now c (.error e)) h
          refine ⟨hknown, hentries, hreport.trans ?_⟩
          simp only [acceptToken, addFailed, failures, Nat.add_assoc, Nat.add_comm 1]
          rfl
      | ok t =>
          rw [show found (.ok t :: rest) = t :: found rest from rfl, List.map_cons] at h
          have hnew : t.identifier ∉ c.store.tokens.ids := Distinct.not_mem_of_nodup h
          have hput : (acceptToken now c (.ok t)).store.tokens.entries =
              c.store.tokens.entries ++ [⟨t, .all now⟩] := Collection.entries_put_of_new hnew now
          have hids : (acceptToken now c (.ok t)).store.tokens.ids =
              c.store.tokens.ids ++ [t.identifier] := Collection.ids_put_of_new hnew now
          rw [List.append_cons, ← hids] at h
          obtain ⟨hknown, hentries, hreport⟩ := ih (c := acceptToken now c (.ok t)) h
          refine ⟨?_, ?_, hreport.trans ?_⟩
          · refine hknown.trans ?_
            simp [acceptToken, addToken, found, Except.toOption]
          · refine hentries.trans ?_
            rw [hput]
            simp [found, Except.toOption]
          · simp only [acceptToken, addToken, failures, found, Nat.add_assoc, Nat.add_comm 1]
            rfl

/-- The pairs that were read are kept before those that are there, and are counted. -/
theorem foldl_acceptPair (results : List (Except Failure Pair)) (c : ColdStart) :
    let ended := results.foldl (acceptPair now) c
    ended.pairs = ((found results).map fun p => (p, now)).reverse ++ c.pairs ∧
      ended.report = { c.report with
        fetchedPairs := c.report.fetchedPairs + (found results).length
        failed := c.report.failed + failures results } := by
  induction results generalizing c with
  | nil => simp [found, failures]
  | cons r rest ih =>
      obtain ⟨hpairs, hreport⟩ := ih (acceptPair now c r)
      cases r with
      | error e =>
          refine ⟨hpairs, hreport.trans ?_⟩
          simp only [acceptPair, addFailed, failures, Nat.add_assoc, Nat.add_comm 1]
          rfl
      | ok p =>
          refine ⟨hpairs.trans ?_, hreport.trans ?_⟩
          · simp [acceptPair, found, Except.toOption]
          · simp only [acceptPair, failures, found, Nat.add_assoc, Nat.add_comm 1]
            rfl

end Accepted

section Finished

/-- Pairs with distinct addresses are stored in the order in which they are put. -/
theorem entries_foldl_put {ps : List (Pair × Int)} {pairs : Collection Pair PairGroup}
    (h : (pairs.ids ++ ps.map fun q => q.1.address).Nodup) :
    (ps.foldl (fun pairs q => pairs.put q.1 q.2) pairs).entries =
      pairs.entries ++ ps.map fun q => ⟨q.1, .all q.2⟩ := by
  induction ps generalizing pairs with
  | nil => simp
  | cons q rest ih =>
      rw [List.map_cons] at h
      have hnew : q.1.address ∉ pairs.ids := Distinct.not_mem_of_nodup h
      have hids : (pairs.put q.1 q.2).ids = pairs.ids ++ [q.1.address] :=
        Collection.ids_put_of_new hnew q.2
      rw [List.append_cons, ← hids] at h
      rw [List.foldl_cons, ih h, Collection.entries_put_of_new hnew, List.map_cons,
        List.append_assoc, List.singleton_append]

theorem address_of_pair? {address : String} {q : Pair × Int} (h : c.pair? address = some q) :
    q.1.address = address := by
  simpa using List.find?_some h

/-- The pairs that are kept stand in the order of the registry. -/
theorem addresses_kept (c : ColdStart) :
    ((c.registry.filterMap c.pair?).map fun q => q.1.address).Sublist c.registry := by
  have hkeys : ((c.registry.filterMap c.pair?).map fun q => q.1.address).Sublist
      (c.registry.map id) :=
    Distinct.sublist_map_filterMap fun address _ q hq => address_of_pair? hq
  rwa [List.map_id] at hkeys

/-- The pairs that are kept are stored, each with its own time. -/
theorem entries_finish (hregistry : c.registry.Nodup) (hempty : c.store.pairs.entries = []) :
    c.finish.pairs.entries = (c.registry.filterMap c.pair?).map fun q => ⟨q.1, .all q.2⟩ := by
  have hnew : (c.store.pairs.ids ++
      (c.registry.filterMap c.pair?).map fun q => q.1.address).Nodup := by
    rw [Collection.ids, hempty]
    exact hregistry.sublist c.addresses_kept
  simp only [finish, Store.markPopulated, Distinct.eraseDups_eq_self hregistry]
  rw [entries_foldl_put hnew, hempty, List.nil_append]

/-- If all pairs that are kept have distinct registered addresses, each of them has its place. -/
theorem perm_kept (hregistry : c.registry.Nodup) (hone : (c.pairs.map fun q => q.1.address).Nodup)
    (hall : ∀ q ∈ c.pairs, q.1.address ∈ c.registry) :
    (c.registry.filterMap c.pair?).Perm c.pairs := by
  refine (List.perm_ext_iff_of_nodup (List.Nodup.of_map _ (hregistry.sublist c.addresses_kept))
    (List.Nodup.of_map _ hone)).2 fun q => ?_
  rw [List.mem_filterMap]
  constructor
  · rintro ⟨address, -, hq⟩
    exact List.mem_of_find?_eq_some hq
  · intro hq
    exact ⟨q.1.address, hall q hq, (Distinct.find?_key_iff hone).2 ⟨hq, rfl⟩⟩

end Finished

section Loaded

variable {refs : List (Except Failure PairRefs)} {tokens : List (Except Failure Token)}
  {pairs : List (Except Failure Pair)}

/-- What was found for some keys has them in their order. -/
theorem keys_found {α κ : Type} {key : α → κ} {keys : List κ} {results : List (Except Failure α)}
    (h : List.Forall₂ (fun k r => ∀ a, r = .ok a → key a = k) keys results) :
    ((found results).map key).Sublist keys := by
  induction h with
  | nil => exact .slnil
  | @cons k r keys rest hkey _ ih =>
      cases r with
      | ok a =>
          obtain rfl := hkey a rfl
          exact ih.cons_cons _
      | error e => exact ih.cons _

theorem address_of_held? {address : String} {p : Pair} {tokens : List Token}
    (h : held? checkpoint address = some (p, tokens)) : p.address = address := by
  obtain ⟨cp, -, hrestorable⟩ := Option.bind_eq_some_iff.1 h
  exact (Checkpoint.of_restorable? hrestorable).2.1

/-- The restored pairs stand under the addresses that are held. -/
theorem addresses_held (checkpoint : Option Checkpoint) (time : Int) (visited : List String) :
    (visited.filterMap fun address => (held? checkpoint address).map fun found =>
        (found.1, time)).map (fun q => q.1.address) =
      visited.filter fun address => (held? checkpoint address).isSome := by
  induction visited with
  | nil => rfl
  | cons address rest ih =>
      cases hheld : held? checkpoint address with
      | none => simp [hheld, ih]
      | some found => simp [hheld, ih, address_of_held? hheld]

/-- Each address is restored or to be read. -/
theorem Restored.length_eq (h : Restored checkpoint visited c) :
    visited.length = c.pairs.length + c.fresh.length := by
  have hpairs := congrArg List.length (addresses_held checkpoint (takenAt checkpoint) visited)
  rw [List.length_map] at hpairs
  rw [h.pairs, h.fresh, List.length_reverse, hpairs,
    visited.length_eq_length_filter_add fun address => (held? checkpoint address).isSome]
  simp only [Option.not_isSome]

theorem Restored.report_eq (h : Restored checkpoint visited c) :
    c.report = { restoredPairs := c.pairs.length, restoredTokens := c.known.length } := by
  have hcounted := h.counted
  have hothers := h.report
  cases hreport : c.report with
  | mk restoredPairs fetchedPairs restoredTokens fetchedTokens failed =>
      rw [hreport] at hcounted hothers
      simp only [ColdStartReport.mk.injEq] at hcounted hothers ⊢
      exact ⟨hothers.1, hothers.2.1, hcounted, hothers.2.2.2⟩

/-- From an empty store a cold start knows the tokens that it has stored. -/
theorem get?_eq_token? (hsame : c.store.tokens.all = c.known.reverse)
    (honce : c.store.tokens.ids.Nodup) (name : String) :
    c.store.tokens.get? name = c.token? name := by
  cases hknown : c.token? name with
  | some t =>
      have hid : t.identifier = name := by simpa using List.find?_some hknown
      have hmem : t ∈ c.store.tokens.all := by
        rw [hsame, List.mem_reverse]
        exact List.mem_of_find?_eq_some hknown
      obtain ⟨e, he, rfl⟩ := List.mem_map.1 hmem
      rw [Collection.get?, ← hid, show e.snapshot.identifier = Entity.id e.snapshot from rfl,
        Collection.find?_of_mem honce he]
      rfl
  | none =>
      have hnone : c.store.tokens.find? name = none := by
        refine List.find?_eq_none.2 fun e he hid => ?_
        have hmem : e.snapshot ∈ c.known := by
          rw [← List.mem_reverse, ← hsame]
          exact List.mem_map_of_mem he
        exact token?_eq_none_iff.1 hknown e.snapshot hmem (of_decide_eq_true hid)
      rw [Collection.get?, hnone]
      rfl

namespace Rounds

variable (hrounds : Rounds c now refs tokens pairs) (h : Restored checkpoint registry c)

include hrounds h

/-- What was read was not restored, and was read once. -/
theorem once_tokens : (c.store.tokens.ids ++ (found tokens).map Token.identifier).Nodup := by
  have hkeys := keys_found hrounds.readTokens
  have hids : c.store.tokens.ids = c.known.reverse.map Token.identifier := by
    rw [Collection.ids, h.stored, List.map_map]
    rfl
  refine List.nodup_append.2 ⟨?_, (c.nodup_missingTokens _).sublist hkeys, ?_⟩
  · rw [hids, List.map_reverse]
    exact List.nodup_reverse.2 h.once
  · rintro a ha b hb rfl
    obtain ⟨t, ht, rfl⟩ := h.mem_ids_iff.1 ha
    have hunknown := token?_of_mem_missingTokens (hkeys.subset hb)
    exact token?_eq_none_iff.1 hunknown t ht rfl

/-- The tokens in the end are the restored ones and those that were read, each once. -/
theorem tokens_filled :
    let ended := c.filled now refs tokens
    ended.store.tokens.entries =
        c.known.reverse.map (fun t => ⟨t, .all (takenAt checkpoint)⟩) ++
          (found tokens).map (fun t => ⟨t, .all now⟩) ∧
      ended.store.tokens.ids.Nodup ∧
      ∀ name, ended.store.tokens.get? name = ended.token? name := by
  intro ended
  have honce := hrounds.once_tokens h
  obtain ⟨hknown, hentries, -⟩ :=
    @foldl_acceptToken (c.addFailed (c.fresh.length - (c.referenced refs).length)) now tokens honce
  have hall : ended.store.tokens.entries = c.store.tokens.entries ++
      (found tokens).map fun t => ⟨t, .all now⟩ := hentries
  have hstored : ended.store.tokens.ids.Nodup := by
    rw [Collection.ids, hall, List.map_append, List.map_map]
    exact honce
  rw [h.stored] at hall
  refine ⟨hall, hstored, get?_eq_token? ?_ hstored⟩
  have hboth : ended.known = (found tokens).reverse ++ c.known := hknown
  rw [Collection.all, hall, hboth, List.map_append, List.map_map, List.map_map,
    List.reverse_append, List.reverse_reverse]
  exact congr (congrArg _ (List.map_id _)) (List.map_id _)

/-- The kept pairs are the restored ones and those that were read, at distinct registered
addresses. -/
theorem pairs_loaded (hregistry : registry.Nodup) :
    let ended := c.loaded now refs tokens pairs
    ended.pairs = ((found pairs).map fun p => (p, now)).reverse ++ c.pairs ∧
      (ended.pairs.map fun q => q.1.address).Nodup ∧
      ∀ q ∈ ended.pairs, q.1.address ∈ registry := by
  intro ended
  have hpairs : ended.pairs = ((found pairs).map fun p => (p, now)).reverse ++ c.pairs := by
    refine (foldl_acceptPair pairs _).1.trans ?_
    rw [filled, foldl_keeps ColdStart.pairs (pairs_acceptToken now)]
    rfl
  have hkeys : ((found pairs).map Pair.address).Sublist c.fresh := by
    refine (keys_found (List.forall₂_map_left_iff.2 ?_)).trans
      (addresses_referenced hrounds.length_refs)
    exact hrounds.readPairs.imp fun asked r hr p hp => (hr p hp).1
  have hrestored : c.pairs.map (fun q => q.1.address) =
      (registry.filter fun address => (held? checkpoint address).isSome).reverse := by
    rw [h.pairs, List.map_reverse, addresses_held]
  have haddresses : ended.pairs.map (fun q => q.1.address) =
      ((found pairs).map Pair.address).reverse ++
        (registry.filter fun address => (held? checkpoint address).isSome).reverse := by
    rw [hpairs, List.map_append, hrestored, List.map_reverse, List.map_map]
    rfl
  rw [h.fresh] at hkeys
  refine ⟨hpairs, ?_, ?_⟩
  · rw [haddresses, List.nodup_append]
    refine ⟨List.nodup_reverse.2 ((hregistry.filter _).sublist hkeys),
      List.nodup_reverse.2 (hregistry.filter _), ?_⟩
    -- what was read was not held
    rintro a ha b hb rfl
    have hfresh := (List.mem_filter.1 (hkeys.subset (List.mem_reverse.1 ha))).2
    have hheld := (List.mem_filter.1 (List.mem_reverse.1 hb)).2
    rw [Option.isNone_iff_eq_none] at hfresh
    rw [hfresh] at hheld
    cases hheld
  · intro q hq
    have hmem : q.1.address ∈ ended.pairs.map fun q => q.1.address := List.mem_map_of_mem hq
    rw [haddresses, List.mem_append, List.mem_reverse, List.mem_reverse] at hmem
    rcases hmem with hread | hheld
    · exact List.mem_of_mem_filter (hkeys.subset hread)
    · exact List.mem_of_mem_filter hheld

/-- Everything that was restored or read is counted, and so is each failure. -/
theorem report_loaded :
    (c.loaded now refs tokens pairs).report =
      { restoredPairs := c.pairs.length
        restoredTokens := c.known.length
        fetchedPairs := (found pairs).length
        fetchedTokens := (found tokens).length
        failed := c.fresh.length - (c.referenced refs).length + failures tokens +
          failures pairs } := by
  obtain ⟨-, -, hfilled⟩ := @foldl_acceptToken
    (c.addFailed (c.fresh.length - (c.referenced refs).length)) now tokens (hrounds.once_tokens h)
  have hloaded : (c.loaded now refs tokens pairs).report = _ := (foldl_acceptPair pairs _).2
  rw [hloaded, filled, hfilled]
  simp [addFailed, h.report_eq]

omit hrounds h in
theorem tokens_finish (c : ColdStart) : c.finish.tokens = c.store.tokens := rfl

variable (hsame : c.registry = registry) (hregistry : registry.Nodup)
  (hempty : c.store.pairs.entries = [])

include hsame hregistry hempty

/-- Just the pairs that are kept are stored, in the order of the registry. -/
theorem finish_loaded :
    let ended := c.loaded now refs tokens pairs
    ended.finish.pairs.entries.Perm (ended.pairs.map fun q => ⟨q.1, .all q.2⟩) ∧
      ended.finish.pairs.ids.Sublist registry := by
  intro ended
  obtain ⟨hkept, hpairs⟩ := loaded_keeps c now refs tokens pairs
  obtain ⟨-, hone, hall⟩ := hrounds.pairs_loaded h hregistry
  have hstill : ended.registry = registry := hkept.trans hsame
  have hnodup : ended.registry.Nodup := hstill.symm ▸ hregistry
  have hentries := entries_finish hnodup (hpairs ▸ hempty)
  refine ⟨?_, ?_⟩
  · rw [hentries]
    exact (perm_kept hnodup hone (hstill.symm ▸ hall)).map _
  · rw [Collection.ids, hentries, List.map_map, ← hstill]
    exact ended.addresses_kept

/-- The counts of what was restored and what was read add up to what is stored. -/
theorem counts_loaded :
    let ended := c.loaded now refs tokens pairs
    ended.report.restoredPairs + ended.report.fetchedPairs = ended.finish.pairs.size ∧
      ended.report.restoredTokens + ended.report.fetchedTokens = ended.finish.tokens.size := by
  intro ended
  obtain ⟨hpairs, -⟩ := hrounds.pairs_loaded h hregistry
  obtain ⟨hstored, -⟩ := hrounds.finish_loaded h hsame hregistry hempty
  obtain ⟨htokens, -⟩ := hrounds.tokens_filled h
  refine ⟨?_, ?_⟩
  · rw [hrounds.report_loaded h, Collection.size, hstored.length_eq, List.length_map, hpairs]
    simp [Nat.add_comm]
  · rw [hrounds.report_loaded h, Collection.size, tokens_finish, store_loaded, htokens]
    simp

/-- Each registered pair that is not stored has been counted as a failure, and so has each token
that was to be read and is not stored. -/
theorem failed_loaded :
    let ended := c.loaded now refs tokens pairs
    ended.report.failed = (registry.filter (· ∉ ended.finish.pairs.ids)).length +
      ((c.missingTokens (c.referenced refs)).filter (· ∉ ended.finish.tokens.ids)).length := by
  intro ended
  have hreport : ended.report = _ := hrounds.report_loaded h
  -- of the registered pairs those that were not read are lost
  obtain ⟨hstored, -⟩ := hrounds.counts_loaded h hsame hregistry hempty
  obtain ⟨-, hsub⟩ := hrounds.finish_loaded h hsame hregistry hempty
  have hpairs : (registry.filter (· ∉ ended.finish.pairs.ids)).length +
      (c.pairs.length + (found pairs).length) = registry.length := by
    have hlost := Distinct.length_filter_not_mem hregistry hsub
    rwa [Collection.ids, List.length_map, ← Collection.size, ← hstored,
      hrounds.report_loaded h] at hlost
  -- of the tokens that were to be read so are those that were not
  obtain ⟨htokens, -⟩ := hrounds.tokens_filled h
  have hids (name : String) : name ∈ ended.finish.tokens.ids ↔
      (∃ t ∈ c.known, t.identifier = name) ∨ name ∈ (found tokens).map Token.identifier := by
    rw [Collection.ids, tokens_finish, store_loaded, htokens]
    simp [Entity.id]
  have hlost : (c.missingTokens (c.referenced refs)).filter (· ∉ ended.finish.tokens.ids) =
      (c.missingTokens (c.referenced refs)).filter (· ∉ (found tokens).map Token.identifier) := by
    refine List.filter_congr fun name hname => ?_
    have hnew := token?_eq_none_iff.1 (token?_of_mem_missingTokens hname)
    have hunknown : ¬ ∃ t ∈ c.known, t.identifier = name := fun ⟨t, ht, hid⟩ => hnew t ht hid
    simp only [hids, hunknown, false_or]
  have hcount := Distinct.length_filter_not_mem (c.nodup_missingTokens (c.referenced refs))
    (keys_found hrounds.readTokens)
  have hreferenced := (addresses_referenced hrounds.length_refs).length_le
  have hreadPairs := hrounds.readPairs.length_eq
  have hreadTokens := hrounds.readTokens.length_eq
  have hfoundPairs := length_found_add_failures pairs
  have hfoundTokens := length_found_add_failures tokens
  have hvisited := h.length_eq
  rw [List.length_map] at hreferenced hcount
  rw [hlost, hreport]
  simp only
  omega

end Rounds

end Loaded

end ColdStart

end DexCache
