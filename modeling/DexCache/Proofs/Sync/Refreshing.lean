import DexCache.Proofs.Outcome
import DexCache.Proofs.Source.Readings
import DexCache.Proofs.Store.Cells
import DexCache.Proofs.Sync.Accounts
import DexCache.Sync.Cache

/-!
# What a refresh pass sends

Each task asks for some cells: one group of each of the entities that it goes over.  A read that
succeeds becomes an event that writes the cell that was asked for; for a pair that is not stored
yet it writes all cells of the pair.  So when no read fails, the events of a pass write every cell
that was asked for, and beside them only cells of new pairs.

If the services answer every read, no read of a pass fails.
-/

namespace DexCache

variable {S : Type}

/-- A read that never fails. -/
def Total {α : Type} (read : StateM S (Except Failure α)) : Prop :=
  ∀ s, Leads read s fun r _ => ∃ a, r = .ok a

namespace Total

variable {α β γ : Type} {read : StateM S (Except Failure α)}

theorem retry (h : Total read) (attempts : Nat) : Total (DexCache.retry attempts read) := by
  cases attempts with
  | zero => exact h
  | succ attempts =>
      intro s
      refine (h s).bind fun r s' hr => ?_
      obtain ⟨a, rfl⟩ := hr
      exact ⟨a, rfl⟩

/-- An attempt at a read that never fails succeeds. -/
theorem advance (h : Total read) (p : Attempts α) (s : S) :
    Leads (p.advance read) s fun r _ => ∃ next a, r = .ok next ∧ next.1.value? = some a := by
  cases p with
  | succeeded a => exact ⟨_, a, rfl, rfl⟩
  | left more =>
      cases more with
      | zero =>
          refine (h s).bind fun r s' hr => ?_
          obtain ⟨a, rfl⟩ := hr
          exact ⟨_, a, rfl, rfl⟩
      | succ more =>
          refine (h s).bind fun r s' hr => ?_
          obtain ⟨a, rfl⟩ := hr
          exact ⟨_, a, rfl, rfl⟩

theorem singleTurn {read : String → StateM S (Except Failure α)} {job : Single α}
    (h : Total (read job.id)) (s : S) :
    Leads (job.turn read) s fun r _ => ∃ a, r = .finished (.ok a) := by
  refine (h.advance job.part s).bind fun r s' hr => ?_
  obtain ⟨⟨part, bound⟩, a, rfl, ha⟩ := hr
  simp only at ha ⊢
  split
  · exact ⟨_, rfl⟩
  · next hnone => rw [ha] at hnone; cases hnone

theorem tripleTurn {second : StateM S (Except Failure β)} {third : StateM S (Except Failure γ)}
    (h : Total read) (hsecond : Total second) (hthird : Total third) (t : Triple α β γ) (s : S) :
    Leads (t.turn read second third) s fun r _ => ∃ all, r = .finished (.ok all) := by
  refine (h.advance t.first s).bind fun r s₁ hr => ?_
  obtain ⟨⟨p, hp⟩, a, rfl, ha⟩ := hr
  refine (hsecond.advance t.second s₁).bind fun r s₂ hr => ?_
  obtain ⟨⟨q, hq⟩, b, rfl, hb⟩ := hr
  refine (hthird.advance t.third s₂).bind fun r s₃ hr => ?_
  obtain ⟨⟨r, hr⟩, c, rfl, hc⟩ := hr
  simp only at ha hb hc ⊢
  split
  · exact ⟨_, rfl⟩
  · next hnone => rw [ha] at hnone; cases hnone
  · next hnone _ => rw [hb] at hnone; cases hnone
  · next hnone _ _ => rw [hc] at hnone; cases hnone

end Total

/-- A turn of a single read keeps to its entity, and ends well if the read never fails. -/
theorem Single.turn_keeps {α : Type} (read : String → StateM S (Except Failure α)) (job : Single α)
    (s : S) : Leads (job.turn read) s fun r _ => r.Keeps (fun next => next.id = job.id)
      fun result => Total (read job.id) → ∃ a, result = .ok a := by
  have hattempt : Leads (job.part.advance (read job.id)) s fun r _ =>
      Total (read job.id) → ∃ next a, r = .ok next ∧ next.1.value? = some a :=
    fun htotal => htotal.advance job.part s
  refine hattempt.bind fun r s' hr => ?_
  cases r with
  | error e =>
      intro htotal
      obtain ⟨next, a, h, -⟩ := hr htotal
      cases h
  | ok next =>
      obtain ⟨part, bound⟩ := next
      simp only
      split
      · exact fun _ => ⟨_, rfl⟩
      · rfl

/-- The services answer every read that a cache makes to keep its store fresh. -/
structure Source.Answers (src : Source (StateM S)) : Prop where
  pairAddresses : Total src.pairAddresses
  pairRefs : ∀ address, Total (src.pairRefs address)
  pairInfo : ∀ address, Total (src.pairInfo address)
  pairPrices : ∀ address, Total (src.pairPrices address)
  pairAnalytics : ∀ address, Total (src.pairAnalytics address)
  tokenMetadata : ∀ identifier, Total (src.tokenMetadata identifier)
  tokenPrices : ∀ identifier, Total (src.tokenPrices identifier)
  tokenAnalytics : ∀ identifier, Total (src.tokenAnalytics identifier)

namespace Source

variable {src : Source (StateM S)} {policy : ReadPolicy}

/-- What an event may write when a cell was asked for: this cell, or all cells of a pair that was
not stored. -/
def Serves (s : Store) (cell : Cell) (e : StoreEvent) : Prop :=
  e.cells = [cell] ∨ ∃ p : Pair, e = .putPair p ∧ p.address ∉ s.pairs.ids ∧
    cell = .pair p.address .tokensAndFarms

/-- What a result may be when a cell was asked for. -/
structure Fits (src : Source (StateM S)) (s : Store) (cell : Cell)
    (r : Except Failure StoreEvent) : Prop where
  serves : ∀ e, r = .ok e → Serves s cell e
  succeeds : src.Answers → ∃ e, r = .ok e

theorem fits_error (s : Store) (cell : Cell) {e : Failure} (h : ¬ src.Answers) :
    src.Fits s cell (.error e) :=
  ⟨fun _ h => (nomatch h), fun hanswers => (h hanswers).elim⟩

theorem fits_ok {s : Store} {cell : Cell} {e : StoreEvent} (h : Serves s cell e) :
    src.Fits s cell (.ok e) :=
  ⟨fun _ he => Except.ok.inj he ▸ h, fun _ => ⟨e, rfl⟩⟩

/-- Some results hold one that fits for each of the cells that were asked for. -/
def Fitting (src : Source (StateM S)) (s : Store) (asked : List Cell)
    (results : List (Except Failure StoreEvent)) : Prop :=
  ∃ ordered, ordered.Perm results ∧ List.Forall₂ (src.Fits s) asked ordered

/-- A pass over one group of some entities asks for this group of each of them. -/
theorem fitting_groupPass {α : Type} {read : String → StateM S (Except Failure α)}
    {event : String → α → StoreEvent} {s : Store} {cell : String → Cell}
    (hread : src.Answers → ∀ id, Total (read id)) (hcells : ∀ id a, (event id a).cells = [cell id])
    (ids : List String) (st : S) :
    src.Fitting s (ids.map cell) (groupPass policy read event (fun _ => false) ids st).1 := by
  simp only [Fitting, List.forall₂_map_left_iff]
  refine exists_forall₂_stream (fun id job => job.id = id) (fun id r => src.Fits s (cell id) r)
    ?_ policy (List.forall₂_map_right_iff.2 (List.forall₂_same.2 fun _ _ => rfl)) st
  rintro id job s' rfl
  suffices hkept : Leads _ s' fun r _ =>
      Turn.Keeps (fun next : Single α => next.id = job.id) (src.Fits s (cell job.id)) r from hkept
  refine (Single.turn_keeps read job s').bind fun r s'' hr => ?_
  cases r with
  | waiting again closer => exact hr
  | finished result =>
      refine ⟨?_, fun hanswers => ?_⟩
      · intro e he
        obtain ⟨a, -, rfl⟩ := Outcome.map_eq_ok_iff.1 he
        exact .inl (hcells job.id a)
      · obtain ⟨a, rfl⟩ := hr (hread hanswers job.id)
        exact ⟨_, rfl⟩

/-- Where a registered pair stands: its references come first; if the pair is not stored, the rest
of it follows. -/
def Registered (s : Store) (address : String) : RegisteredJob → Prop
  | .refs job => job.id = address
  | .whole job => job.address = address ∧ address ∉ s.pairs.ids

/-- Reading the rest of a pair that is not stored gives the pair. -/
theorem leads_newPairTurn {s : Store} {known : String → Option Token} {job : PairJob}
    (hnew : job.address ∉ s.pairs.ids) (st : S) :
    Leads (src.newPairTurn policy known job) st fun r _ =>
      r.Keeps (Registered s job.address) (src.Fits s (.pair job.address .tokensAndFarms)) := by
  have hends : src.Answers → Leads (src.pairTurn known job) st fun r _ =>
      ∃ p, r = .finished (.ok p) := by
    intro hanswers
    refine ((hanswers.pairInfo job.address).tripleTurn (hanswers.pairPrices job.address)
      (hanswers.pairAnalytics job.address) job.parts st).bind fun r s' hr => ?_
    obtain ⟨⟨info, prices, analytics⟩, rfl⟩ := hr
    exact ⟨_, rfl⟩
  have hpair : Leads (src.pairTurn known job) st fun r _ =>
      r.Keeps (fun j => j.address = job.address ∧ j.refs = job.refs)
          (fun r => ∀ p, r = .ok p → p.address = job.address ∧ p.tokens = job.refs.tokens known) ∧
        (src.Answers → ∃ p, r = .finished (.ok p)) :=
    ⟨src.pairTurn_keeps known job.address job.refs job st ⟨rfl, rfl⟩, hends⟩
  refine hpair.bind fun r s' hr => ?_
  obtain ⟨hkept, hends⟩ := hr
  cases r with
  | waiting again closer => exact ⟨hkept.1, hnew⟩
  | finished result =>
      refine ⟨?_, fun hanswers => ?_⟩
      · intro e he
        obtain ⟨p, rfl, rfl⟩ := Outcome.map_eq_ok_iff.1 he
        obtain ⟨haddress, -⟩ := hkept p rfl
        exact .inr ⟨p, rfl, haddress ▸ hnew, by rw [haddress]⟩
      · obtain ⟨p, hp⟩ := hends hanswers
        cases hp
        exact ⟨_, rfl⟩

theorem leads_registeredTurn {s : Store} {address : String} {job : RegisteredJob}
    (h : Registered s address job) (st : S) :
    Leads (src.registeredTurn policy s job) st fun r _ =>
      r.Keeps (Registered s address) (src.Fits s (.pair address .tokensAndFarms)) := by
  cases job with
  | whole job =>
      obtain ⟨rfl, hnew⟩ := h
      exact leads_newPairTurn hnew st
  | refs job =>
      obtain rfl := h
      refine (Single.turn_keeps src.pairRefs job st).bind fun r s' hr => ?_
      cases r with
      | waiting again closer => exact hr
      | finished result =>
          cases result with
          | error e =>
              exact fits_error _ _ fun hanswers => by
                obtain ⟨refs, h⟩ := hr (hanswers.pairRefs job.id)
                cases h
          | ok refs =>
              simp only
              split
              · exact fits_ok (.inl rfl)
              · next hnew =>
                  rw [Collection.contains, ← Collection.mem_ids_iff] at hnew
                  refine (leads_newPairTurn hnew s').bind fun r s'' hr => ?_
                  cases r with
                  | waiting again closer => exact hr
                  | finished result => exact hr

end Source

/-- The cells that a task asks for. -/
def RefreshTask.asked (registry : List String) (s : Store) : RefreshTask → List Cell
  | .pairTokensAndFarms => registry.map fun a => .pair a .tokensAndFarms
  | .pairInfo => s.pairs.ids.map fun a => .pair a .info
  | .pairPrices => s.pairs.ids.map fun a => .pair a .prices
  | .pairAnalytics => s.pairs.ids.map fun a => .pair a .analytics
  | .tokenMetadata => s.trackedTokens.map fun t => .token t .metadata
  | .tokenPrices => s.trackedTokens.map fun t => .token t .prices
  | .tokenAnalytics => s.trackedTokens.map fun t => .token t .analytics

/-- The events write every cell that was asked for, and beside them only cells of pairs that were
asked for and not stored. -/
structure Covers (s : Store) (cells : List Cell) (events : List StoreEvent) : Prop where
  asked : ∀ cell ∈ cells, cell ∈ events.flatMap StoreEvent.cells
  only : ∀ cell ∈ events.flatMap StoreEvent.cells, cell ∈ cells ∨
    ∃ address g, cell = .pair address g ∧ address ∉ s.pairs.ids ∧
      .pair address .tokensAndFarms ∈ cells

section Passes

variable {src : Source (StateM S)} {policy : ReadPolicy} {task : RefreshTask} {s : Store} {st : S}
  {registry : List String}

open ColdStart (found failures mem_found_iff)

theorem Source.Fitting.exists_fits {asked : List Cell} {results : List (Except Failure StoreEvent)}
    (h : src.Fitting s asked results) {cell : Cell} (hcell : cell ∈ asked) :
    ∃ r ∈ results, src.Fits s cell r := by
  obtain ⟨ordered, hperm, hfits⟩ := h
  obtain ⟨r, hr, hfit⟩ := Paired.exists_right hfits hcell
  exact ⟨r, hperm.subset hr, hfit⟩

theorem Source.Fitting.exists_asked {asked : List Cell} {results : List (Except Failure StoreEvent)}
    (h : src.Fitting s asked results) {r : Except Failure StoreEvent} (hr : r ∈ results) :
    ∃ cell ∈ asked, src.Fits s cell r := by
  obtain ⟨ordered, hperm, hfits⟩ := h
  exact Paired.exists_left hfits (hperm.symm.subset hr)

theorem ColdStart.failures_eq_zero_iff {α : Type} {results : List (Except Failure α)} :
    failures results = 0 ↔ ∀ r ∈ results, ∃ a, r = .ok a := by
  induction results with
  | nil => simp [failures]
  | cons r rest ih =>
      cases r with
      | ok a => simpa [failures] using ih
      | error e => simp [failures]

/-- The events of a pass without failures cover what was asked for. -/
theorem Source.Fitting.covers {asked : List Cell} {results : List (Except Failure StoreEvent)}
    (h : src.Fitting s asked results) (hfailures : failures results = 0) :
    Covers s asked (found results) := by
  have hall := ColdStart.failures_eq_zero_iff.1 hfailures
  constructor
  · intro cell hcell
    obtain ⟨r, hr, hfit⟩ := h.exists_fits hcell
    obtain ⟨e, rfl⟩ := hall r hr
    refine List.mem_flatMap.2 ⟨e, mem_found_iff.2 hr, ?_⟩
    rcases hfit.serves e rfl with hone | ⟨p, rfl, -, rfl⟩
    · simp [hone]
    · simp [StoreEvent.cells, FieldGroup.mem_all]
  · intro cell hcell
    obtain ⟨e, he, hcell⟩ := List.mem_flatMap.1 hcell
    obtain ⟨asked, hasked, hfit⟩ := h.exists_asked (mem_found_iff.1 he)
    rcases hfit.serves e rfl with hone | ⟨p, rfl, hnew, rfl⟩
    · rw [hone, List.mem_singleton] at hcell
      exact .inl (hcell ▸ hasked)
    · obtain ⟨g, -, rfl⟩ := List.mem_map.1 hcell
      exact .inr ⟨p.address, g, rfl, hnew, hasked⟩

/-- A pass that nothing stops has a fitting result for each cell that was asked for. -/
theorem leads_pass (hregistry : task = .pairTokensAndFarms →
      (retry policy.retries src.pairAddresses st).1 = .ok registry) :
    Leads (src.pass policy s (fun _ => false) task) st fun r _ =>
      ∃ results, r = .ok results ∧ src.Fitting s (task.asked registry s) results := by
  have hgroup {α : Type} {read : String → StateM S (Except Failure α)}
      {event : String → α → StoreEvent} {cell : String → Cell} {ids : List String}
      (hread : src.Answers → ∀ id, Total (read id))
      (hcells : ∀ id a, (event id a).cells = [cell id]) :
      Leads (@Except.ok Failure _ <$> Source.groupPass policy read event (fun _ => false) ids) st
        fun r _ => ∃ results, r = .ok results ∧ src.Fitting s (ids.map cell) results :=
    ⟨_, rfl, Source.fitting_groupPass hread hcells ids st⟩
  cases task with
  | pairTokensAndFarms =>
      have hread : Leads (retry policy.retries src.pairAddresses) st fun r _ => r = .ok registry :=
        hregistry rfl
      refine hread.bind fun r s' hr => ?_
      subst hr
      have hjobs : List.Forall₂ (Source.Registered s) registry
          ((Single.start policy registry).map .refs) :=
        List.forall₂_map_right_iff.2 (List.forall₂_map_right_iff.2
          (List.forall₂_same.2 fun _ _ => rfl))
      obtain ⟨ordered, hperm, hfits⟩ := Source.exists_forall₂_stream (Source.Registered s)
        (fun address => src.Fits s (.pair address .tokensAndFarms))
        (fun address job st h => Source.leads_registeredTurn h st) policy hjobs s'
      exact ⟨_, rfl, ordered, hperm, List.forall₂_map_left_iff.2 hfits⟩
  | pairInfo => exact hgroup (fun h => h.pairInfo) fun _ _ => rfl
  | pairPrices => exact hgroup (fun h => h.pairPrices) fun _ _ => rfl
  | pairAnalytics => exact hgroup (fun h => h.pairAnalytics) fun _ _ => rfl
  | tokenMetadata => exact hgroup (fun h => h.tokenMetadata) fun _ _ => rfl
  | tokenPrices => exact hgroup (fun h => h.tokenPrices) fun _ _ => rfl
  | tokenAnalytics => exact hgroup (fun h => h.tokenAnalytics) fun _ _ => rfl

/-- An open feed takes all events of a pass. -/
theorem EventFeed.sendAll_of_isOpen {f : EventFeed} (hopen : f.isOpen = true)
    (done : RefreshOutcome) (results : List (Except Failure StoreEvent)) :
    f.sendAll done results =
      (.ok ⟨done.updated + (found results).length, done.failed + failures results⟩,
        { f with waiting := f.waiting ++ found results }) := by
  induction results generalizing f done with
  | nil => simp [sendAll, found, failures]
  | cons r rest ih =>
      cases r with
      | error e =>
          rw [sendAll, ih hopen]
          simp only [failures, Nat.add_assoc, Nat.add_comm 1]
          rfl
      | ok e =>
          have hsend : f.send? e = some { f with waiting := f.waiting ++ [e] } := if_pos hopen
          have hrest := ih (f := { f with waiting := f.waiting ++ [e] }) hopen
          simp only [sendAll, hsend, hrest]
          simp [found, failures, Except.toOption, Nat.add_comm 1, Nat.add_assoc]

/-- With an open feed a pass counts its results and leaves its events waiting. -/
theorem leads_refresh {feed : EventFeed} (hopen : feed.isOpen = true)
    (hregistry : task = .pairTokensAndFarms →
      (retry policy.retries src.pairAddresses st).1 = .ok registry) :
    Leads (refresh src policy task s feed) st fun out _ =>
      ∃ results, src.Fitting s (task.asked registry s) results ∧
        out = (.ok ⟨(found results).length, failures results⟩,
          { feed with waiting := feed.waiting ++ found results }) := by
  have hstop : (fun result : Except Failure StoreEvent => !feed.isOpen && result.toOption.isSome) =
      fun _ => false := by
    simp [hopen]
  rw [refresh]
  simp only [hstop]
  refine (leads_pass hregistry).bind fun r s' hr => ?_
  obtain ⟨results, rfl, hfitting⟩ := hr
  have hsent := EventFeed.sendAll_of_isOpen hopen {} results
  simp only [Nat.zero_add] at hsent
  exact ⟨results, hfitting, hsent⟩

end Passes

end DexCache
