import DexCache.Proofs.Interception.Claiming
import DexCache.Proofs.Pipeline.Recorded
import DexCache.Proofs.Query.RoundTrip
import DexCache.Proofs.Store.Lifecycle

/-!
# Queries to a closed store

Closing drops every snapshot and the note that the first population has finished.  It
publishes no readiness, and no hook asks whether the store is closed: a hook looks at the
published readiness only, and over no entities every listing is fresh.  So a closed store goes
on answering, with empty lists, until a check finds it unpopulated; and it answers again once
it is noted as populated and a check finds it fresh.

The main statement is the exact condition under which, after a closing, every request goes to
the resolver as it came and gets the resolver's answer.  Queries change neither store nor
monitor, so a run with queries in between has the same steps.
-/

namespace DexCache

open Query (Field Operation)

namespace Watched

/-- Does a step publish a readiness whatever was published before? -/
def Step.decides : Step → Bool
  | .markStarted | .check _ => true
  | _ => false

theorem done_step_iff (w : Watched) {s : Step} (hs : s.decides = false) :
    (w.step s).monitor.status = .done ↔ w.monitor.status = .done := by
  rw [status_step]
  cases s with
  | markStarted => cases hs
  | check time => cases hs
  | markFailed =>
      simp only
      split
      · next hrunning => simp [hrunning]
      · rfl
  | _ => rfl

variable (pairs : Thresholds PairGroup) (tokens : Thresholds TokenGroup)

/-- The first closing takes the note of the population back, and only a new note sets it. -/
theorem populated_since_close (later : List Step) {earlier : List Step}
    (hopen : .close ∉ earlier) :
    (ofHistory pairs tokens (later ++ .close :: earlier)).store.populated = true ↔
      .markPopulated ∈ later := by
  induction later with
  | nil =>
      have hclosed := closed_ofHistory pairs tokens earlier
      simp only [hopen, decide_false] at hclosed
      simp [ofHistory, step, Store.close, hclosed]
  | cons s later ih =>
      cases s with
      | markPopulated => simp [ofHistory, step, Store.markPopulated]
      | close =>
          -- the store is closed already, so closing it again changes nothing
          have hclosed := closed_ofHistory pairs tokens (later ++ .close :: earlier)
          simp only [List.mem_append, List.mem_cons_self, or_true, decide_true] at hclosed
          simpa [ofHistory, step, Store.close, hclosed] using ih
      | _ => simpa [ofHistory, step] using ih

/-- The store was ready when it was closed, and nothing has decided about it since. -/
structure LeftReady (later earlier : List Step) : Prop where
  ready : (ofHistory pairs tokens earlier).monitor.status = .done
  undecided : ∀ s ∈ later, s.decides = false

/-- A closed store was noted as populated and then found fresh by a check, and nothing has
decided about it since. -/
def FoundReady (later earlier : List Step) : Prop :=
  ∃ after time before, later = after ++ .check time :: before ∧
    (∀ s ∈ after, s.decides = false) ∧ .markPopulated ∈ before ∧
    let w := ofHistory pairs tokens (before ++ .close :: earlier)
    (w.monitor.status = .inProgress ∨ w.monitor.status = .done) ∧
      (w.store.inspect time).isFresh = true

variable {pairs tokens}

theorem leftReady_cons_iff {later earlier : List Step} {s : Step} :
    LeftReady pairs tokens (s :: later) earlier ↔
      s.decides = false ∧ LeftReady pairs tokens later earlier := by
  constructor
  · intro h
    exact ⟨h.undecided s List.mem_cons_self, h.ready, fun t ht =>
      h.undecided t (List.mem_cons_of_mem _ ht)⟩
  · rintro ⟨hs, hready, hundecided⟩
    exact ⟨hready, List.forall_mem_cons.2 ⟨hs, hundecided⟩⟩

theorem foundReady_cons_iff {later earlier : List Step} {s : Step} (hs : s.decides = false) :
    FoundReady pairs tokens (s :: later) earlier ↔ FoundReady pairs tokens later earlier := by
  constructor
  · rintro ⟨after, time, before, heq, hafter, hfound⟩
    cases after with
    | nil =>
        obtain ⟨rfl, -⟩ := List.cons.inj heq
        cases hs
    | cons t after =>
        obtain ⟨-, rfl⟩ := List.cons.inj heq
        exact ⟨after, time, before, rfl, (List.forall_mem_cons.1 hafter).2, hfound⟩
  · rintro ⟨after, time, before, rfl, hafter, hfound⟩
    exact ⟨s :: after, time, before, rfl, List.forall_mem_cons.2 ⟨hs, hafter⟩, hfound⟩

/-- A step that decides is the only one that a finding can rest on. -/
theorem foundReady_cons_of_decides {later earlier : List Step} {s : Step}
    (hs : s.decides = true) (h : FoundReady pairs tokens (s :: later) earlier) :
    ∃ time, s = .check time ∧ .markPopulated ∈ later ∧
      let w := ofHistory pairs tokens (later ++ .close :: earlier)
      (w.monitor.status = .inProgress ∨ w.monitor.status = .done) ∧
        (w.store.inspect time).isFresh = true := by
  obtain ⟨after, time, before, heq, hafter, hfound⟩ := h
  cases after with
  | nil =>
      obtain ⟨rfl, rfl⟩ := List.cons.inj heq
      exact ⟨time, rfl, hfound⟩
  | cons t after =>
      obtain ⟨rfl, -⟩ := List.cons.inj heq
      rw [(List.forall_mem_cons.1 hafter).1] at hs
      cases hs

/-- After the first closing readiness is published in two cases only. -/
theorem done_since_close_iff (later : List Step) {earlier : List Step}
    (hopen : .close ∉ earlier) :
    (ofHistory pairs tokens (later ++ .close :: earlier)).monitor.status = .done ↔
      LeftReady pairs tokens later earlier ∨ FoundReady pairs tokens later earlier := by
  induction later with
  | nil =>
      constructor
      · exact fun h => .inl ⟨h, by simp⟩
      · rintro (h | ⟨after, time, before, heq, -⟩)
        · exact h.ready
        · exact absurd heq.symm (by simp)
  | cons s later ih =>
      cases hs : s.decides with
      | false =>
          rw [leftReady_cons_iff, foundReady_cons_iff hs, hs, List.cons_append, ofHistory,
            done_step_iff _ hs, ih]
          simp
      | true =>
          -- what was published before the step does not matter any more
          have hleft : ¬ LeftReady pairs tokens (s :: later) earlier := by
            rw [leftReady_cons_iff, hs]
            simp
          rw [or_iff_right hleft]
          constructor
          · intro hdone
            cases s with
            | markStarted =>
                simp [ofHistory, step, Monitor.markStarted, Monitor.status_publish] at hdone
            | check time =>
                have hdone := (Monitor.check_done_iff _ _ _).1 hdone
                refine ⟨[], time, later, rfl, by simp, ?_, hdone.1, hdone.2.2⟩
                exact (populated_since_close pairs tokens later hopen).1 hdone.2.1
            | _ => cases hs
          · intro hfound
            obtain ⟨time, rfl, hpopulated, hrunning, hfresh⟩ :=
              foundReady_cons_of_decides hs hfound
            have hpopulated := (populated_since_close pairs tokens later hopen).2 hpopulated
            exact (Monitor.check_done_iff _ _ _).2 ⟨hrunning, hpopulated, hfresh⟩

end Watched

namespace Interception

open Pipeline (Notes Prompter follow opened outgoing serve serve_of_parse settle)

/-- Does every request go to the resolver once, as it came, and get the resolver's answer,
whatever happens to the cache meanwhile? -/
def View.Forwards (view : View) : Prop :=
  ∀ (later : Nat → View) (answers : List (Except Failure Response)) (request : Request),
    serve (fun | 0 => view | n + 1 => later n) answers request =
      (Prompter.current { answers }, { answers, asked := [request] })

/-- Unless the cache is ready, requests are forwarded. -/
theorem forwards_of_not_ready {view : View} (h : view.status ≠ .done) : view.Forwards := by
  intro later answers request
  cases hparse : Operation.parse request.query with
  | error stop =>
      rw [serve, Pipeline.execute_of_parse_error hparse]
      rfl
  | ok op =>
      have hopened : opened view request op =
          (.ok .proceed, ⟨op, request.variableValues, {}⟩) := if_pos (.inr h)
      have hout : outgoing request op op = request := if_pos rfl
      rw [serve_of_parse hparse, hopened, follow, hout]
      simp only [bind, StateT.bind, Prompter.resolve, List.nil_append]
      cases Prompter.current { answers } with
      | error e => rfl
      | ok response => rfl

/-- The query for the addresses of all pairs. -/
def addressQuery : Operation :=
  { selections := [.withSubfields "pairs" [.plain "address"]] }

/-- Every store answers a list of pairs without arguments. -/
theorem exists_pairs_answer (s : Store) (fields : List Field) :
    ∃ value, s.respond .pair "pairs" [] fields = .ok value := by
  have hlisted : pairCatalogue.listing? "pairs" = some pairCatalogue.listings[0] := rfl
  have hargs : pairCatalogue.readArgs pairCatalogue.listings[0] [] =
      .ok ⟨{}, none, .slice 0 Catalogue.defaultLimit⟩ := rfl
  simp [Store.respond, Catalogue.respond, hlisted, hargs, bind, Except.bind, pure, Except.pure]

/-- The address of a pair is in no group, so a store that is ready answers for it, whatever
the store holds. -/
theorem opened_addressQuery {view : View} (hready : view.status = .done) {request : Request}
    (hvalues : request.variableValues = []) :
    ∃ data, opened view request addressQuery =
      (.ok (.answered data), ⟨addressQuery, [], {}⟩) := by
  obtain ⟨value, hvalue⟩ := exists_pairs_answer view.store [.plain "address"]
  have hfresh : view.store.isFreshFor .pair [.plain "address"] view.now = true :=
    Collection.allFresh_iff.2 fun _ _ g hg => absurd hg (by cases g <;> decide)
  have hclaim : claim view.store view.now [] (.withSubfields "pairs" [.plain "address"]) =
      .ok (.answered value) := by
    have hclaimed : claim view.store view.now [] (.withSubfields "pairs" [.plain "address"]) =
        if !view.store.isFreshFor .pair [.plain "address"] view.now then .ok .declined
        else (view.store.respond .pair "pairs" [] [.plain "address"]).bind fun value =>
          .ok (.answered value) := rfl
    rw [hclaimed, hfresh, hvalue]
    rfl
  have hplan : plan view.store view.now [] addressQuery.selections =
      .ok ([], { order := ["pairs"], answered := [("pairs", value)] }) := by
    simp only [plan, addressQuery, hclaim]
    rfl
  refine ⟨Json.Object.ofEntries [("pairs", value)], ?_⟩
  rw [opened, hvalues, before, if_neg (by simp [addressQuery, hready]), hplan]
  rfl

/-- Requests are forwarded if and only if the published readiness is not that of a cache that
is ready; what the store holds, and whether it is closed, makes no difference. -/
theorem forwards_iff (view : View) : view.Forwards ↔ view.status ≠ .done := by
  refine ⟨fun hforwards hready => ?_, forwards_of_not_ready⟩
  let request : Request := { query := addressQuery.text }
  have hwritable : addressQuery.Writable :=
    ⟨by simp [addressQuery], by simp [addressQuery], by simp [addressQuery], by decide +kernel⟩
  have hparse : Operation.parse request.query = .ok addressQuery := Query.parse_text hwritable
  obtain ⟨data, hopened⟩ := opened_addressQuery hready (show request.variableValues = [] from rfl)
  have hserved : serve (fun | 0 => view | _ + 1 => view) [] request =
      (.ok { data := some data }, { answers := [] }) := by
    rw [serve_of_parse hparse, hopened]
    rfl
  have hforwarded := hforwards (fun _ => view) [] request
  rw [hserved] at hforwarded
  cases hforwarded

open Watched (LeftReady FoundReady ofHistory)

/-- After the first closing, and after any steps that follow it, requests are forwarded if and
only if the store was not left ready by the closing and has not been found ready since. -/
theorem closed_forwards_iff (pairs : Thresholds PairGroup) (tokens : Thresholds TokenGroup)
    (later : List Watched.Step) {earlier : List Watched.Step} (hopen : .close ∉ earlier)
    (now : Int) :
    ((ofHistory pairs tokens (later ++ .close :: earlier)).view now).Forwards ↔
      ¬ (LeftReady pairs tokens later earlier ∨ FoundReady pairs tokens later earlier) := by
  have hdone := @Watched.done_since_close_iff pairs tokens later earlier hopen
  exact (forwards_iff _).trans (not_congr hdone)

/-- A store with one pair that is closed while it is ready: it forwards no request until the
next check, and all of them after it. -/
theorem closed_forwards_of_one_pair :
    let earlier : List Watched.Step :=
      [.check 0, .pairs (.put { address := "a" } 0), .markPopulated, .markStarted]
    .close ∉ earlier ∧
      ¬ ((ofHistory {} {} (.close :: earlier)).view 0).Forwards ∧
      ((ofHistory {} {} (.check 0 :: .close :: earlier)).view 0).Forwards := by
  intro earlier
  have hopen : .close ∉ earlier := by decide
  refine ⟨hopen, ?_, ?_⟩
  · rw [show Watched.Step.close :: earlier = [] ++ .close :: earlier from rfl,
      closed_forwards_iff {} {} [] hopen 0, not_not]
    exact .inl ⟨by decide +kernel, by simp⟩
  · rw [show Watched.Step.check 0 :: .close :: earlier = [.check 0] ++ .close :: earlier from rfl,
      closed_forwards_iff {} {} [.check 0] hopen 0]
    rintro (hleft | hfound)
    · exact absurd (hleft.undecided _ (List.mem_singleton_self _)) (by decide)
    · obtain ⟨_, -, hpopulated, -⟩ := Watched.foundReady_cons_of_decides rfl hfound
      cases hpopulated

end Interception

end DexCache
