import DexCache.Proofs.Paired
import DexCache.Proofs.Source.Journal

/-!
# What reads lead to

The answers to the attempts at a read tell what the read gives: the first value after some
failures, or the last failure when there may be no more attempts.  So a journal of all attempts
tells which reads have succeeded, and which have failed for good.

Each turn of a job adds attempts at reads of its own entity only.  In a batch of jobs for distinct
entities each result therefore goes by the answers that the journal has in the end.
-/

namespace DexCache

/-- The answers to reads of each kind. -/
abbrev Answered : Type := (kind : ReadKind) → List (Except Failure kind.Answer)

/-- The answer of an attempt, if it was made at this read. -/
def Reading.answer? (id : String) (kind : ReadKind) (r : Reading) :
    Option (Except Failure kind.Answer) :=
  if h : r.kind = kind ∧ r.id = id then some (h.1 ▸ r.answer) else none

/-- The answers to the attempts at reads of one entity, in order. -/
def answers (log : List Reading) (id : String) : Answered := fun kind =>
  log.filterMap (Reading.answer? id kind)

section Answers

variable {log before between after : List Reading} {kind : ReadKind} {kinds : List ReadKind}
  {id : String}

@[simp] theorem answers_nil : answers [] id kind = [] := rfl

theorem answers_append (log more : List Reading) (id : String) (kind : ReadKind) :
    answers (log ++ more) id kind = answers log id kind ++ answers more id kind :=
  List.filterMap_append

@[simp] theorem answers_concat_self (a : Except Failure kind.Answer) :
    answers (log ++ [⟨kind, id, a⟩]) id kind = answers log id kind ++ [a] := by
  rw [answers_append]
  simp [answers, Reading.answer?]

theorem mem_answers_iff {a : Except Failure kind.Answer} :
    a ∈ answers log id kind ↔ ⟨kind, id, a⟩ ∈ log := by
  rw [answers, List.mem_filterMap]
  constructor
  · rintro ⟨⟨kind', id', a'⟩, hmem, hanswer⟩
    unfold Reading.answer? at hanswer
    split at hanswer
    · next h =>
        obtain ⟨rfl, rfl⟩ := h
        obtain rfl := Option.some.inj hanswer
        exact hmem
    · cases hanswer
  · intro hmem
    exact ⟨_, hmem, by simp [Reading.answer?]⟩

/-- An attempt is written down already if its read has no more answers than before. -/
theorem mem_of_answers_eq {r : Reading}
    (h : answers after r.id r.kind = answers before r.id r.kind) (hr : r ∈ after) : r ∈ before := by
  have hanswer : r.answer ∈ answers after r.id r.kind := mem_answers_iff.2 hr
  rw [h] at hanswer
  exact mem_answers_iff.1 hanswer

/-- Nothing was attempted in between but reads of these kinds of one entity. -/
def Adds (kinds : List ReadKind) (id : String) (before after : List Reading) : Prop :=
  ∃ more, after = before ++ more ∧ ∀ r ∈ more, r.kind ∈ kinds ∧ r.id = id

theorem Adds.refl (log : List Reading) : Adds kinds id log log :=
  ⟨[], (List.append_nil log).symm, by simp⟩

theorem Adds.trans (h : Adds kinds id before between) (h' : Adds kinds id between after) :
    Adds kinds id before after := by
  obtain ⟨more, rfl, hmore⟩ := h
  obtain ⟨more', rfl, hmore'⟩ := h'
  refine ⟨more ++ more', List.append_assoc .., fun r hr => ?_⟩
  exact (List.mem_append.1 hr).elim (hmore r) (hmore' r)

theorem Adds.mono {fewer : List ReadKind} (h : Adds fewer id before after)
    (hsub : ∀ kind ∈ fewer, kind ∈ kinds) : Adds kinds id before after := by
  obtain ⟨more, rfl, hmore⟩ := h
  exact ⟨more, rfl, fun r hr => ⟨hsub _ (hmore r hr).1, (hmore r hr).2⟩⟩

/-- Other reads than those that were attempted have the answers that they had. -/
theorem Adds.answers_eq (h : Adds kinds id before after) {other : String}
    (hother : kind ∉ kinds ∨ other ≠ id) :
    answers after other kind = answers before other kind := by
  obtain ⟨more, rfl, hmore⟩ := h
  have hnone : answers more other kind = [] := by
    refine List.filterMap_eq_nil_iff.2 fun r hr => dif_neg fun h => ?_
    obtain ⟨hkind, hid⟩ := hmore r hr
    exact hother.elim (fun hnot => hnot (h.1 ▸ hkind)) fun hne => hne (h.2.symm.trans hid)
  rw [answers_append, hnone, List.append_nil]

end Answers

/-- A read that may be tried again so often gives this after these answers: a value after
failures, or the last failure when all attempts have failed. -/
def Yields {α : Type} (retries : Nat) (answers : List (Except Failure α))
    (r : Except Failure α) : Prop :=
  ∃ failures : List Failure, answers = failures.map .error ++ [r] ∧ failures.length ≤ retries ∧
    ∀ e, r = .error e → failures.length = retries

/-- The same answers give the same. -/
theorem Yields.unique {α : Type} {retries : Nat} {answers : List (Except Failure α)}
    {r r' : Except Failure α} (h : Yields retries answers r) (h' : Yields retries answers r') :
    r = r' := by
  obtain ⟨failures, rfl, -⟩ := h
  obtain ⟨failures', hsame, -⟩ := h'
  simpa using congrArg List.getLast? hsame

/-- A computation leads from this state to such a result and state. -/
def Leads {σ α : Type} (x : StateM σ α) (s : σ) (post : α → σ → Prop) : Prop :=
  post (x s).1 (x s).2

theorem Leads.bind {σ α β : Type} {x : StateM σ α} {f : α → StateM σ β} {s : σ}
    {between : α → σ → Prop} {post : β → σ → Prop} (h : Leads x s between)
    (hnext : ∀ a s', between a s' → Leads (f a) s' post) : Leads (x >>= f) s post :=
  hnext _ _ h

section Attempted

variable {S : Type} {kind : ReadKind} {id : String} {retries : Nat} {s : S × List Reading}

/-- Making an attempt writes it down with its answer. -/
theorem leads_noted (id : String) (read : StateM S (Except Failure kind.Answer))
    (s : S × List Reading) :
    Leads (Source.noted kind id read) s fun a s' =>
      Adds [kind] id s.2 s'.2 ∧ answers s'.2 id kind = answers s.2 id kind ++ [a] :=
  ⟨⟨[_], rfl, by simp⟩, answers_concat_self _⟩

/-- Attempts one after the other are written down, and nothing else is. -/
theorem leads_retry (kind : ReadKind) (id : String)
    (read : StateM S (Except Failure kind.Answer)) (attempts : Nat) (s : S × List Reading) :
    Leads (retry attempts (Source.noted kind id read)) s fun _ s' => Adds [kind] id s.2 s'.2 := by
  induction attempts generalizing s with
  | zero => exact (leads_noted id read s).1
  | succ attempts ih =>
      refine (leads_noted id read s).bind fun a s' h => ?_
      cases a with
      | ok a => exact h.1
      | error e => exact h.1.trans (ih s')

/-- Is this where a read stands after these answers? -/
def Attempts.Stands {α : Type} (retries : Nat) (answers : List (Except Failure α)) :
    Attempts α → Prop
  | succeeded a => Yields retries answers (.ok a)
  | left more => ∃ failures : List Failure, answers = failures.map .error ∧
      failures.length + more = retries

theorem Attempts.stands_left {α : Type} (retries : Nat) :
    (left retries : Attempts α).Stands retries [] :=
  ⟨[], rfl, Nat.zero_add _⟩

theorem Attempts.Stands.yields {α : Type} {answers : List (Except Failure α)} {p : Attempts α}
    {a : α} (h : p.Stands retries answers) (hvalue : p.value? = some a) :
    Yields retries answers (.ok a) := by
  cases p with
  | succeeded b => exact Option.some.inj hvalue ▸ h
  | left more => cases hvalue

/-- One more attempt at a read leads to where its answers say. -/
theorem Attempts.leads_advance (read : StateM S (Except Failure kind.Answer))
    {p : Attempts kind.Answer} (h : p.Stands retries (answers s.2 id kind)) :
    Leads (p.advance (Source.noted kind id read)) s fun r s' => Adds [kind] id s.2 s'.2 ∧
      match r with
      | .error e => Yields retries (answers s'.2 id kind) (.error e)
      | .ok next => next.1.Stands retries (answers s'.2 id kind) := by
  cases p with
  | succeeded a => exact ⟨.refl s.2, h⟩
  | left more =>
      obtain ⟨failures, hfailures, hcount⟩ := h
      cases more with
      | zero =>
          refine (leads_noted id read s).bind fun a s' h => ?_
          obtain ⟨hadds, hanswers⟩ := h
          rw [hfailures] at hanswers
          cases a with
          | ok a => exact ⟨hadds, failures, hanswers, by omega, fun _ h => nomatch h⟩
          | error e => exact ⟨hadds, failures, hanswers, by omega, fun _ _ => by omega⟩
      | succ more =>
          refine (leads_noted id read s).bind fun a s' h => ?_
          obtain ⟨hadds, hanswers⟩ := h
          rw [hfailures] at hanswers
          cases a with
          | ok a => exact ⟨hadds, failures, hanswers, by omega, fun _ h => nomatch h⟩
          | error e =>
              refine ⟨hadds, failures ++ [e], hanswers.trans (by simp), ?_⟩
              rw [List.length_append, List.length_singleton]
              omega

/-- A turn of a single read leaves its job where the answers say. -/
theorem Single.leads_turn (read : String → StateM S (Except Failure kind.Answer))
    {job : Single kind.Answer} (h : job.part.Stands retries (answers s.2 job.id kind)) :
    Leads (job.turn fun id => Source.noted kind id (read id)) s fun r s' =>
      Adds [kind] job.id s.2 s'.2 ∧
        r.Keeps (fun next => next.id = job.id ∧
            next.part.Stands retries (answers s'.2 job.id kind))
          (Yields retries (answers s'.2 job.id kind)) := by
  refine (Attempts.leads_advance (read job.id) h).bind fun r s' h => ?_
  obtain ⟨hadds, hstands⟩ := h
  cases r with
  | error e => exact ⟨hadds, hstands⟩
  | ok next =>
      obtain ⟨part, bound⟩ := next
      simp only at hstands ⊢
      split
      · next a hvalue => exact ⟨hadds, hstands.yields hvalue⟩
      · exact ⟨hadds, rfl, hstands⟩

end Attempted

section Together

variable {S : Type} {k₁ k₂ k₃ : ReadKind} {id : String} {retries : Nat}

/-- Is this where three reads stand after these answers? -/
structure Triple.Stands (k₁ k₂ k₃ : ReadKind) (retries : Nat) (answers : Answered)
    (t : Triple k₁.Answer k₂.Answer k₃.Answer) : Prop where
  first : t.first.Stands retries (answers k₁)
  second : t.second.Stands retries (answers k₂)
  third : t.third.Stands retries (answers k₃)

theorem Triple.stands_start (policy : ReadPolicy) {answers : Answered}
    (h : ∀ kind ∈ [k₁, k₂, k₃], answers kind = []) :
    Triple.Stands k₁ k₂ k₃ policy.retries answers (.start policy) := by
  refine ⟨?_, ?_, ?_⟩
  · rw [h k₁ (by simp)]
    exact Attempts.stands_left policy.retries
  · rw [h k₂ (by simp)]
    exact Attempts.stands_left policy.retries
  · rw [h k₃ (by simp)]
    exact Attempts.stands_left policy.retries

/-- Three reads give this together after these answers. -/
def YieldAll (k₁ k₂ k₃ : ReadKind) (retries : Nat) (answers : Answered) :
    Except Failure (k₁.Answer × k₂.Answer × k₃.Answer) → Prop
  | .ok (a, b, c) => Yields retries (answers k₁) (.ok a) ∧ Yields retries (answers k₂) (.ok b) ∧
      Yields retries (answers k₃) (.ok c)
  | .error e => Yields retries (answers k₁) (.error e) ∨ Yields retries (answers k₂) (.error e) ∨
      Yields retries (answers k₃) (.error e)

/-- A turn of three reads leaves them where the answers say. -/
theorem Triple.leads_turn (hkinds : [k₁, k₂, k₃].Nodup)
    (first : StateM S (Except Failure k₁.Answer)) (second : StateM S (Except Failure k₂.Answer))
    (third : StateM S (Except Failure k₃.Answer)) {t : Triple k₁.Answer k₂.Answer k₃.Answer}
    {s : S × List Reading} (h : t.Stands k₁ k₂ k₃ retries (answers s.2 id)) :
    Leads (t.turn (Source.noted k₁ id first) (Source.noted k₂ id second)
        (Source.noted k₃ id third)) s fun r s' => Adds [k₁, k₂, k₃] id s.2 s'.2 ∧
      r.Keeps (Triple.Stands k₁ k₂ k₃ retries (answers s'.2 id))
        (YieldAll k₁ k₂ k₃ retries (answers s'.2 id)) := by
  simp only [List.nodup_cons, List.mem_cons, List.not_mem_nil, or_false, not_or] at hkinds
  obtain ⟨⟨h₁₂, h₁₃⟩, h₂₃, -⟩ := hkinds
  refine (Attempts.leads_advance first h.first).bind fun r s₁ hfirst => ?_
  obtain ⟨hadds₁, hstands₁⟩ := hfirst
  have hto₁ : Adds [k₁, k₂, k₃] id s.2 s₁.2 := hadds₁.mono (by simp)
  cases r with
  | error e => exact ⟨hto₁, .inl hstands₁⟩
  | ok p =>
  -- the attempt at one read leaves the answers to the others as they were
  have hbefore₂ : t.second.Stands retries (answers s₁.2 id k₂) := by
    rw [hadds₁.answers_eq (.inl (by simp [Ne.symm h₁₂]))]
    exact h.second
  refine (Attempts.leads_advance second hbefore₂).bind fun r s₂ hsecond => ?_
  obtain ⟨hadds₂, hstands₂⟩ := hsecond
  have hto₂ : Adds [k₁, k₂, k₃] id s.2 s₂.2 := hto₁.trans (hadds₂.mono (by simp))
  cases r with
  | error e => exact ⟨hto₂, .inr (.inl hstands₂)⟩
  | ok q =>
  have hbefore₃ : t.third.Stands retries (answers s₂.2 id k₃) := by
    rw [hadds₂.answers_eq (.inl (by simp [Ne.symm h₂₃])),
      hadds₁.answers_eq (.inl (by simp [Ne.symm h₁₃]))]
    exact h.third
  refine (Attempts.leads_advance third hbefore₃).bind fun r s₃ hthird => ?_
  obtain ⟨hadds₃, hstands₃⟩ := hthird
  have hto₃ : Adds [k₁, k₂, k₃] id s.2 s₃.2 := hto₂.trans (hadds₃.mono (by simp))
  cases r with
  | error e => exact ⟨hto₃, .inr (.inr hstands₃)⟩
  | ok r =>
  obtain ⟨⟨p, hp⟩, ⟨q, hq⟩, ⟨r, hr⟩⟩ := p, q, r
  simp only at hstands₁ hstands₂ hstands₃
  rw [← hadds₂.answers_eq (.inl (by simp [h₁₂])), ← hadds₃.answers_eq (.inl (by simp [h₁₃]))]
    at hstands₁
  rw [← hadds₃.answers_eq (.inl (by simp [h₂₃]))] at hstands₂
  simp only
  split
  · next ha hb hc =>
      exact ⟨hto₃, hstands₁.yields ha, hstands₂.yields hb, hstands₃.yields hc⟩
  all_goals exact ⟨hto₃, hstands₁, hstands₂, hstands₃⟩

end Together

/-- The reads that make up a token. -/
def ReadKind.ofToken : List ReadKind := [.tokenMetadata, .tokenPrices, .tokenAnalytics]

/-- The reads that make up a pair, once its references are known. -/
def ReadKind.ofPair : List ReadKind := [.pairInfo, .pairPrices, .pairAnalytics]

/-- The reads of a token give this after these answers. -/
def TokenYields (retries : Nat) (answers : Answered) (identifier : String) :
    Except Failure Token → Prop
  | .ok t => t.identifier = identifier ∧ Yields retries (answers .tokenMetadata) (.ok t.metadata) ∧
      Yields retries (answers .tokenPrices) (.ok t.prices) ∧
      Yields retries (answers .tokenAnalytics) (.ok t.analytics)
  | .error e => Yields retries (answers .tokenMetadata) (.error e) ∨
      Yields retries (answers .tokenPrices) (.error e) ∨
      Yields retries (answers .tokenAnalytics) (.error e)

theorem TokenYields.congr {retries : Nat} {answers answers' : Answered} {identifier : String}
    {r : Except Failure Token} (h : TokenYields retries answers identifier r)
    (hsame : ∀ kind ∈ ReadKind.ofToken, answers' kind = answers kind) :
    TokenYields retries answers' identifier r := by
  cases r with
  | ok t =>
      simp only [TokenYields, hsame .tokenMetadata (by decide), hsame .tokenPrices (by decide),
        hsame .tokenAnalytics (by decide)]
      exact h
  | error e =>
      simp only [TokenYields, hsame .tokenMetadata (by decide), hsame .tokenPrices (by decide),
        hsame .tokenAnalytics (by decide)]
      exact h

/-- The reads of a pair with these tokens give this after these answers. -/
def PairYields (retries : Nat) (answers : Answered) (address : String) (tokens : PairTokens) :
    Except Failure Pair → Prop
  | .ok p => p.address = address ∧ p.tokens = tokens ∧
      Yields retries (answers .pairInfo) (.ok p.info) ∧
      Yields retries (answers .pairPrices) (.ok p.prices) ∧
      Yields retries (answers .pairAnalytics) (.ok p.analytics)
  | .error e => Yields retries (answers .pairInfo) (.error e) ∨
      Yields retries (answers .pairPrices) (.error e) ∨
      Yields retries (answers .pairAnalytics) (.error e)

theorem Yields.ok_ne_error {α : Type} {retries : Nat} {answers : List (Except Failure α)} {a : α}
    {e : Failure} (h : Yields retries answers (.ok a)) : ¬ Yields retries answers (.error e) :=
  fun h' => nomatch h.unique h'

/-- If all reads of a token succeed, they give nothing else. -/
theorem TokenYields.unique {retries : Nat} {answers : Answered} {identifier : String} {t : Token}
    {r : Except Failure Token} (h : TokenYields retries answers identifier (.ok t))
    (h' : TokenYields retries answers identifier r) : r = .ok t := by
  obtain ⟨hid, hmetadata, hprices, hanalytics⟩ := h
  cases r with
  | ok t' =>
      obtain ⟨hid', hmetadata', hprices', hanalytics'⟩ := h'
      cases t
      cases t'
      cases hid.trans hid'.symm
      cases hmetadata.unique hmetadata'
      cases hprices.unique hprices'
      cases hanalytics.unique hanalytics'
      rfl
  | error e =>
      rcases h' with h' | h' | h'
      · exact absurd h' hmetadata.ok_ne_error
      · exact absurd h' hprices.ok_ne_error
      · exact absurd h' hanalytics.ok_ne_error

/-- If all reads of a pair succeed, they give nothing else. -/
theorem PairYields.unique {retries : Nat} {answers : Answered} {address : String}
    {tokens : PairTokens} {p : Pair} {r : Except Failure Pair}
    (h : PairYields retries answers address tokens (.ok p))
    (h' : PairYields retries answers address tokens r) : r = .ok p := by
  obtain ⟨hid, htokens, hinfo, hprices, hanalytics⟩ := h
  cases r with
  | ok p' =>
      obtain ⟨hid', htokens', hinfo', hprices', hanalytics'⟩ := h'
      cases p
      cases p'
      cases hid.trans hid'.symm
      cases htokens.trans htokens'.symm
      cases hinfo.unique hinfo'
      cases hprices.unique hprices'
      cases hanalytics.unique hanalytics'
      rfl
  | error e =>
      rcases h' with h' | h' | h'
      · exact absurd h' hinfo.ok_ne_error
      · exact absurd h' hprices.ok_ne_error
      · exact absurd h' hanalytics.ok_ne_error

namespace Source

variable {S : Type} (src : Source (StateM S)) {retries : Nat} {s : S × List Reading}

/-- Where the reads of a token stand after these answers. -/
def TokenJob.Stands (retries : Nat) (answers : Answered) (identifier : String)
    (job : TokenJob) : Prop :=
  job.identifier = identifier ∧
    Triple.Stands .tokenMetadata .tokenPrices .tokenAnalytics retries answers job.parts

/-- A turn of a token leaves its reads where the answers say. -/
theorem leads_tokenTurn {identifier : String} {job : TokenJob}
    (h : job.Stands retries (answers s.2 identifier) identifier) :
    Leads (src.journaled.tokenTurn job) s fun r s' => Adds ReadKind.ofToken identifier s.2 s'.2 ∧
      r.Keeps (TokenJob.Stands retries (answers s'.2 identifier) identifier)
        (TokenYields retries (answers s'.2 identifier) identifier) := by
  obtain ⟨rfl, hparts⟩ := h
  refine (Triple.leads_turn (by decide) (src.tokenMetadata _) (src.tokenPrices _)
    (src.tokenAnalytics _) hparts).bind fun r s' h => ?_
  obtain ⟨hadds, hkeeps⟩ := h
  split
  · exact ⟨hadds, hkeeps⟩
  · exact ⟨hadds, rfl, hkeeps⟩
  · exact ⟨hadds, rfl, hkeeps⟩

/-- Where the reads of a pair stand after these answers. -/
def PairJob.Stands (retries : Nat) (answers : Answered) (asked : String × PairRefs)
    (job : PairJob) : Prop :=
  (job.address = asked.1 ∧ job.refs = asked.2) ∧
    Triple.Stands .pairInfo .pairPrices .pairAnalytics retries answers job.parts

/-- A turn of a pair leaves its reads where the answers say. -/
theorem leads_pairTurn (known : String → Option Token) {asked : String × PairRefs} {job : PairJob}
    (h : job.Stands retries (answers s.2 asked.1) asked) :
    Leads (src.journaled.pairTurn known job) s fun r s' =>
      Adds ReadKind.ofPair asked.1 s.2 s'.2 ∧
        r.Keeps (PairJob.Stands retries (answers s'.2 asked.1) asked)
          (PairYields retries (answers s'.2 asked.1) asked.1 (asked.2.tokens known)) := by
  obtain ⟨⟨haddress, hrefs⟩, hparts⟩ := h
  rw [← haddress] at hparts ⊢
  refine (Triple.leads_turn (by decide) (src.pairInfo _) (src.pairPrices _)
    (src.pairAnalytics _) hparts).bind fun r s' h => ?_
  obtain ⟨hadds, hkeeps⟩ := h
  split
  · exact ⟨hadds, hkeeps⟩
  · exact ⟨hadds, rfl, by rw [hrefs], hkeeps⟩
  · exact ⟨hadds, ⟨haddress, hrefs⟩, hkeeps⟩

/-- In a batch of jobs for distinct entities each result goes by the answers that there are in the
end, if each turn goes by those that there are after it.  Other reads are left alone. -/
theorem leads_batch {σ α κ : Type} [Inhabited κ] {cost : σ → Nat}
    {turn : (job : σ) → StateM (S × List Reading) (Turn σ α cost job)} {keys : List κ}
    {jobs : List σ} (kinds : List ReadKind) (id : κ → String) (good : κ → σ → Answered → Prop)
    (result : κ → α → Answered → Prop)
    (hturn : ∀ key job s, good key job (answers s.2 (id key)) → Leads (turn job) s fun r s' =>
      Adds kinds (id key) s.2 s'.2 ∧ r.Keeps (good key · (answers s'.2 (id key)))
        (result key · (answers s'.2 (id key))))
    (policy : ReadPolicy) (hkeys : (keys.map id).Nodup)
    (hjobs : List.Forall₂ (fun key job => good key job (answers s.2 (id key))) keys jobs) :
    Leads (batch policy turn jobs) s fun results s' =>
      List.Forall₂ (fun key a => result key a (answers s'.2 (id key))) keys results ∧
        ∀ kind name, kind ∉ kinds ∨ name ∉ keys.map id →
          answers s'.2 name kind = answers s.2 name kind := by
  -- beside what becomes of a job, reads of other kinds of its entity stay as they were at first
  let same (name : String) (now : Answered) : Prop :=
    ∀ kind ∉ kinds, now kind = answers s.2 name kind
  have hstep : ∀ key job (s' : S × List Reading),
      good key job (answers s'.2 (id key)) ∧ same (id key) (answers s'.2 (id key)) →
      (turn job s').1.Keeps
          (fun next => good key next (answers (turn job s').2.2 (id key)) ∧
            same (id key) (answers (turn job s').2.2 (id key)))
          (fun a => result key a (answers (turn job s').2.2 (id key)) ∧
            same (id key) (answers (turn job s').2.2 (id key))) ∧
        ∀ other ≠ id key, answers (turn job s').2.2 other = answers s'.2 other := by
    intro key job s' ⟨hgood, hsame⟩
    obtain ⟨hadds, hkeeps⟩ := hturn key job s' hgood
    have hstill : same (id key) (answers (turn job s').2.2 (id key)) := fun kind hkind =>
      (hadds.answers_eq (.inl hkind)).trans (hsame kind hkind)
    refine ⟨?_, fun other hother => funext fun kind => hadds.answers_eq (.inr hother)⟩
    cases hmade : (turn job s').1 with
    | finished a =>
        rw [hmade] at hkeeps
        exact ⟨hkeeps, hstill⟩
    | waiting again closer =>
        rw [hmade] at hkeeps
        exact ⟨hkeeps, hstill⟩
  obtain ⟨hresults, hothers⟩ := views_batch (fun name (s : S × List Reading) => answers s.2 name)
    id (fun key job now => good key job now ∧ same (id key) now)
    (fun key a now => result key a now ∧ same (id key) now) hstep policy hkeys s
    (hjobs.imp fun _ _ h => ⟨h, fun _ _ => rfl⟩)
  refine ⟨hresults.imp fun _ _ h => h.1, fun kind name hname => ?_⟩
  by_cases hmem : name ∈ keys.map id
  · obtain ⟨key, hkey, rfl⟩ := List.mem_map.1 hmem
    obtain ⟨a, -, -, hsame⟩ := Paired.exists_right hresults hkey
    exact hsame kind (hname.resolve_right (not_not_intro hmem))
  · exact congrFun (hothers name hmem) kind

end Source

end DexCache
