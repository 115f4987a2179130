import DexCache.Source.Job
import Mathlib.Data.List.Forall2

/-!
# What a pool gives out

Whatever the services answer and in whatever order jobs get their turns, a result comes from
one of the jobs.  If every turn keeps to a property of jobs and ends in a property of
results, all results have that property.  A pool that nothing stops gives one result for each
of its jobs, so the results of a batch or of a stream can be read off beside its jobs.  In
particular a token or a pair that was read is the one that was to be read at its place.
-/

namespace DexCache

namespace Turn

variable {σ α : Type} {cost : σ → Nat} {before : σ}

/-- A turn leads to a result, or to a job, of this kind. -/
def Keeps (job : σ → Prop) (result : α → Prop) : Turn σ α cost before → Prop
  | .finished a => result a
  | .waiting again _ => job again

end Turn

namespace Pool

variable {S σ α : Type}

/-- All jobs of a pool. -/
def jobs (p : Pool σ) : List (Nat × σ) :=
  p.todo ++ p.ready ++ p.waiting

theorem perm_jobs_start (p : Pool σ) : p.start.jobs.Perm p.jobs := by
  have hsplit : (p.todo.drop p.room ++ p.todo.take p.room).Perm p.todo := by
    refine List.perm_append_comm.trans ?_
    rw [List.take_append_drop]
  -- the jobs that start move from the front of those to be done behind those that are ready
  have hready : (p.todo.drop p.room ++ (p.ready ++ p.todo.take p.room)).Perm
      (p.todo ++ p.ready) := by
    rw [← List.append_assoc]
    refine (List.perm_append_comm.append_right _).trans ?_
    rw [List.append_assoc]
    exact (hsplit.append_left _).trans List.perm_append_comm
  exact hready.append_right p.waiting

theorem jobs_wake (p : Pool σ) : p.wake.jobs = p.jobs := by
  unfold wake
  split
  · next hready => simp [jobs, List.isEmpty_iff.1 hready]
  · rfl

/-- The job whose turn it is and the jobs that are left are the jobs of the pool. -/
theorem perm_jobs_of_next? {p rest : Pool σ} {job : Nat × σ} (h : p.next? = some (job, rest)) :
    (job :: rest.jobs).Perm p.jobs := by
  have hjobs : p.start.wake.jobs.Perm p.jobs := by
    rw [jobs_wake]
    exact p.perm_jobs_start
  unfold next? at h
  split at h
  · cases h
  · next hready =>
      cases h
      refine List.Perm.trans ?_ hjobs
      simp only [jobs, hready, List.append_assoc]
      exact List.perm_middle.symm

/-- The jobs that are to be done are numbered in order, and at least one may run. -/
structure Orderly (p : Pool σ) : Prop where
  width : 0 < p.width
  numbered : (p.todo.map Prod.fst).Pairwise (· < ·)

theorem map_fst_jobs_ofJobs (width : Nat) (order : PoolOrder) (jobs : List σ) :
    (ofJobs width order jobs).jobs.map Prod.fst = List.range jobs.length := by
  simp only [Pool.jobs, ofJobs, List.append_nil]
  apply List.ext_getElem <;> simp

theorem orderly_ofJobs (width : Nat) (order : PoolOrder) (jobs : List σ) :
    (ofJobs width order jobs).Orderly := by
  refine ⟨by simp only [ofJobs]; omega, ?_⟩
  have hnumbers := map_fst_jobs_ofJobs width order jobs
  simp only [Pool.jobs, ofJobs, List.append_nil] at hnumbers
  simp only [ofJobs, hnumbers]
  exact List.pairwise_lt_range

/-- When nothing runs, the first job that is to be done may start. -/
theorem Orderly.room_pos {p : Pool σ} (h : p.Orderly) {job : Nat × σ} {later : List (Nat × σ)}
    (htodo : p.todo = job :: later) (hready : p.ready = []) (hwaiting : p.waiting = []) :
    0 < p.room := by
  have hwidth := h.width
  have hnumbered := h.numbered
  rw [htodo, List.map_cons, List.pairwise_cons] at hnumbered
  have hfirst : (p.todo.map Prod.fst).min? = some job.1 := by
    rw [List.min?_eq_some_iff, htodo]
    refine ⟨List.mem_cons_self, fun b hb => ?_⟩
    rcases List.mem_cons.1 hb with rfl | hb
    · exact Nat.le_refl _
    · exact Nat.le_of_lt (hnumbered.1 b hb)
  simp only [room, hready, hwaiting, List.append_nil, List.nil_append, List.length_nil,
    Nat.sub_zero]
  cases p.order with
  | asFinished => exact hwidth
  | asStarted =>
      simp only [hfirst]
      rw [htodo, List.takeWhile_cons_of_pos (by simpa using hwidth)]
      exact Nat.succ_pos _

/-- An orderly pool in which no job has a turn is empty. -/
theorem Orderly.jobs_of_done {p : Pool σ} (h : p.Orderly) (hdone : p.next? = none) :
    p.jobs = [] := by
  have hnone : p.start.wake.ready = [] := by
    unfold next? at hdone
    split at hdone
    · assumption
    · cases hdone
  -- nothing is ready and nothing waits, else the waiting jobs had gone on
  have hidle : p.start.ready = [] ∧ p.waiting = [] := by
    unfold wake at hnone
    split at hnone
    · next hempty => exact ⟨List.isEmpty_iff.1 hempty, hnone⟩
    · next hsome => exact absurd (List.isEmpty_iff.2 hnone) hsome
  obtain ⟨hready, htake⟩ := List.append_eq_nil_iff.1 hidle.1
  cases htodo : p.todo with
  | nil => simp [jobs, htodo, hready, hidle.2]
  | cons job later =>
      have hroom := h.room_pos htodo hready hidle.2
      rcases List.take_eq_nil_iff.1 htake with hzero | hempty
      · omega
      · rw [htodo] at hempty
        cases hempty

theorem Orderly.next? {p rest : Pool σ} {job : Nat × σ} (h : p.Orderly)
    (hnext : p.next? = some (job, rest)) : rest.Orderly := by
  have hkept : p.start.wake.width = p.width ∧ p.start.wake.todo = p.todo.drop p.room := by
    unfold wake
    split <;> exact ⟨rfl, rfl⟩
  unfold Pool.next? at hnext
  split at hnext
  · cases hnext
  · cases hnext
    refine ⟨hkept.1 ▸ h.width, ?_⟩
    simp only [hkept.2, List.map_drop]
    exact h.numbered.sublist (List.drop_sublist _ _)

section Run

variable {m : Type → Type} [Monad m] {cost : σ → Nat}
  {turn : (job : σ) → m (Turn σ α cost job)} {stop : α → Bool} {p rest : Pool σ} {job : Nat × σ}

theorem run_of_done (h : p.next? = none) : p.run turn stop = pure [] := by
  rw [run]
  split
  · rfl
  · next hnext => rw [h] at hnext; cases hnext

theorem run_of_next? (h : p.next? = some (job, rest)) :
    p.run turn stop = (do
      match ← turn job.2 with
      | .finished a =>
        if stop a then return [(job.1, a)] else return (job.1, a) :: (← run turn stop rest)
      | .waiting again _ => run turn stop (rest.wait (job.1, again))) := by
  rw [run]
  split
  · next hnext => rw [h] at hnext; cases hnext
  · next hnext =>
      rw [h] at hnext
      cases hnext
      rfl

end Run

section State

variable {cost : σ → Nat} {turn : (job : σ) → StateM S (Turn σ α cost job)}

theorem mem_jobs_wait {p : Pool σ} {job other : Nat × σ} :
    other ∈ (p.wait job).jobs ↔ other = job ∨ other ∈ p.jobs := by
  simp only [jobs, wait, List.mem_append, List.mem_singleton]
  exact or_assoc.symm.trans or_comm

/-- If turns keep to a kind of job and end in a kind of result, all results are of that kind;
the kinds may depend on the number of the job. -/
theorem of_mem_run (good : Nat → σ → Prop) (result : Nat → α → Prop)
    (hturn : ∀ i job s, good i job → (turn job s).1.Keeps (good i) (result i)) (stop : α → Bool)
    (p : Pool σ) (s : S) (hp : ∀ job ∈ p.jobs, good job.1 job.2) :
    ∀ r ∈ (p.run turn stop s).1, result r.1 r.2 := by
  -- a turn that ends nothing brings its job closer to the end, so the induction is on turns
  induction hn : p.turnsLeft cost using Nat.strongRecOn generalizing p s with
  | _ n ih =>
      subst hn
      cases hnext : p.next? with
      | none =>
          rw [run_of_done hnext]
          intro r hr
          cases hr
      | some found =>
          obtain ⟨job, rest⟩ := found
          rw [run_of_next? hnext]
          have hjobs := perm_jobs_of_next? hnext
          have hcost := turnsLeft_next? cost hnext
          have hkept := hturn job.1 job.2 s (hp job (hjobs.subset List.mem_cons_self))
          have hgood : ∀ other ∈ rest.jobs, good other.1 other.2 := fun other hother =>
            hp other (hjobs.subset (List.mem_cons_of_mem _ hother))
          simp only [bind, StateT.bind]
          rcases hout : turn job.2 s with ⟨made, s'⟩
          rw [hout] at hkept
          cases made with
          | finished a =>
              simp only
              split
              · intro r hr
                rw [List.mem_singleton.1 hr]
                exact hkept
              · intro r hr
                rcases List.mem_cons.1 hr with rfl | hr
                · exact hkept
                · exact ih _ (by omega) rest s' hgood rfl r hr
          -- the job waits again, one turn closer to its end
          | waiting again closer =>
              have hless := turnsLeft_wait cost rest (job.1, again)
              refine ih _ ?_ (rest.wait (job.1, again)) s' ?_ rfl
              · simp only at hless
                omega
              · intro other hother
                rcases mem_jobs_wait.1 hother with rfl | hother
                · exact hkept
                · exact hgood other hother

/-- If nothing stops a pool, each of its jobs gives one result. -/
theorem Orderly.perm_map_fst_run {p : Pool σ} (h : p.Orderly) (s : S) :
    ((p.run turn (fun _ => false) s).1.map Prod.fst).Perm (p.jobs.map Prod.fst) := by
  induction hn : p.turnsLeft cost using Nat.strongRecOn generalizing p s with
  | _ n ih =>
      subst hn
      cases hnext : p.next? with
      | none =>
          rw [run_of_done hnext, h.jobs_of_done hnext]
          exact List.Perm.nil
      | some found =>
          obtain ⟨job, rest⟩ := found
          rw [run_of_next? hnext]
          have hjobs := (perm_jobs_of_next? hnext).map Prod.fst
          have hcost := turnsLeft_next? cost hnext
          have horderly := h.next? hnext
          simp only [bind, StateT.bind]
          rcases hout : turn job.2 s with ⟨made, s'⟩
          cases made with
          | finished a => exact ((ih _ (by omega) horderly s' rfl).cons job.1).trans hjobs
          -- the job keeps its number while it waits
          | waiting again closer =>
              have hless := turnsLeft_wait cost rest (job.1, again)
              have hwait : ((rest.wait (job.1, again)).jobs.map Prod.fst).Perm
                  (job.1 :: rest.jobs.map Prod.fst) := by
                simp only [jobs, wait, List.map_append, List.map_cons, List.map_nil]
                rw [← List.append_assoc]
                exact List.perm_append_singleton _ _
              refine (ih _ ?_ (p := rest.wait (job.1, again)) ?_ s' rfl).trans (hwait.trans hjobs)
              · simp only at hless
                omega
              · exact ⟨horderly.width, horderly.numbered⟩

/-- What a turn does to its own job goes by what it sees at the place of the job, and it changes
nothing that is seen at other places.  Then each result goes by what is seen in the end at its
own place, and at other places than those of jobs nothing has changed. -/
theorem run_views {κ V : Type} (view : κ → S → V) (place : Nat → κ) (good : Nat → σ → V → Prop)
    (result : Nat → α → V → Prop)
    (hturn : ∀ i job s, good i job (view (place i) s) →
      (turn job s).1.Keeps (good i · (view (place i) (turn job s).2))
          (result i · (view (place i) (turn job s).2)) ∧
        ∀ other ≠ place i, view other (turn job s).2 = view other s)
    (p : Pool σ) (s : S) (hplaces : (p.jobs.map fun job => place job.1).Nodup)
    (hp : ∀ job ∈ p.jobs, good job.1 job.2 (view (place job.1) s)) :
    (∀ r ∈ (p.run turn (fun _ => false) s).1,
        result r.1 r.2 (view (place r.1) (p.run turn (fun _ => false) s).2)) ∧
      ∀ other, other ∉ p.jobs.map (fun job => place job.1) →
        view other (p.run turn (fun _ => false) s).2 = view other s := by
  induction hn : p.turnsLeft cost using Nat.strongRecOn generalizing p s with
  | _ n ih =>
      subst hn
      cases hnext : p.next? with
      | none =>
          rw [run_of_done hnext]
          exact ⟨fun r hr => (List.not_mem_nil hr).elim, fun _ _ => rfl⟩
      | some found =>
          obtain ⟨job, rest⟩ := found
          rw [run_of_next? hnext]
          have hjobs := perm_jobs_of_next? hnext
          have hcost := turnsLeft_next? cost hnext
          have hall : (place job.1 :: rest.jobs.map fun job => place job.1).Perm
              (p.jobs.map fun job => place job.1) := hjobs.map fun job : Nat × σ => place job.1
          obtain ⟨hnew, hrest⟩ := List.nodup_cons.1 (hall.nodup_iff.2 hplaces)
          have hapart {other : κ} (h : other ∉ p.jobs.map fun job => place job.1) :
              other ≠ place job.1 ∧ other ∉ rest.jobs.map fun job => place job.1 := by
            rwa [← hall.mem_iff, List.mem_cons, not_or] at h
          obtain ⟨hkept, hframe⟩ := hturn _ job.2 s (hp job (hjobs.subset List.mem_cons_self))
          simp only [bind, StateT.bind]
          rcases hout : turn job.2 s with ⟨made, s'⟩
          rw [hout] at hkept hframe
          have hgood : ∀ other ∈ rest.jobs, good other.1 other.2 (view (place other.1) s') := by
            intro other hother
            have hne : place other.1 ≠ place job.1 := fun hsame =>
              hnew (hsame ▸ List.mem_map.2 ⟨other, hother, rfl⟩)
            rw [hframe _ hne]
            exact hp other (hjobs.subset (List.mem_cons_of_mem _ hother))
          cases made with
          | finished a =>
              obtain ⟨hresults, hothers⟩ := ih _ (by omega) rest s' hrest hgood rfl
              refine ⟨fun r hr => ?_, fun other hother => ?_⟩
              · rcases List.mem_cons.1 hr with rfl | hr
                · exact (congrArg (result _ a) (hothers _ hnew)).mpr hkept
                · exact hresults r hr
              · obtain ⟨hne, hmem⟩ := hapart hother
                exact (hothers other hmem).trans (hframe other hne)
          -- the job waits again at its own place
          | waiting again closer =>
              have hless := turnsLeft_wait cost rest (job.1, again)
              have hwait : ((rest.wait (job.1, again)).jobs.map fun job => place job.1).Perm
                  (place job.1 :: rest.jobs.map fun job => place job.1) := by
                simp only [jobs, wait, List.map_append, List.map_cons, List.map_nil]
                rw [← List.append_assoc]
                exact List.perm_append_singleton _ _
              have hagain : ∀ other ∈ (rest.wait (job.1, again)).jobs,
                  good other.1 other.2 (view (place other.1) s') := by
                intro other hother
                rcases mem_jobs_wait.1 hother with rfl | hother
                · exact hkept
                · exact hgood other hother
              obtain ⟨hresults, hothers⟩ := ih _ (by simp only at hless; omega) _ s'
                (hwait.nodup_iff.2 (List.nodup_cons.2 ⟨hnew, hrest⟩)) hagain rfl
              refine ⟨hresults, fun other hother => ?_⟩
              obtain ⟨hne, hmem⟩ := hapart hother
              refine (hothers other fun h => ?_).trans (hframe other hne)
              exact (List.mem_cons.1 (hwait.subset h)).elim hne hmem

end State

end Pool

namespace Source

variable {S σ κ α : Type}

section Batch

variable {cost : σ → Nat} {turn : (job : σ) → StateM S (Turn σ α cost job)} {keys : List κ}
  {jobs : List σ}

/-- Put in the order of the jobs, each result of a pool that nothing stops is beside its key, if
it is of the kind that the key at its number asks for. -/
theorem forall₂_of_mem_run {result : κ → α → Prop} (policy : ReadPolicy) (order : PoolOrder) (s : S)
    (hlength : keys.length = jobs.length)
    (hresult : ∀ r ∈ ((Pool.ofJobs policy.width order jobs).run turn (fun _ => false) s).1,
      ∃ key, keys[r.1]? = some key ∧ result key r.2) :
    List.Forall₂ result keys
      (Pool.inOrder ((Pool.ofJobs policy.width order jobs).run turn (fun _ => false) s).1) := by
  let pool := Pool.ofJobs policy.width order jobs
  let results := (pool.run turn (fun _ => false) s).1
  let sorted := results.mergeSort fun a b => decide (a.1 ≤ b.1)
  have hsorted : sorted.map Prod.fst = List.range keys.length := by
    have hperm : (sorted.map Prod.fst).Perm (List.range jobs.length) := by
      have hrun : (results.map Prod.fst).Perm (pool.jobs.map Prod.fst) :=
        (Pool.orderly_ofJobs policy.width order jobs).perm_map_fst_run s
      rw [Pool.map_fst_jobs_ofJobs] at hrun
      exact ((List.mergeSort_perm results _).map Prod.fst).trans hrun
    have hle : (sorted.map Prod.fst).Pairwise (· ≤ ·) := by
      rw [List.pairwise_map]
      have hpairwise : sorted.Pairwise fun a b => decide (a.1 ≤ b.1) = true :=
        List.pairwise_mergeSort (by simp; omega) (by simp; omega) results
      simpa using hpairwise
    rw [hlength]
    exact hperm.eq_of_pairwise (fun a b _ _ hab hba => Nat.le_antisymm hab hba) hle
      (List.pairwise_lt_range.imp Nat.le_of_lt)
  have hcount : sorted.length = keys.length := by
    rw [← List.length_map (f := Prod.fst), hsorted, List.length_range]
  change List.Forall₂ result keys (sorted.map Prod.snd)
  rw [List.forall₂_iff_get]
  refine ⟨by rw [List.length_map, hcount], fun i hkey hi => ?_⟩
  rw [List.length_map] at hi
  have hnumber : sorted[i].1 = i := by
    have hget : (sorted.map Prod.fst)[i]? = (List.range keys.length)[i]? := by rw [hsorted]
    simpa [hi, hkey] using hget
  obtain ⟨key, hfound, hkept⟩ := hresult sorted[i]
    (List.mem_mergeSort.1 (List.getElem_mem hi))
  rw [hnumber, List.getElem?_eq_getElem hkey] at hfound
  obtain rfl := Option.some.inj hfound
  simpa using hkept

/-- The jobs of a pool stand at their numbers. -/
theorem exists_of_mem_ofJobs {good : κ → σ → Prop} {policy : ReadPolicy} {order : PoolOrder}
    (hjobs : List.Forall₂ good keys jobs) {job : Nat × σ}
    (hjob : job ∈ (Pool.ofJobs policy.width order jobs).jobs) :
    ∃ key, keys[job.1]? = some key ∧ good key job.2 := by
  simp only [Pool.jobs, Pool.ofJobs, List.append_nil, List.mem_mapIdx] at hjob
  obtain ⟨i, hi, rfl⟩ := hjob
  have hi' : i < keys.length := hjobs.length_eq ▸ hi
  exact ⟨keys[i], List.getElem?_eq_getElem hi', hjobs.get hi' hi⟩

/-- Each result is of the kind that the key at its own number asks for. -/
theorem keyed_run (good : κ → σ → Prop) (result : κ → α → Prop)
    (hturn : ∀ key job s, good key job → (turn job s).1.Keeps (good key) (result key))
    (policy : ReadPolicy) (order : PoolOrder) (stop : α → Bool)
    (hjobs : List.Forall₂ good keys jobs) (s : S) :
    ∀ r ∈ ((Pool.ofJobs policy.width order jobs).run turn stop s).1,
      ∃ key, keys[r.1]? = some key ∧ result key r.2 := by
  refine Pool.of_mem_run (fun i job => ∃ key, keys[i]? = some key ∧ good key job)
    (fun i a => ∃ key, keys[i]? = some key ∧ result key a) ?_ _ _ s fun job hjob =>
      exists_of_mem_ofJobs hjobs hjob
  rintro i job s ⟨key, hkey, hjob⟩
  have hkept := hturn key job s hjob
  cases hmade : (turn job s).1 with
  | finished a => exact ⟨key, hkey, by rwa [hmade] at hkept⟩
  | waiting again closer => exact ⟨key, hkey, by rwa [hmade] at hkept⟩

/-- Each result of a batch is of the kind that its own job leads to. -/
theorem forall₂_batch (good : κ → σ → Prop) (result : κ → α → Prop)
    (hturn : ∀ key job s, good key job → (turn job s).1.Keeps (good key) (result key))
    (policy : ReadPolicy) (hjobs : List.Forall₂ good keys jobs) (s : S) :
    List.Forall₂ result keys (batch policy turn jobs s).1 :=
  forall₂_of_mem_run policy .asStarted s hjobs.length_eq
    (keyed_run good result hturn policy .asStarted _ hjobs s)

/-- The results of a stream that nothing stops are those that the jobs lead to, in some order. -/
theorem exists_forall₂_stream (good : κ → σ → Prop) (result : κ → α → Prop)
    (hturn : ∀ key job s, good key job → (turn job s).1.Keeps (good key) (result key))
    (policy : ReadPolicy) (hjobs : List.Forall₂ good keys jobs) (s : S) :
    ∃ ordered, ordered.Perm (stream policy turn (fun _ => false) jobs s).1 ∧
      List.Forall₂ result keys ordered :=
  ⟨_, (List.mergeSort_perm _ _).map Prod.snd,
    forall₂_of_mem_run policy .asFinished s hjobs.length_eq
      (keyed_run good result hturn policy .asFinished _ hjobs s)⟩

/-- Each result of a batch goes by what is seen in the end at its own place, if each turn goes by
what it sees at the place of its job and leaves the other places alone. -/
theorem views_batch [Inhabited κ] {ι V : Type} (view : ι → S → V) (place : κ → ι)
    (good : κ → σ → V → Prop) (result : κ → α → V → Prop)
    (hturn : ∀ key job s, good key job (view (place key) s) →
      (turn job s).1.Keeps (good key · (view (place key) (turn job s).2))
          (result key · (view (place key) (turn job s).2)) ∧
        ∀ other ≠ place key, view other (turn job s).2 = view other s)
    (policy : ReadPolicy) (hplaces : (keys.map place).Nodup) (s : S)
    (hjobs : List.Forall₂ (fun key job => good key job (view (place key) s)) keys jobs) :
    List.Forall₂ (fun key a => result key a (view (place key) (batch policy turn jobs s).2)) keys
        (batch policy turn jobs s).1 ∧
      ∀ other ∉ keys.map place, view other (batch policy turn jobs s).2 = view other s := by
  let pool := Pool.ofJobs policy.width .asStarted jobs
  let key (i : Nat) : κ := (keys[i]?).getD default
  have hall : (pool.jobs.map fun job => place (key job.1)) = keys.map place := by
    have hnumbers := congrArg (List.map fun i => place (key i))
      (Pool.map_fst_jobs_ofJobs policy.width .asStarted jobs)
    rw [List.map_map] at hnumbers
    refine hnumbers.trans (List.ext_getElem (by simp [hjobs.length_eq]) fun i _ hi => ?_)
    rw [List.length_map] at hi
    simp [key, hi]
  have hgood : ∀ job ∈ pool.jobs, good (key job.1) job.2 (view (place (key job.1)) s) := by
    intro job hjob
    obtain ⟨k, hk, hkept⟩ := exists_of_mem_ofJobs hjobs hjob
    simpa [key, hk] using hkept
  obtain ⟨hresults, hothers⟩ := Pool.run_views view (fun i => place (key i))
    (fun i => good (key i)) (fun i => result (key i)) (fun i => hturn (key i)) pool s
    (hall ▸ hplaces) hgood
  refine ⟨forall₂_of_mem_run policy .asStarted s hjobs.length_eq fun r hr => ?_,
    fun other hother => ?_⟩
  · have hnumber : r.1 < keys.length := by
      have hrun : ((pool.run turn (fun _ => false) s).1.map Prod.fst).Perm
          (pool.jobs.map Prod.fst) :=
        (Pool.orderly_ofJobs policy.width .asStarted jobs).perm_map_fst_run s
      have hmem := hrun.subset (List.mem_map_of_mem hr)
      rwa [Pool.map_fst_jobs_ofJobs, List.mem_range, ← hjobs.length_eq] at hmem
    refine ⟨keys[r.1], List.getElem?_eq_getElem hnumber, ?_⟩
    have hkept := hresults r hr
    simp only [key, List.getElem?_eq_getElem hnumber, Option.getD_some] at hkept
    exact hkept
  · exact hothers other (hall.symm ▸ hother)

end Batch

variable (src : Source (StateM S))

/-- Reading a token gives the token that was to be read. -/
theorem tokenTurn_keeps (good : String → Prop) (job : TokenJob) (s : S)
    (h : good job.identifier) :
    (src.tokenTurn job s).1.Keeps (fun j => good j.identifier)
      (fun r => ∀ t, r = .ok t → good t.identifier) := by
  simp only [tokenTurn, bind, StateT.bind]
  generalize job.parts.turn (src.tokenMetadata job.identifier) (src.tokenPrices job.identifier)
    (src.tokenAnalytics job.identifier) s = out
  obtain ⟨made, s'⟩ := out
  cases made with
  | finished r =>
      cases r with
      | error e => exact fun t ht => nomatch ht
      | ok parts => exact fun t ht => Except.ok.inj ht ▸ h
  | waiting parts closer => exact h

/-- Reading a pair gives the pair that was to be read, with its references. -/
theorem pairTurn_keeps (known : String → Option Token) (address : String) (refs : PairRefs)
    (job : PairJob) (s : S) (h : job.address = address ∧ job.refs = refs) :
    (src.pairTurn known job s).1.Keeps (fun j => j.address = address ∧ j.refs = refs)
      (fun r => ∀ p, r = .ok p → p.address = address ∧ p.tokens = refs.tokens known) := by
  simp only [pairTurn, bind, StateT.bind]
  generalize job.parts.turn (src.pairInfo job.address) (src.pairPrices job.address)
    (src.pairAnalytics job.address) s = out
  obtain ⟨made, s'⟩ := out
  cases made with
  | finished r =>
      cases r with
      | error e => exact fun p hp => nomatch hp
      | ok parts =>
          intro p hp
          rw [← Except.ok.inj hp]
          exact ⟨h.1, by rw [h.2]⟩
  | waiting parts closer => exact h

end Source

end DexCache
