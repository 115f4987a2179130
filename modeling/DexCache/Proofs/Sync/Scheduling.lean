import DexCache.Proofs.Leases
import DexCache.Source.Table
import DexCache.Sync.Scheduler

/-!
# Runs of one task

A lease keeps the runs of one task apart as long as it lasts, and no longer: a run that is under
way when its lease is over does not keep the next one from beginning.  What holds of every
order of calls and returns is kept as an invariant of the shared table: the leases in it are those
of runs under way, and a run whose lease is not in it has outlived its lease.
-/

namespace DexCache

theorem Task.name_injective : Function.Injective Task.name := by
  intro a b h
  cases a with
  | refresh a =>
      cases b with
      | refresh b => cases a <;> cases b <;> first | rfl | exact absurd h (by decide)
      | checkpoint => cases a <;> exact absurd h (by decide)
  | checkpoint =>
      cases b with
      | refresh b => cases b <;> exact absurd h (by decide)
      | checkpoint => rfl

/-- Two tasks have no lock in common. -/
theorem taskLock_injective {a b : Task} (h : taskLock a.name = taskLock b.name) : a = b :=
  Task.name_injective ((String.append_right_inj _).1 h)

namespace Schedulers

variable {s : Schedulers} {now : Int}

/-- What came of a call. -/
theorem call_cases (s : Schedulers) (task : Task) (duration looked : Int) :
    (s.leases.isHeld (taskLock task.name) looked = true ∧
      s.call task duration looked = (none, s)) ∨
    (¬ s.leases.isHeld (taskLock task.name) looked = true ∧
      ∃ run : TaskRun, run = ⟨task, ⟨taskLock task.name, s.leases.granted⟩, looked + duration⟩ ∧
        s.call task duration looked = (some run,
          { s with leases := s.leases.grant (taskLock task.name) (looked + duration),
                   running := run :: s.running })) := by
  by_cases h : s.leases.isHeld (taskLock task.name) looked = true
  · exact .inl ⟨h, by simp only [call, LeaseTable.acquire?_of_isHeld h]⟩
  · exact .inr ⟨h, _, rfl, by simp only [call, LeaseTable.acquire?_of_not_isHeld h]⟩

theorem refused_of_call_eq_none {task : Task} {duration looked : Int}
    (hcall : (s.call task duration looked).1 = none) :
    s.leases.isHeld (taskLock task.name) looked = true ∧
      s.call task duration looked = (none, s) := by
  rcases s.call_cases task duration looked with hheld | ⟨-, run, -, hbegun⟩
  · exact hheld
  · rw [hbegun] at hcall
    cases hcall

theorem begun_of_call_eq_some {task : Task} {duration looked : Int} {run : TaskRun}
    (hcall : (s.call task duration looked).1 = some run) :
    ¬ s.leases.isHeld (taskLock task.name) looked = true ∧
      run = ⟨task, ⟨taskLock task.name, s.leases.granted⟩, looked + duration⟩ ∧
      s.call task duration looked = (some run,
        { s with leases := s.leases.grant (taskLock task.name) (looked + duration),
                 running := run :: s.running }) := by
  rcases s.call_cases task duration looked with ⟨-, hrefused⟩ | ⟨hfree, run', hrun, hbegun⟩
  · rw [hrefused] at hcall
    cases hcall
  · obtain rfl : run' = run := Option.some.inj (by rw [← hcall, hbegun])
    exact ⟨hfree, hrun, hbegun⟩

/-- What the calls and the returns keep of the table, at a time. -/
structure Orderly (s : Schedulers) (now : Int) : Prop where
  onePerName : s.leases.OnePerName
  /-- The leases in the table are those of runs under way. -/
  owned : ∀ h ∈ s.leases.held, ∃ run ∈ s.running, h = ⟨run.lease, run.expiry⟩
  named : ∀ run ∈ s.running, run.lease.name = taskLock run.task.name
  distinct : ((s.running ++ s.returned).map TaskRun.lease).Nodup
  granted : ∀ run ∈ s.running ++ s.returned, run.lease.grant < s.leases.granted
  /-- A run whose lease is not in the table any more has outlived it. -/
  standing : ∀ run ∈ s.running, ⟨run.lease, run.expiry⟩ ∈ s.leases.held ∨ run.expiry ≤ now

namespace Orderly

theorem idle (now : Int) : Orderly {} now where
  onePerName := LeaseTable.OnePerName.empty
  owned := by simp
  named := by simp
  distinct := by simp
  granted := by simp
  standing := by simp

theorem distinct_running (h : s.Orderly now) : (s.running.map TaskRun.lease).Nodup := by
  have hall := h.distinct
  rw [List.map_append] at hall
  exact hall.of_append_left

/-- Where a call is not refused, the leases of all runs of its task are over. -/
theorem expiry_le (h : s.Orderly now) {task : Task} {looked : Int}
    (hfree : ¬ s.leases.isHeld (taskLock task.name) looked = true) {run : TaskRun}
    (hrun : run ∈ s.running) (htask : run.task = task) :
    run.expiry ≤ looked ∨ run.expiry ≤ now := by
  rcases h.standing run hrun with hheld | hover
  · refine .inl (Int.not_lt.1 fun hrunning => ?_)
    have hname : run.lease.name = taskLock task.name := htask ▸ h.named run hrun
    exact hfree (h.onePerName.isHeld_iff.2 ⟨_, hheld, hname, hrunning⟩)
  · exact .inr hover

theorem call (h : s.Orderly now) (task : Task) (duration : Int) {looked now' : Int}
    (later : now ≤ now') (seen : looked ≤ now') :
    (s.call task duration looked).2.Orderly now' := by
  rcases s.call_cases task duration looked with ⟨-, hcall⟩ | ⟨hfree, run, hrun, hcall⟩
  · rw [hcall]
    exact { h with standing := fun run hrun =>
      (h.standing run hrun).imp_right fun hover => Int.le_trans hover later }
  · rw [hcall]
    constructor
    case onePerName => exact h.onePerName.grant _ _
    case owned =>
      intro x hx
      rcases LeaseTable.mem_held_grant.1 hx with rfl | ⟨hx, -⟩
      · exact ⟨run, List.mem_cons_self, by rw [hrun]⟩
      · obtain ⟨other, hother, heq⟩ := h.owned x hx
        exact ⟨other, List.mem_cons_of_mem _ hother, heq⟩
    case named =>
      intro other hother
      rcases List.mem_cons.1 hother with rfl | hother
      · rw [hrun]
      · exact h.named other hother
    case distinct =>
      refine List.nodup_cons.2 ⟨fun hmem => ?_, h.distinct⟩
      obtain ⟨other, hother, hlease⟩ := List.mem_map.1 hmem
      have hless := h.granted other hother
      rw [hlease, hrun] at hless
      exact Nat.lt_irrefl _ hless
    case granted =>
      intro other hother
      rcases List.mem_cons.1 hother with rfl | hother
      · rw [hrun]
        exact Nat.lt_succ_self _
      · exact Nat.lt_succ_of_lt (h.granted other hother)
    case standing =>
      intro other hother
      rcases List.mem_cons.1 hother with rfl | hother
      · exact .inl (LeaseTable.mem_held_grant.2 (.inl (by rw [hrun])))
      · by_cases htask : other.task = task
        · exact .inr ((h.expiry_le hfree hother htask).elim (Int.le_trans · seen)
            (Int.le_trans · later))
        · refine (h.standing other hother).imp (fun hheld => ?_) (Int.le_trans · later)
          refine LeaseTable.mem_held_grant.2 (.inr ⟨hheld, fun hname => htask ?_⟩)
          exact taskLock_injective ((h.named other hother).symm.trans hname)

theorem finish (h : s.Orderly now) {run : TaskRun} (hrun : run ∈ s.running) {now' : Int}
    (later : now ≤ now') : (s.finish run).Orderly now' := by
  have hperm : (s.running.erase run ++ run :: s.returned).Perm (s.running ++ s.returned) :=
    List.perm_middle.trans ((List.perm_cons_erase hrun).symm.append_right _)
  have hnodup := h.distinct_running
  have hne {other : TaskRun} (hother : other ∈ s.running) (hne : other ≠ run) :
      other.lease ≠ run.lease :=
    fun heq => hne (Distinct.eq_of_key hnodup hother hrun heq)
  constructor
  case onePerName => exact h.onePerName.release _
  case owned =>
    intro x hx
    obtain ⟨hheld, hother⟩ := LeaseTable.mem_held_release.1 hx
    obtain ⟨other, hmem, rfl⟩ := h.owned x hheld
    refine ⟨other, (List.mem_erase_of_ne fun heq => hother ?_).2 hmem, rfl⟩
    rw [heq]
  case named => exact fun other hother => h.named other (List.mem_of_mem_erase hother)
  case distinct => exact (hperm.map _).nodup_iff.2 h.distinct
  case granted => exact fun other hother => h.granted other (hperm.mem_iff.1 hother)
  case standing =>
    intro other hother
    have hmem := List.mem_of_mem_erase hother
    refine (h.standing other hmem).imp (fun hheld => ?_) (Int.le_trans · later)
    refine LeaseTable.mem_held_release.2 ⟨hheld, hne hmem ?_⟩
    rintro rfl
    exact ((List.Nodup.of_map _ hnodup).mem_erase_iff.1 hother).1 rfl

/-- Of two runs of one task that are under way, one has outlived its lease. -/
theorem apart (h : s.Orderly now) {a b : TaskRun} (ha : a ∈ s.running) (hb : b ∈ s.running)
    (htask : a.task = b.task) (hne : a ≠ b) : a.expiry ≤ now ∨ b.expiry ≤ now := by
  rcases h.standing a ha with hheldA | hover
  · rcases h.standing b hb with hheldB | hover
    · have hname : a.lease.name = b.lease.name := by
        rw [h.named a ha, h.named b hb, htask]
      have hlease := congrArg HeldLease.lease (Distinct.eq_of_key h.onePerName hheldA hheldB hname)
      exact absurd (Distinct.eq_of_key h.distinct_running ha hb hlease) hne
    · exact .inr hover
  · exact .inl hover

/-- Whoever is refused is refused because of a run under way. -/
theorem of_refused (h : s.Orderly now) {task : Task} {looked : Int}
    (hheld : s.leases.isHeld (taskLock task.name) looked = true) :
    ∃ run ∈ s.running, run.task = task ∧ looked < run.expiry := by
  obtain ⟨x, hx, hname, hrunning⟩ := h.onePerName.isHeld_iff.1 hheld
  obtain ⟨run, hrun, rfl⟩ := h.owned x hx
  exact ⟨run, hrun, taskLock_injective ((h.named run hrun).symm.trans hname), hrunning⟩

/-- The lease of a run that has returned is gone. -/
theorem lease_ne_of_returned (h : s.Orderly now) {run : TaskRun} (hrun : run ∈ s.returned) :
    ∀ x ∈ s.leases.held, x.lease ≠ run.lease := by
  rintro x hx hlease
  obtain ⟨other, hother, rfl⟩ := h.owned x hx
  have hnodup := h.distinct
  rw [List.map_append] at hnodup
  exact (List.nodup_append.1 hnodup).2.2 _ (List.mem_map_of_mem hother) _
    (List.mem_map_of_mem hrun) hlease

/-- A run that returns under its lease leaves its task to the next call. -/
theorem not_isHeld_finish (h : s.Orderly now) {run : TaskRun} (hrun : run ∈ s.running)
    (hheld : ⟨run.lease, run.expiry⟩ ∈ s.leases.held) (looked : Int) :
    ¬ (s.finish run).leases.isHeld (taskLock run.task.name) looked = true := by
  rw [(h.finish hrun (Int.le_refl now)).onePerName.isHeld_iff]
  rintro ⟨x, hx, hname, -⟩
  obtain ⟨hx, hne⟩ := LeaseTable.mem_held_release.1 hx
  have hsame := Distinct.eq_of_key h.onePerName hx hheld (hname.trans (h.named run hrun).symm)
  exact hne (congrArg HeldLease.lease hsame)

end Orderly

theorem Reached.orderly (h : Reached s now) : s.Orderly now := by
  induction h with
  | idle now => exact .idle now
  | call h task duration looked now later seen ih => exact ih.call task duration later seen
  | finish h run underWay now later ih => exact ih.finish underWay later

end Schedulers

namespace Cache

variable {m : Type → Type} [Monad m] [LawfulMonad m] (src : Source m) (policy : ReadPolicy)

/-- The work of a task does not touch the leases. -/
theorem execute_leases (c : Cache) (task : Task) (now : Int) :
    (fun x => (x.1, { x.2 with leases := c.leases })) <$> c.execute src policy task now =
      c.execute src policy task now := by
  cases task with
  | refresh task => simp [execute, refresh]
  | checkpoint =>
      unfold execute saveCheckpoint
      by_cases hpopulated : c.store.populated = true
      · simp only [hpopulated, Bool.not_true, Bool.false_eq_true, if_false, bind_assoc, map_bind]
        refine bind_congr fun nonce => ?_
        cases nonce with
        | error e => simp
        | ok nonce =>
            have hkept : ∀ checkpoint, { (c.keep checkpoint).2 with leases := c.leases } =
                (c.keep checkpoint).2 := fun checkpoint => by
              unfold keep
              split <;> rfl
            simp [hkept]
      · simp [hpopulated]

variable {s : Schedulers} {task : Task} {duration now : Int}

omit [LawfulMonad m] in
/-- A refused task reads nothing and changes nothing. -/
theorem runTask_of_refused (c : Cache) (hleases : c.leases = s.leases)
    (hcall : (s.call task duration now).1 = none) :
    c.runTask src policy task duration now = pure (.ok false, c) := by
  have hheld := (Schedulers.refused_of_call_eq_none hcall).1
  rw [← hleases] at hheld
  rw [runTask, LeaseTable.acquire?_of_isHeld hheld]

/-- A task that is not refused begins its run, does its work and returns, whatever came of the
work. -/
theorem runTask_of_begun (c : Cache) (hleases : c.leases = s.leases) {run : TaskRun}
    (hcall : (s.call task duration now).1 = some run) :
    c.runTask src policy task duration now =
      (fun x => (x.1.map fun _ => true,
        { x.2 with leases := ((s.call task duration now).2.finish run).leases })) <$>
      { c with leases := (s.call task duration now).2.leases }.execute src policy task now := by
  obtain ⟨hfree, hrun, hbegun⟩ := Schedulers.begun_of_call_eq_some hcall
  rw [← hleases] at hfree
  rw [hbegun, runTask, LeaseTable.acquire?_of_not_isHeld hfree]
  simp only [hleases, hrun, Schedulers.finish, map_eq_pure_bind]
  -- the work leaves the leases as it found them
  rw [← execute_leases]
  simp

end Cache

namespace Schedulers

/-- However the calls and the returns of schedulers with common leases are mixed, and however
long their runs take, a run begins while another of its task is under way only if that one has
outlived its lease, so that at any time one run of each task is under its lease at most.
A call is refused because of a run of its task, and then it reads nothing, sends nothing and
changes nothing.  A run that has returned, with success or without, leaves no lease behind, and
if it has returned in time, its task is free. -/
theorem Reached.apart_under_leases {m : Type → Type} [Monad m] [LawfulMonad m] (src : Source m)
    (policy : ReadPolicy) {s : Schedulers} {now : Int} (h : Reached s now) :
    (∀ task duration looked now' run, now ≤ now' → looked ≤ now' →
      (s.call task duration looked).1 = some run →
      ∀ other ∈ s.running, other.task = task → other.expiry ≤ now') ∧
    (∀ a ∈ s.running, ∀ b ∈ s.running, a.task = b.task → a ≠ b →
      a.expiry ≤ now ∨ b.expiry ≤ now) ∧
    (∀ task duration looked, now ≤ looked → ((s.call task duration looked).1 = none ↔
      ∃ run ∈ s.running, run.task = task ∧ looked < run.expiry)) ∧
    (∀ task duration looked, (s.call task duration looked).1 = none →
      (∃ run ∈ s.running, run.task = task ∧ looked < run.expiry) ∧
      (s.call task duration looked).2 = s ∧
      ∀ c : Cache, c.leases = s.leases →
        c.runTask src policy task duration looked = pure (.ok false, c)) ∧
    (∀ task duration looked run, (s.call task duration looked).1 = some run →
      ∀ c : Cache, c.leases = s.leases →
        c.runTask src policy task duration looked =
          (fun x => (x.1.map fun _ => true,
            { x.2 with leases := ((s.call task duration looked).2.finish run).leases })) <$>
          { c with leases := (s.call task duration looked).2.leases }.execute src policy task
            looked) ∧
    (∀ run ∈ s.running, (∀ x ∈ (s.finish run).leases.held, x.lease ≠ run.lease) ∧
      (now < run.expiry → ∀ looked,
        ¬ (s.finish run).leases.isHeld (taskLock run.task.name) looked = true)) ∧
    ∀ run ∈ s.returned, ∀ x ∈ s.leases.held, x.lease ≠ run.lease := by
  have hs := h.orderly
  refine ⟨?_, fun a ha b hb => hs.apart ha hb, ?_, ?_, ?_, ?_, fun run => hs.lease_ne_of_returned⟩
  · intro task duration looked now' run later seen hcall other hother htask
    have hfree := (begun_of_call_eq_some hcall).1
    exact (hs.expiry_le hfree hother htask).elim (Int.le_trans · seen) (Int.le_trans · later)
  · intro task duration looked later
    constructor
    · intro hcall
      exact hs.of_refused (refused_of_call_eq_none hcall).1
    · rintro ⟨run, hrun, htask, hrunning⟩
      cases hcall : (s.call task duration looked).1 with
      | none => rfl
      | some begun =>
          have hfree := (begun_of_call_eq_some hcall).1
          have hover := (hs.expiry_le hfree hrun htask).elim id (Int.le_trans · later)
          exact absurd hrunning (Int.not_lt.2 hover)
  · intro task duration looked hcall
    obtain ⟨hheld, hnone⟩ := refused_of_call_eq_none hcall
    exact ⟨hs.of_refused hheld, by rw [hnone],
      fun c hleases => c.runTask_of_refused src policy hleases hcall⟩
  · intro task duration looked run hcall c hleases
    exact c.runTask_of_begun src policy hleases hcall
  · intro run hrun
    refine ⟨fun x hx => (LeaseTable.mem_held_release.1 hx).2, fun hrunning => ?_⟩
    have hheld := (hs.standing run hrun).resolve_right (Int.not_le.2 hrunning)
    exact hs.not_isHeld_finish hrun hheld

/-- Two schedulers call for one task a minute apart, under leases of a minute each, while the
first run takes longer than that. -/
def longRun : Schedulers :=
  let first := (({} : Schedulers).call (.refresh .pairInfo) 60000000000 0).2
  (first.call (.refresh .pairInfo) 60000000000 60000000000).2

theorem reached_longRun : Reached longRun 60000000000 := by
  have hfirst := (Reached.idle 0).call (.refresh .pairInfo) 60000000000 0 0 (by decide) (by decide)
  exact hfirst.call (.refresh .pairInfo) 60000000000 60000000000 60000000000 (by decide) (by decide)

/-- Both runs are under way at once. -/
theorem longRun_overlaps :
    Reached longRun 60000000000 ∧
      longRun.running.map TaskRun.task = [.refresh .pairInfo, .refresh .pairInfo] ∧
      longRun.returned = [] :=
  ⟨reached_longRun, by decide, by decide⟩

/-- Half a minute later the lease of the second run refuses a third one. -/
theorem apart_under_leases_longRun :
    Reached longRun 60000000000 ∧
      let cache : Cache :=
        { store := .empty {} {}, bus := .ofCapacity 1, leases := longRun.leases }
      cache.runTask TableSource.source ⟨0, 1⟩ (.refresh .pairInfo) 60000000000 90000000000 =
        pure (.ok false, cache) := by
  obtain ⟨-, -, -, hrefused, -⟩ := reached_longRun.apart_under_leases TableSource.source ⟨0, 1⟩
  refine ⟨reached_longRun, ?_⟩
  exact (hrefused (.refresh .pairInfo) 60000000000 90000000000 (by decide)).2.2 _ rfl

end Schedulers

end DexCache
