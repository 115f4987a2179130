import DexCache.Sync.Cache

/-!
# Schedulers that share their leases

Many schedulers may call for the tasks of a cache under one table of leases, and the work of a
task takes as long as it takes.  Here the calls of all of them are put into one system: a call
takes the lease of its task or is refused, and a run that has begun gives its lease back when it
returns.  What lies between the two is left open, so that other calls and returns may come there.
-/

namespace DexCache

/-- A run of a task under its lease. -/
structure TaskRun where
  task : Task
  lease : Lease
  /-- When the lease is over, whether or not the run has returned. -/
  expiry : Int
deriving DecidableEq, Repr

/-- The leases that schedulers share, the runs that are under way, and those that have returned. -/
structure Schedulers where
  leases : LeaseTable := {}
  running : List TaskRun := []
  returned : List TaskRun := []
deriving DecidableEq, Repr

namespace Schedulers

/-- A call for a task: its run begins, unless a lease of the task is still running. -/
def call (s : Schedulers) (task : Task) (duration looked : Int) : Option TaskRun × Schedulers :=
  match s.leases.acquire? (taskLock task.name) duration looked with
  | none => (none, s)
  | some (lease, leases) =>
    let run : TaskRun := ⟨task, lease, looked + duration⟩
    (some run, { s with leases, running := run :: s.running })

/-- The return of a run, however its task went. -/
def finish (s : Schedulers) (run : TaskRun) : Schedulers where
  leases := s.leases.release run.lease
  running := s.running.erase run
  returned := run :: s.returned

/-- The states that can come about, each with the time of the last move.  A scheduler looks at
the clock before its call comes to the table, and the clock does not go back. -/
inductive Reached : Schedulers → Int → Prop where
  | idle (now : Int) : Reached {} now
  | call {s : Schedulers} {earlier : Int} (h : Reached s earlier) (task : Task)
      (duration looked now : Int) (later : earlier ≤ now) (seen : looked ≤ now) :
      Reached (s.call task duration looked).2 now
  | finish {s : Schedulers} {earlier : Int} (h : Reached s earlier) (run : TaskRun)
      (underWay : run ∈ s.running) (now : Int) (later : earlier ≤ now) :
      Reached (s.finish run) now

end Schedulers

end DexCache
