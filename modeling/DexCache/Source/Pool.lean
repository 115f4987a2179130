/-!
# Jobs side by side

Many reads run at once, but only so many at a time.  A job gets turns: each either
finishes it or leaves it waiting, and waiting jobs go on when no other job can.  The
result is the list of what finished, in the order of finishing.

A pool works off its jobs in one of two ways.  It either gives out each result as it
comes, and a new job starts whenever another has finished; or it gives out results in the
order of the jobs, and a job starts only when it is close enough to the first unfinished
one.
-/

namespace DexCache

/-- What a turn makes of a job: each turn brings it closer to its end. -/
inductive Turn (σ α : Type) (cost : σ → Nat) (before : σ) where
  | finished (result : α)
  | waiting (job : σ) (closer : cost job < cost before)

/-- The way in which a pool gives out results. -/
inductive PoolOrder where
  | asFinished
  | asStarted
deriving DecidableEq, Repr, Inhabited

/-- Numbered jobs: those not started, those that can go on, and those that wait. -/
structure Pool (σ : Type) where
  width : Nat
  order : PoolOrder
  todo : List (Nat × σ)
  ready : List (Nat × σ) := []
  waiting : List (Nat × σ) := []

namespace Pool

/-- A pool for a list of jobs; at least one runs at a time. -/
def ofJobs (width : Nat) (order : PoolOrder) (jobs : List σ) : Pool σ where
  width := max width 1
  order := order
  todo := jobs.mapIdx fun i job => (i, job)

/-- How many of the jobs that were not started may start now. -/
def room (p : Pool σ) : Nat :=
  let running := p.ready ++ p.waiting
  match p.order with
  | .asFinished => p.width - running.length
  | .asStarted =>
    match (running ++ p.todo).map Prod.fst |>.min? with
    | none => 0
    | some first => (p.todo.takeWhile fun job => job.1 < first + p.width).length

/-- Starts as many jobs as may start. -/
def start (p : Pool σ) : Pool σ :=
  { p with todo := p.todo.drop p.room, ready := p.ready ++ p.todo.take p.room }

/-- Lets the waiting jobs go on if nothing else can. -/
def wake (p : Pool σ) : Pool σ :=
  if p.ready.isEmpty then { p with ready := p.waiting, waiting := [] } else p

/-- The job whose turn it is, and the others. -/
def next? (p : Pool σ) : Option ((Nat × σ) × Pool σ) :=
  match p.start.wake.ready with
  | [] => none
  | job :: rest => some (job, { p.start.wake with ready := rest })

/-- Leaves a job waiting. -/
def wait (p : Pool σ) (job : Nat × σ) : Pool σ :=
  { p with waiting := p.waiting ++ [job] }

/-- How many turns a list of jobs can still take. -/
def listCost (cost : σ → Nat) : List (Nat × σ) → Nat
  | [] => 0
  | job :: jobs => cost job.2 + 1 + listCost cost jobs

/-- How many turns the jobs can still take. -/
def turnsLeft (cost : σ → Nat) (p : Pool σ) : Nat :=
  listCost cost p.todo + listCost cost p.ready + listCost cost p.waiting

@[simp] theorem listCost_nil (cost : σ → Nat) : listCost cost [] = 0 := rfl

@[simp] theorem listCost_cons (cost : σ → Nat) (job : Nat × σ) (jobs : List (Nat × σ)) :
    listCost cost (job :: jobs) = cost job.2 + 1 + listCost cost jobs := rfl

@[simp] theorem listCost_append (cost : σ → Nat) (xs ys : List (Nat × σ)) :
    listCost cost (xs ++ ys) = listCost cost xs + listCost cost ys := by
  induction xs with
  | nil => simp
  | cons x xs ih =>
    simp only [List.cons_append, listCost_cons, ih]
    omega

theorem turnsLeft_start (cost : σ → Nat) (p : Pool σ) :
    p.start.turnsLeft cost = p.turnsLeft cost := by
  have split := congrArg (listCost cost) (List.take_append_drop p.room p.todo)
  simp only [listCost_append] at split
  simp only [turnsLeft, start, listCost_append]
  omega

theorem turnsLeft_wake (cost : σ → Nat) (p : Pool σ) :
    p.wake.turnsLeft cost = p.turnsLeft cost := by
  unfold wake
  split
  · next h => simp_all [turnsLeft]
  · rfl

theorem turnsLeft_next? (cost : σ → Nat) {p rest : Pool σ} {job : Nat × σ}
    (h : p.next? = some (job, rest)) :
    rest.turnsLeft cost + (cost job.2 + 1) = p.turnsLeft cost := by
  unfold next? at h
  split at h
  · cases h
  · next hr =>
    cases h
    rw [← turnsLeft_start cost p, ← turnsLeft_wake cost p.start]
    simp only [turnsLeft, hr, listCost_cons]
    omega

theorem turnsLeft_wait (cost : σ → Nat) (p : Pool σ) (job : Nat × σ) :
    (p.wait job).turnsLeft cost = p.turnsLeft cost + (cost job.2 + 1) := by
  simp [turnsLeft, wait]
  omega

/-- Works off the jobs.  Work ends early with a result that says `stop`. -/
def run [Monad m] {cost : σ → Nat} (turn : (job : σ) → m (Turn σ α cost job))
    (stop : α → Bool) (p : Pool σ) : m (List (Nat × α)) :=
  match _taken : p.next? with
  | none => return []
  | some (job, rest) => do
    match ← turn job.2 with
    | .finished a =>
      if stop a then return [(job.1, a)] else return (job.1, a) :: (← run turn stop rest)
    | .waiting again _closer => run turn stop (rest.wait (job.1, again))
termination_by p.turnsLeft cost
decreasing_by
  · have := turnsLeft_next? cost _taken
    omega
  · have := turnsLeft_next? cost _taken
    have := turnsLeft_wait cost rest (job.1, again)
    simp only at this _closer
    omega

/-- The results in the order of the jobs. -/
def inOrder (results : List (Nat × α)) : List α :=
  (results.mergeSort fun a b => decide (a.1 ≤ b.1)).map Prod.snd

end Pool

end DexCache
