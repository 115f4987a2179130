/-!
# Leases

A lease gives its holder a name until it is released or its time is over.  Every grant
has a number of its own, so a holder whose lease has been taken over cannot release the
one that took its place.  Times are nanoseconds.
-/

namespace DexCache

/-- The proof of having been granted a name. -/
structure Lease where
  name : String
  grant : Nat
deriving DecidableEq, Repr, Inhabited

/-- A lease that was granted and not released, with the time at which it ends. -/
structure HeldLease where
  lease : Lease
  expiry : Int
deriving DecidableEq, Repr, Inhabited

/-- The latest lease of each name, and how many leases were ever granted. -/
structure LeaseTable where
  held : List HeldLease := []
  granted : Nat := 0
deriving DecidableEq, Repr, Inhabited

namespace LeaseTable

/-- The lease that stands under a name, over or not. -/
def find? (t : LeaseTable) (name : String) : Option HeldLease :=
  t.held.find? fun h => h.lease.name = name

/-- Is a lease of this name still running? -/
def isHeld (t : LeaseTable) (name : String) (now : Int) : Bool :=
  (t.find? name).any fun h => decide (now < h.expiry)

/-- Grants a name for a time, unless a lease of it is still running. -/
def acquire? (t : LeaseTable) (name : String) (duration now : Int) :
    Option (Lease × LeaseTable) :=
  if t.isHeld name now then none
  else
    let lease : Lease := ⟨name, t.granted⟩
    some (lease,
      { held := ⟨lease, now + duration⟩ :: t.held.filter fun h => h.lease.name ≠ name
        granted := t.granted + 1 })

/-- Takes back a lease; one that another has replaced is left alone. -/
def release (t : LeaseTable) (lease : Lease) : LeaseTable :=
  { t with held := t.held.filter fun h => h.lease ≠ lease }

end LeaseTable

end DexCache
