import DexCache.Store.Stamps

/-!
# Collections of snapshots

A collection keeps one snapshot per identifier, in the order of first writes, and with
each the last write of every group.  A write replaces a whole snapshot or one group of
it; overwriting keeps the place.
-/

namespace DexCache

/-- A stored snapshot with the write times of its groups. -/
structure Stored (α G : Type) where
  snapshot : α
  stamps : Stamps G
deriving DecidableEq, Repr

/-- The stored snapshots of one kind in order. -/
structure Collection (α G : Type) where
  thresholds : Thresholds G
  entries : List (Stored α G) := []
deriving Repr

namespace Collection

variable {α G P : Type} [DecidableEq G] [FieldGroup G] [Entity α G P]

/-- Replaces the entry of an identifier in its place, or adds it at the end. -/
def write (name : String) (make : Option (Stored α G) → Stored α G) :
    List (Stored α G) → List (Stored α G)
  | [] => [make none]
  | e :: rest =>
    if Entity.id e.snapshot = name then make (some e) :: rest else e :: write name make rest

/-- The entry of an identifier. -/
def find? (c : Collection α G) (name : String) : Option (Stored α G) :=
  c.entries.find? fun e => Entity.id e.snapshot = name

/-- The snapshot of an identifier. -/
def get? (c : Collection α G) (name : String) : Option α :=
  (c.find? name).map Stored.snapshot

/-- Is the identifier stored? -/
def contains (c : Collection α G) (name : String) : Bool :=
  (c.find? name).isSome

/-- All snapshots in order. -/
def all (c : Collection α G) : List α :=
  c.entries.map Stored.snapshot

/-- All identifiers in order. -/
def ids (c : Collection α G) : List String :=
  c.entries.map fun e => Entity.id e.snapshot

/-- How many snapshots there are. -/
def size (c : Collection α G) : Nat :=
  c.entries.length

/-- Stores a whole snapshot; every group counts as written. -/
def put (c : Collection α G) (snapshot : α) (now : Int) : Collection α G :=
  { c with entries := write (Entity.id snapshot) (fun _ => ⟨snapshot, .all now⟩) c.entries }

/-- The entry that a patch starts from. -/
def orEmpty (name : String) (e : Option (Stored α G)) : Stored α G :=
  e.getD ⟨Entity.empty name, {}⟩

/-- Overwrites one group of a snapshot, an empty one if the identifier is new. -/
def patch (c : Collection α G) (name : String) (p : P) (now : Int) : Collection α G :=
  { c with
    entries := write name (fun e =>
      let e := orEmpty name e
      ⟨Entity.applyPatch p e.snapshot, e.stamps.note (Entity.groupOf α p) now⟩) c.entries }

/-- Removes an identifier; the others keep their order. -/
def remove (c : Collection α G) (name : String) : Collection α G :=
  { c with entries := c.entries.filter fun e => Entity.id e.snapshot ≠ name }

/-- Removes everything. -/
def clear (c : Collection α G) : Collection α G :=
  { c with entries := [] }

/-- The last write of a group of an identifier. -/
def lastUpdate? (c : Collection α G) (name : String) (g : G) : Option Int :=
  (c.find? name).bind fun e => e.stamps.at? g

/-- Was the group of this entry written within its threshold? -/
def groupFresh (c : Collection α G) (e : Stored α G) (now : Int) (g : G) : Bool :=
  match e.stamps.at? g with
  | some time => decide (now - time ≤ c.thresholds.of g)
  | none => false

/-- Were all these groups of the entry written within their thresholds? -/
def entryFresh (c : Collection α G) (groups : List G) (now : Int) (e : Stored α G) : Bool :=
  groups.all (c.groupFresh e now)

/-- Is the identifier stored and fresh for the groups? -/
def isFresh (c : Collection α G) (name : String) (groups : List G) (now : Int) : Bool :=
  (c.find? name).any (c.entryFresh groups now)

/-- The identifiers that are not fresh for the groups. -/
def staleIds (c : Collection α G) (groups : List G) (now : Int) : List String :=
  (c.entries.filter fun e => !c.entryFresh groups now e).map fun e => Entity.id e.snapshot

/-- Is every stored entity fresh for the groups? -/
def allFresh (c : Collection α G) (groups : List G) (now : Int) : Bool :=
  c.entries.all (c.entryFresh groups now)

end Collection

end DexCache
