import DexCache.Proofs.Distinct
import DexCache.Store.Collection

/-!
# Write histories of a collection

A collection that starts empty is the outcome of its writes.  This module lists the writes
of a collection, the latest first, and reads off such a list, without running it, when a
group of an identifier was last written.  The main statements say that the stored write
times are exactly these, and that every snapshot is stored once, under its own identifier.

Nothing here depends on the kind of entity.
-/

namespace DexCache

/-- One write to a collection. -/
inductive Write (α P : Type) where
  | put (snapshot : α) (time : Int)
  | patch (name : String) (value : P) (time : Int)
  | remove (name : String)
  | clear
deriving DecidableEq, Repr

namespace Collection

section Entries

variable {α G P : Type} [FieldGroup G] [Entity α G P]

/-- The entry of an identifier among entries. -/
def entryOf (name : String) (entries : List (Stored α G)) : Option (Stored α G) :=
  entries.find? fun e => Entity.id e.snapshot = name

/-- Makes a way of writing an entry one under the same identifier? -/
def Keeps (name : String) (make : Option (Stored α G) → Stored α G) : Prop :=
  ∀ old : Option (Stored α G), (∀ e ∈ old, Entity.id e.snapshot = name) →
    Entity.id (make old).snapshot = name

/-- The entry that a write to an identifier leaves there. -/
theorem entryOf_write_self {name : String} {make : Option (Stored α G) → Stored α G}
    (hmake : Keeps name make) (entries : List (Stored α G)) :
    entryOf name (write name make entries) = some (make (entryOf name entries)) := by
  induction entries with
  | nil =>
      -- no entry is there, so the write makes one from nothing
      have hnew := hmake none (by simp)
      simp [write, entryOf, hnew]
  | cons e rest ih =>
      by_cases h : Entity.id e.snapshot = name
      · have hnew := hmake (some e) (by simpa using h)
        simp [write, entryOf, h, hnew]
      · simpa [write, entryOf, h] using ih

/-- A write to one identifier leaves every other entry alone. -/
theorem entryOf_write_of_ne {name other : String} {make : Option (Stored α G) → Stored α G}
    (hmake : Keeps name make) (ne : other ≠ name) (entries : List (Stored α G)) :
    entryOf other (write name make entries) = entryOf other entries := by
  induction entries with
  | nil =>
      have hnew := hmake none (by simp)
      simp [write, entryOf, hnew, ne.symm]
  | cons e rest ih =>
      by_cases h : Entity.id e.snapshot = name
      · have hnew := hmake (some e) (by simpa using h)
        simp [write, entryOf, h, hnew, ne.symm]
      · by_cases ho : Entity.id e.snapshot = other
        · rw [write, if_neg h]
          simp [entryOf, ho]
        · simpa [write, entryOf, h, ho] using ih

/-- A write keeps the order of the identifiers and adds a new one at the end. -/
theorem ids_write {name : String} {make : Option (Stored α G) → Stored α G}
    (hmake : Keeps name make) (entries : List (Stored α G)) :
    (write name make entries).map (fun e => Entity.id e.snapshot) =
      if name ∈ entries.map (fun e => Entity.id e.snapshot)
      then entries.map (fun e => Entity.id e.snapshot)
      else entries.map (fun e => Entity.id e.snapshot) ++ [name] := by
  induction entries with
  | nil => simpa [write] using hmake none (by simp)
  | cons e rest ih =>
      by_cases h : Entity.id e.snapshot = name
      · have hnew := hmake (some e) (by simpa using h)
        simp [write, h, hnew]
      · have hne : ¬ name = Entity.id e.snapshot := fun h' => h h'.symm
        by_cases hr : name ∈ rest.map (fun e => Entity.id e.snapshot)
        · simp only [write, h, if_false, List.map_cons, ih, hr, if_true, List.mem_cons, or_true]
        · simp only [write, h, if_false, List.map_cons, ih, hr, List.mem_cons, hne, or_self,
            List.cons_append]

theorem find?_remove_self (c : Collection α G) (name : String) :
    (c.remove name).find? name = none := by
  simp [find?, remove]

theorem find?_remove_of_ne (c : Collection α G) {name other : String} (ne : other ≠ name) :
    (c.remove name).find? other = c.find? other := by
  unfold find? remove
  rw [List.find?_filter]
  congr 1
  funext e
  by_cases h : Entity.id e.snapshot = other
  · simp [h, ne]
  · simp [h]

@[simp] theorem find?_clear (c : Collection α G) (name : String) : c.clear.find? name = none :=
  rfl

theorem keeps_put (snapshot : α) (time : Int) :
    Keeps (Entity.id snapshot) fun _ : Option (Stored α G) => ⟨snapshot, .all time⟩ :=
  fun _ _ => rfl

theorem find?_put_self (c : Collection α G) (snapshot : α) (time : Int) :
    (c.put snapshot time).find? (Entity.id snapshot) = some ⟨snapshot, .all time⟩ :=
  entryOf_write_self (keeps_put snapshot time) c.entries

theorem find?_put_of_ne (c : Collection α G) (snapshot : α) (time : Int) {name : String}
    (ne : name ≠ Entity.id snapshot) : (c.put snapshot time).find? name = c.find? name :=
  entryOf_write_of_ne (keeps_put snapshot time) ne c.entries

/-- Looking a stored entry up under its identifier finds it. -/
theorem find?_of_mem {c : Collection α G} (h : c.ids.Nodup) {e : Stored α G}
    (he : e ∈ c.entries) : c.find? (Entity.id e.snapshot) = some e :=
  (Distinct.find?_key_iff h).2 ⟨he, rfl⟩

end Entries

variable {α G P : Type} [DecidableEq G] [FieldGroup G] [Entity α G P]

/-- The entry that a patch makes of the one before. -/
def patched (name : String) (value : P) (time : Int) (old : Option (Stored α G)) : Stored α G :=
  ⟨Entity.applyPatch value (orEmpty name old).snapshot,
    (orEmpty name old).stamps.note (Entity.groupOf α value) time⟩

theorem keeps_patched (name : String) (value : P) (time : Int) :
    Keeps name (patched (α := α) name value time) := by
  intro old h
  unfold patched
  rw [Entity.id_applyPatch]
  cases old with
  | none => exact Entity.id_empty name
  | some e => exact h e rfl

theorem find?_patch_self (c : Collection α G) (name : String) (value : P) (time : Int) :
    (c.patch name value time).find? name = some (patched name value time (c.find? name)) :=
  entryOf_write_self (keeps_patched name value time) c.entries

theorem find?_patch_of_ne (c : Collection α G) {name other : String} (value : P) (time : Int)
    (ne : other ≠ name) : (c.patch name value time).find? other = c.find? other :=
  entryOf_write_of_ne (keeps_patched name value time) ne c.entries

/-- A collection after one write. -/
def apply (c : Collection α G) : Write α P → Collection α G
  | .put snapshot time => c.put snapshot time
  | .patch name value time => c.patch name value time
  | .remove name => c.remove name
  | .clear => c.clear

/-- The collection that writes have made of an empty one; the latest write comes first. -/
def ofHistory (t : Thresholds G) : List (Write α P) → Collection α G
  | [] => { thresholds := t }
  | w :: earlier => (ofHistory t earlier).apply w

@[simp] theorem thresholds_apply (c : Collection α G) (w : Write α P) :
    (c.apply w).thresholds = c.thresholds := by
  cases w <;> rfl

@[simp] theorem thresholds_ofHistory (t : Thresholds G) (writes : List (Write α P)) :
    (ofHistory t writes).thresholds = t := by
  induction writes with
  | nil => rfl
  | cons w earlier ih => rw [ofHistory, thresholds_apply, ih]

/-- A write never stores an identifier twice. -/
theorem nodup_ids_apply {c : Collection α G} (h : c.ids.Nodup) (w : Write α P) :
    (c.apply w).ids.Nodup := by
  -- both ways of writing leave the identifiers as they are or add a new one
  have hwrite {name : String} {make : Option (Stored α G) → Stored α G}
      (hmake : Keeps name make) :
      ((write name make c.entries).map fun e => Entity.id e.snapshot).Nodup := by
    rw [ids_write hmake]
    split
    · exact h
    · next hnew =>
        refine List.nodup_append.2 ⟨h, by simp, ?_⟩
        intro x hx y hy heq
        rw [List.mem_singleton] at hy
        exact hnew (hy ▸ heq ▸ hx)
  cases w with
  | put snapshot time => exact hwrite (keeps_put snapshot time)
  | patch name value time => exact hwrite (keeps_patched name value time)
  | remove name => exact h.sublist (List.filter_sublist.map _)
  | clear => exact List.nodup_nil

/-- Every snapshot is stored once, under its own identifier. -/
theorem nodup_ids_ofHistory (t : Thresholds G) (writes : List (Write α P)) :
    (ofHistory t writes).ids.Nodup := by
  induction writes with
  | nil => exact List.nodup_nil
  | cons w earlier ih => exact nodup_ids_apply ih w

end Collection

namespace Write

variable {α G P : Type} [DecidableEq G] [FieldGroup G] [Entity α G P]

/-- When a group of an identifier was last written since the identifier was last removed;
the latest write comes first. -/
def last? (name : String) (g : G) : List (Write α P) → Option Int
  | [] => none
  | .put snapshot time :: earlier =>
    if Entity.id snapshot = name then some time else last? name g earlier
  | .patch patched value time :: earlier =>
    if patched = name ∧ Entity.groupOf α value = g then some time else last? name g earlier
  | .remove removed :: earlier => if removed = name then none else last? name g earlier
  | .clear :: _ => none

end Write

namespace Collection

variable {α G P : Type} [DecidableEq G] [FieldGroup G] [Entity α G P]

/-- Removing an identifier that is read as empty afterwards loses no write time. -/
theorem at?_orEmpty (name : String) (g : G) (old : Option (Stored α G)) :
    (orEmpty name old).stamps.at? g = old.bind fun e => e.stamps.at? g := by
  cases old <;> rfl

/-- A patch notes the time of its own group. -/
theorem lastUpdate?_patch (c : Collection α G) (name other : String) (value : P) (time : Int)
    (g : G) :
    (c.patch name value time).lastUpdate? other g =
      if name = other ∧ Entity.groupOf α value = g then some time else c.lastUpdate? other g := by
  unfold lastUpdate?
  -- the patched entry keeps the times of its other groups
  by_cases hname : other = name
  · subst hname
    rw [find?_patch_self]
    by_cases hg : g = Entity.groupOf α value
    · subst hg
      simp [patched]
    · have hg' : ¬ Entity.groupOf α value = g := fun h => hg h.symm
      simp [patched, Stamps.at?_note_of_ne _ time hg, at?_orEmpty, hg']
  · rw [find?_patch_of_ne c value time hname]
    simp [Ne.symm hname]

/-- The stored write times are those of the history. -/
theorem lastUpdate?_ofHistory (t : Thresholds G) (writes : List (Write α P)) (name : String)
    (g : G) : (ofHistory t writes).lastUpdate? name g = Write.last? name g writes := by
  induction writes with
  | nil => rfl
  | cons w earlier ih =>
      cases w with
      | put snapshot time =>
          unfold lastUpdate? at ih ⊢
          by_cases hname : name = Entity.id snapshot
          · subst hname
            simp [ofHistory, apply, Write.last?, find?_put_self]
          · simp [ofHistory, apply, Write.last?, find?_put_of_ne _ snapshot time hname,
              Ne.symm hname, ih]
      | patch patched value time =>
          rw [ofHistory, apply, lastUpdate?_patch, ih, Write.last?]
      | remove removed =>
          unfold lastUpdate? at ih ⊢
          by_cases hname : name = removed
          · subst hname
            simp [ofHistory, apply, Write.last?, find?_remove_self]
          · simp [ofHistory, apply, Write.last?, find?_remove_of_ne _ hname, Ne.symm hname, ih]
      | clear => rfl

/-- An entry keeps the times at which its groups were last written. -/
theorem at?_of_mem_ofHistory {t : Thresholds G} {writes : List (Write α P)} {e : Stored α G}
    (he : e ∈ (ofHistory t writes).entries) (g : G) :
    e.stamps.at? g = Write.last? (Entity.id e.snapshot) g writes := by
  rw [← lastUpdate?_ofHistory t, lastUpdate?, find?_of_mem (nodup_ids_ofHistory t writes) he]
  rfl

omit [FieldGroup G] in
/-- A group of an entry is fresh if it was written and its age is within the threshold. -/
theorem groupFresh_iff {c : Collection α G} {e : Stored α G} {now : Int} {g : G} :
    c.groupFresh e now g = true ↔
      ∃ time, e.stamps.at? g = some time ∧ now - time ≤ c.thresholds.of g := by
  unfold groupFresh
  cases e.stamps.at? g <;> simp

omit [FieldGroup G] in
/-- Everything is fresh for some groups if each of them is fresh in each entry. -/
theorem allFresh_iff {c : Collection α G} {groups : List G} {now : Int} :
    c.allFresh groups now = true ↔
      ∀ e ∈ c.entries, ∀ g ∈ groups,
        ∃ time, e.stamps.at? g = some time ∧ now - time ≤ c.thresholds.of g := by
  simp only [allFresh, entryFresh, List.all_eq_true, groupFresh_iff]

end Collection

end DexCache
