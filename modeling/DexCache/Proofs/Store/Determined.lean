import DexCache.Proofs.Store.Parts
import DexCache.Proofs.Store.History

/-!
# A collection is what its writes say

What a collection holds can be read off the writes that it has seen, the latest first, without
running them.  An identifier counts only with the writes since it was last removed or everything
was cleared.  If there are any, it is stored, at the place that the first of them gave it, and
each of its groups has the value and the time of the last of them that touched the group.

The statements about one write say what it leaves alone; those about a run follow by induction
along the writes.
-/

namespace DexCache

namespace Write

section Writes

variable {α G P : Type} [FieldGroup G] [Entity α G P]

/-- Does a write store something under an identifier? -/
def touches (name : String) : Write α P → Bool
  | .put snapshot _ => decide (Entity.id snapshot = name)
  | .patch patched _ _ => decide (patched = name)
  | .remove _ => false
  | .clear => false

/-- Does a write take an identifier out? -/
def drops (name : String) : Write α P → Bool
  | .put _ _ => false
  | .patch _ _ _ => false
  | .remove removed => decide (removed = name)
  | .clear => true

/-- The writes since an identifier was last taken out. -/
def since (name : String) (writes : List (Write α P)) : List (Write α P) :=
  writes.takeWhile fun w => !w.drops name

/-- How many writes came before the first one that stored an identifier since it was last taken
out. -/
def first? (name : String) : List (Write α P) → Option Nat
  | [] => none
  | w :: earlier =>
    if w.drops name then none
    else if w.touches name then (first? name earlier).or (some earlier.length)
    else first? name earlier

theorem first?_lt {name : String} {writes : List (Write α P)} {n : Nat}
    (h : first? name writes = some n) : n < writes.length := by
  induction writes with
  | nil => cases h
  | cons w earlier ih =>
      rw [List.length_cons]
      unfold first? at h
      split at h
      · cases h
      · split at h
        · cases hfirst : first? name earlier with
          | none =>
              rw [hfirst, Option.none_or, Option.some.injEq] at h
              omega
          | some m =>
              rw [hfirst, Option.some_or] at h
              exact (ih (hfirst.trans h)).trans (Nat.lt_succ_self _)
        · exact (ih h).trans (Nat.lt_succ_self _)

/-- Who was stored before keeps the place. -/
theorem first?_cons_of_some {name : String} {w : Write α P} {earlier : List (Write α P)} {n : Nat}
    (h : first? name earlier = some n) (hdrops : w.drops name = false) :
    first? name (w :: earlier) = some n := by
  rw [first?, hdrops, h]
  simp

theorem drops_of_touches {name : String} {w : Write α P} (h : w.touches name = true)
    (other : String) : w.drops other = false := by
  cases w with
  | put _ _ => rfl
  | patch _ _ _ => rfl
  | remove _ => cases h
  | clear => cases h

/-- Who was not stored before gets the last place. -/
theorem first?_cons_of_none {name : String} {w : Write α P} {earlier : List (Write α P)}
    (h : first? name earlier = none) (htouches : w.touches name = true) :
    first? name (w :: earlier) = some earlier.length := by
  rw [first?, drops_of_touches htouches, htouches, h]
  simp

/-- Was one identifier stored before another? -/
def Before (writes : List (Write α P)) (a b : String) : Prop :=
  ∃ m n, first? a writes = some m ∧ first? b writes = some n ∧ m < n

theorem Before.cons {w : Write α P} {earlier : List (Write α P)} {a b : String}
    (h : Before earlier a b) (ha : w.drops a = false) (hb : w.drops b = false) :
    Before (w :: earlier) a b := by
  obtain ⟨m, n, hm, hn, hlt⟩ := h
  exact ⟨m, n, first?_cons_of_some hm ha, first?_cons_of_some hn hb, hlt⟩

end Writes

section Values

variable {α G P : Type} [DecidableEq G] [FieldGroup G] [Entity α G P] [Parted α G P]

/-- The value and the time that a write gives to a group of an identifier. -/
def value? (name : String) (g : G) : Write α P → Option (P × Int)
  | .put snapshot time =>
    if Entity.id snapshot = name then some (Parted.part g snapshot, time) else none
  | .patch patched value time =>
    if patched = name ∧ Entity.groupOf α value = g then some (value, time) else none
  | .remove _ => none
  | .clear => none

/-- The value and the time of the latest write to a group of an identifier since it was last
taken out. -/
def latest? (name : String) (g : G) (writes : List (Write α P)) : Option (P × Int) :=
  (since name writes).findSome? (value? name g)

theorem latest?_cons (name : String) (g : G) (w : Write α P) (earlier : List (Write α P)) :
    latest? name g (w :: earlier) =
      if w.drops name then none else (w.value? name g).or (latest? name g earlier) := by
  unfold latest? since
  rw [List.takeWhile_cons]
  cases w.drops name with
  | true => rfl
  | false =>
      simp only [Bool.not_false, if_true, List.findSome?_cons, Bool.false_eq_true, if_false]
      cases w.value? name g <;> rfl

/-- The time of the latest write to a group. -/
theorem last?_eq_latest? (name : String) (g : G) (writes : List (Write α P)) :
    last? name g writes = (latest? name g writes).map Prod.snd := by
  induction writes with
  | nil => rfl
  | cons w earlier ih =>
      rw [latest?_cons]
      cases w with
      | put snapshot time =>
          by_cases h : Entity.id snapshot = name <;> simp [last?, drops, value?, h, ih]
      | patch patched value time =>
          by_cases h : patched = name ∧ Entity.groupOf α value = g <;>
            simp [last?, drops, value?, h, ih]
      | remove removed => by_cases h : removed = name <;> simp [last?, drops, value?, h, ih]
      | clear => rfl

end Values

end Write

namespace Collection

variable {α G P : Type} [DecidableEq G] [FieldGroup G] [Entity α G P]

/-- The part of a group under an identifier; that of an empty entity if nothing is stored. -/
def part [Parted α G P] (c : Collection α G) (name : String) (g : G) : P :=
  Parted.part g ((c.get? name).getD (Entity.empty name : α))

/-- A write leaves what is stored under other identifiers. -/
theorem find?_apply_of_not {c : Collection α G} {w : Write α P} {name : String}
    (htouches : w.touches name = false) (hdrops : w.drops name = false) :
    (c.apply w).find? name = c.find? name := by
  cases w with
  | put snapshot time =>
      exact find?_put_of_ne c snapshot time fun h => by simp [Write.touches, h] at htouches
  | patch patched value time =>
      exact find?_patch_of_ne c value time fun h => by simp [Write.touches, h] at htouches
  | remove removed =>
      exact find?_remove_of_ne c fun h => by simp [Write.drops, h] at hdrops
  | clear => cases hdrops

theorem find?_apply_of_drops {c : Collection α G} {w : Write α P} {name : String}
    (h : w.drops name = true) : (c.apply w).find? name = none := by
  cases w with
  | put _ _ => cases h
  | patch _ _ _ => cases h
  | remove removed =>
      obtain rfl : removed = name := by simpa [Write.drops] using h
      exact find?_remove_self c removed
  | clear => rfl

/-- A write of an identifier keeps the order and adds a new one at the end. -/
theorem ids_apply_of_touches {c : Collection α G} {w : Write α P} {name : String}
    (h : w.touches name = true) :
    (c.apply w).ids = if name ∈ c.ids then c.ids else c.ids ++ [name] := by
  cases w with
  | put snapshot time =>
      obtain rfl : Entity.id snapshot = name := by simpa [Write.touches] using h
      exact ids_write (keeps_put snapshot time) c.entries
  | patch patched value time =>
      obtain rfl : patched = name := by simpa [Write.touches] using h
      exact ids_write (keeps_patched patched value time) c.entries
  | remove _ => cases h
  | clear => cases h

omit [DecidableEq G] in
theorem mem_ids_iff {c : Collection α G} {name : String} :
    name ∈ c.ids ↔ (c.find? name).isSome = true := by
  simp [ids, find?, List.find?_isSome]

/-- Only what is stored was ever written. -/
theorem mem_ids_of_lastUpdate? {c : Collection α G} {name : String} {g : G} {time : Int}
    (h : c.lastUpdate? name g = some time) : name ∈ c.ids := by
  obtain ⟨e, he, -⟩ := Option.bind_eq_some_iff.1 h
  exact mem_ids_iff.2 (Option.isSome_iff_exists.2 ⟨e, he⟩)

/-- What is stored is what was touched and not dropped since. -/
theorem mem_ids_ofHistory_iff (t : Thresholds G) (writes : List (Write α P)) (name : String) :
    name ∈ (ofHistory t writes).ids ↔ (Write.first? name writes).isSome = true := by
  induction writes with
  | nil => simp [ofHistory, ids, Write.first?]
  | cons w earlier ih =>
      rw [ofHistory]
      cases hdrops : w.drops name with
      | true =>
          rw [mem_ids_iff, find?_apply_of_drops hdrops, Write.first?, hdrops]
          rfl
      | false =>
          cases htouches : w.touches name with
          | false =>
              rw [mem_ids_iff, find?_apply_of_not htouches hdrops, ← mem_ids_iff, ih, Write.first?,
                hdrops, htouches]
              rfl
          | true =>
              have hfirst : (Write.first? name (w :: earlier)).isSome = true := by
                cases h : Write.first? name earlier with
                | none => rw [Write.first?_cons_of_none h htouches]; rfl
                | some n => rw [Write.first?_cons_of_some h hdrops]; rfl
              have hmem : name ∈ ((ofHistory t earlier).apply w).ids := by
                rw [ids_apply_of_touches htouches]
                split
                · assumption
                · simp
              exact iff_of_true hmem hfirst

/-- The identifiers stand in the order of their first writes. -/
theorem pairwise_ids_ofHistory (t : Thresholds G) (writes : List (Write α P)) :
    (ofHistory t writes).ids.Pairwise (Write.Before writes) := by
  induction writes with
  | nil => exact List.Pairwise.nil
  | cons w earlier ih =>
      -- who stays keeps the place
      have hkept {stay : List String} (hsub : stay.Sublist (ofHistory t earlier).ids)
          (hdrops : ∀ a ∈ stay, w.drops a = false) : stay.Pairwise (Write.Before (w :: earlier)) :=
        (ih.sublist hsub).imp_of_mem fun ha hb h => h.cons (hdrops _ ha) (hdrops _ hb)
      have htouched (name : String) (htouches : w.touches name = true) :
          ((ofHistory t earlier).apply w).ids.Pairwise (Write.Before (w :: earlier)) := by
        have hdrops (a : String) : w.drops a = false := Write.drops_of_touches htouches a
        have hold := hkept (.refl _) fun a _ => hdrops a
        rw [ids_apply_of_touches htouches]
        split
        · exact hold
        · next hnew =>
            refine List.pairwise_append.2 ⟨hold, List.pairwise_singleton _ _, fun a ha b hb => ?_⟩
            obtain rfl := List.mem_singleton.1 hb
            obtain ⟨m, hm⟩ := Option.isSome_iff_exists.1 ((mem_ids_ofHistory_iff t earlier a).1 ha)
            have hnone : Write.first? b earlier = none := by
              rw [mem_ids_ofHistory_iff] at hnew
              simpa using hnew
            exact ⟨m, earlier.length, Write.first?_cons_of_some hm (hdrops a),
              Write.first?_cons_of_none hnone htouches, Write.first?_lt hm⟩
      cases w with
      | put snapshot time => exact htouched (Entity.id snapshot) (by simp [Write.touches])
      | patch patched value time => exact htouched patched (by simp [Write.touches])
      | remove removed =>
          refine hkept (List.filter_sublist.map _) fun a ha => ?_
          obtain ⟨e, he, rfl⟩ := List.mem_map.1 ha
          have hne := of_decide_eq_true (List.mem_filter.1 he).2
          exact decide_eq_false (Ne.symm hne)
      | clear => exact List.Pairwise.nil

section Parts

variable [Parted α G P]

omit [DecidableEq G] in
theorem part_of_find? {c : Collection α G} {name : String} {e : Stored α G}
    (h : c.find? name = some e) (g : G) : c.part name g = Parted.part g e.snapshot := by
  rw [part, get?, h]
  rfl

omit [DecidableEq G] in
theorem part_congr {c c' : Collection α G} {name : String} (h : c.find? name = c'.find? name)
    (g : G) : c.part name g = c'.part name g := by
  rw [part, part, get?, get?, h]

/-- A write gives a group the value that it has for it. -/
theorem part_apply (c : Collection α G) (w : Write α P) (name : String) (g : G) :
    (c.apply w).part name g =
      if w.drops name then Parted.part g (Entity.empty name : α)
      else ((w.value? name g).map Prod.fst).getD (c.part name g) := by
  cases w with
  | put snapshot time =>
      by_cases h : Entity.id snapshot = name
      · subst h
        rw [apply, part_of_find? (find?_put_self c snapshot time)]
        simp [Write.drops, Write.value?]
      · rw [apply, part_congr (find?_put_of_ne c snapshot time (Ne.symm h))]
        simp [Write.drops, Write.value?, h]
  | patch patched value time =>
      by_cases h : patched = name
      · subst h
        rw [apply, part_of_find? (find?_patch_self c patched value time)]
        have hold :
            Parted.part g (orEmpty patched (c.find? patched)).snapshot = c.part patched g := by
          rw [part, get?]
          cases c.find? patched <;> rfl
        by_cases hg : g = Entity.groupOf α value
        · subst hg
          simp [Write.drops, Write.value?, Collection.patched, Parted.part_applyPatch_self]
        · have hg' : ¬ Entity.groupOf α value = g := fun h => hg h.symm
          simp [Write.drops, Write.value?, Collection.patched, hg', ← hold,
            Parted.part_applyPatch_of_ne value _ g hg]
      · rw [apply, part_congr (find?_patch_of_ne c value time (Ne.symm h))]
        simp [Write.drops, Write.value?, h]
  | remove removed =>
      by_cases h : removed = name
      · subst h
        simp [apply, part, get?, find?_remove_self, Write.drops]
      · rw [apply, part_congr (find?_remove_of_ne c (Ne.symm h))]
        simp [Write.drops, Write.value?, h]
  | clear => rfl

/-- Every group has the value of the latest write to it. -/
theorem part_ofHistory (t : Thresholds G) (writes : List (Write α P)) (name : String) (g : G) :
    (ofHistory t writes).part name g =
      ((Write.latest? name g writes).map Prod.fst).getD
        (Parted.part g (Entity.empty name : α)) := by
  induction writes with
  | nil => rfl
  | cons w earlier ih =>
      rw [ofHistory, part_apply, Write.latest?_cons]
      cases w.drops name with
      | true => rfl
      | false =>
          rw [ih]
          cases w.value? name g <;> rfl

/-- What a collection is after writes, read off these. -/
structure Determined (c : Collection α G) (writes : List (Write α P)) : Prop where
  nodup : c.ids.Nodup
  own : ∀ name a, c.get? name = some a → Entity.id a = name
  /-- Stored is what was touched since it was last taken out, in the order of the first touch. -/
  stored : ∀ name, name ∈ c.ids ↔ (Write.first? name writes).isSome = true
  order : c.ids.Pairwise (Write.Before writes)
  /-- Each group has the value and the time of the latest write that touched it. -/
  value : ∀ name a, c.get? name = some a → ∀ g, Parted.part g a =
    ((Write.latest? name g writes).map Prod.fst).getD (Parted.part g (Entity.empty name : α))
  time : ∀ name g, c.lastUpdate? name g = (Write.latest? name g writes).map Prod.snd

/-- What a write leaves as it is. -/
structure Contained (c : Collection α G) (w : Write α P) : Prop where
  /-- Nothing under other identifiers changes. -/
  others : ∀ name, w.touches name = false → w.drops name = false →
    (c.apply w).find? name = c.find? name
  /-- Overwriting keeps the place. -/
  place : ∀ name ∈ c.ids, w.touches name = true → (c.apply w).ids = c.ids
  /-- A patch changes neither the value nor the time of another group. -/
  groups : ∀ patched value time, w = .patch patched value time → ∀ g ≠ Entity.groupOf α value,
    (c.apply w).part patched g = c.part patched g ∧
      (c.apply w).lastUpdate? patched g = c.lastUpdate? patched g

theorem determined_ofHistory (t : Thresholds G) (writes : List (Write α P)) :
    Determined (ofHistory t writes) writes where
  nodup := nodup_ids_ofHistory t writes
  own name a h := by
    obtain ⟨e, he, rfl⟩ := Option.map_eq_some_iff.1 h
    simpa using List.find?_some he
  stored := mem_ids_ofHistory_iff t writes
  order := pairwise_ids_ofHistory t writes
  value name a h g := by
    rw [← part_ofHistory t, part, h]
    rfl
  time name g := by rw [lastUpdate?_ofHistory, Write.last?_eq_latest?]

theorem contained_apply (c : Collection α G) (w : Write α P) : Contained c w where
  others _ := find?_apply_of_not
  place name hmem htouches := by rw [ids_apply_of_touches htouches, if_pos hmem]
  groups := by
    rintro patched value time rfl g hg
    have hvalue : (Write.patch patched value time : Write α P).value? patched g = none :=
      if_neg fun h => hg h.2.symm
    constructor
    · rw [part_apply, hvalue]
      rfl
    · rw [apply, lastUpdate?_patch, if_neg fun h => hg h.2.symm]

end Parts

end Collection

/-- After every run of writes a collection of either kind is what its writes say, and the next
write changes only what it is about. -/
theorem Collection.determined :
    (∀ (t : Thresholds PairGroup) (writes : List (Write Pair PairPatch)),
      Determined (ofHistory t writes) writes ∧ ∀ w, Contained (ofHistory t writes) w) ∧
    (∀ (t : Thresholds TokenGroup) (writes : List (Write Token TokenPatch)),
      Determined (ofHistory t writes) writes ∧ ∀ w, Contained (ofHistory t writes) w) :=
  ⟨fun t writes => ⟨determined_ofHistory t writes, contained_apply _⟩,
    fun t writes => ⟨determined_ofHistory t writes, contained_apply _⟩⟩

/-- Who is patched after being removed comes back at the end. -/
example :
    (Collection.ofHistory {} [.patch "a" (.prices {}) 4, .remove "a", .put { identifier := "b" } 2,
      .put { identifier := "a" } 1] : Collection Token TokenGroup).ids = ["b", "a"] := by
  decide

end DexCache
