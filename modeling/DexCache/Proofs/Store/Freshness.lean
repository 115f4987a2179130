import DexCache.Proofs.Readiness
import DexCache.Proofs.Store.Determined

/-!
# Who is fresh

A collection answers three questions about freshness: is one entity fresh for some groups, which
entities are not, and are all of them.  The three go together for every collection that its writes
have made, and the writes say who is fresh: each of the groups was written since the entity was last
taken out, and not too long ago.

A group without a threshold has no time to stay fresh.  Its last write still counts at the very
moment of the write and, where the time of the write lies ahead, until then; after that moment no
set of groups that has this group among it is fresh.
-/

namespace DexCache

/-- Does a write of a group at one time still count at another?  Without a threshold it counts up to
the moment of the write. -/
def Thresholds.Counts {G : Type} [DecidableEq G] (t : Thresholds G) (g : G) (time now : Int) :
    Prop :=
  match t.explicit? g with
  | some age => now ≤ time + age
  | none => now ≤ time

theorem Thresholds.counts_iff {G : Type} [DecidableEq G] {t : Thresholds G} {g : G}
    {time now : Int} : t.Counts g time now ↔ now - time ≤ t.of g := by
  unfold Counts of
  cases t.explicit? g with
  | none =>
      rw [Option.getD_none]
      omega
  | some age =>
      rw [Option.getD_some]
      omega

variable {α G P : Type} [DecidableEq G] [FieldGroup G] [Entity α G P]

/-- Were all writes of a group of an identifier, since it was last taken out, over before a time? -/
def Write.Past (name : String) (g : G) (writes : List (Write α P)) (now : Int) : Prop :=
  ∀ time, Write.last? name g writes = some time → time < now

namespace Collection

variable {c : Collection α G} {name : String} {groups : List G} {now : Int}

/-! ### One question and three answers -/

theorem isFresh_iff : c.isFresh name groups now = true ↔
    name ∈ c.ids ∧ ∀ g ∈ groups, ∃ time, c.lastUpdate? name g = some time ∧
      now - time ≤ c.thresholds.of g := by
  rw [isFresh, mem_ids_iff]
  cases hfind : c.find? name with
  | none => simp
  | some e => simp [entryFresh, groupFresh_iff, lastUpdate?, hfind]

/-- Who is fresh for some groups is fresh for fewer. -/
theorem isFresh_of_mem {g : G} (h : c.isFresh name groups now = true) (hg : g ∈ groups) :
    c.isFresh name [g] now = true := by
  rw [isFresh_iff] at h ⊢
  exact ⟨h.1, fun other hother => h.2 other (List.mem_singleton.1 hother ▸ hg)⟩

theorem isFresh_of_entry (h : c.ids.Nodup) {e : Stored α G} (he : e ∈ c.entries) :
    c.isFresh (Entity.id e.snapshot) groups now = c.entryFresh groups now e := by
  rw [isFresh, find?_of_mem h he, Option.any_some]

/-- The answers about one entity, about the stale ones and about all go together. -/
structure Consistent (c : Collection α G) (groups : List G) (now : Int) : Prop where
  stale : c.staleIds groups now = c.ids.filter fun name => !c.isFresh name groups now
  all : c.allFresh groups now = true ↔ ∀ name ∈ c.ids, c.isFresh name groups now = true
  none_stale : c.allFresh groups now = true ↔ c.staleIds groups now = []

theorem consistent_of_nodup (h : c.ids.Nodup) (groups : List G) (now : Int) :
    c.Consistent groups now where
  stale := by
    rw [staleIds, ids, List.filter_map]
    refine congrArg _ (List.filter_congr fun e he => ?_)
    rw [Function.comp_apply, isFresh_of_entry h he]
  all := by
    rw [allFresh, List.all_eq_true, ids, List.forall_mem_map]
    exact forall₂_congr fun e he => by rw [isFresh_of_entry h he]
  none_stale := by rw [← staleIds_isEmpty, List.isEmpty_iff]

/-! ### Groups without a threshold -/

section Unthresholded

variable {t : Thresholds G} {writes : List (Write α P)} {g : G}

/-- Freshness is a matter of the writes. -/
theorem isFresh_ofHistory_iff : (ofHistory t writes).isFresh name groups now = true ↔
    name ∈ (ofHistory t writes).ids ∧ ∀ g ∈ groups, ∃ time, Write.last? name g writes = some time ∧
      t.Counts g time now := by
  simp only [isFresh_iff, lastUpdate?_ofHistory, thresholds_ofHistory, Thresholds.counts_iff]

/-- With a group without a threshold alone, an entity is fresh until its writes are past. -/
theorem isFresh_singleton_iff (hg : t.explicit? g = none) :
    (ofHistory t writes).isFresh name [g] now = true ↔ ¬ Write.Past name g writes now := by
  have hcounts (time : Int) : t.Counts g time now ↔ now ≤ time := by
    rw [Thresholds.Counts, hg]
  simp only [isFresh_ofHistory_iff, List.forall_mem_singleton, hcounts, Write.Past, not_forall,
    Int.not_lt, exists_prop]
  constructor
  · exact And.right
  · rintro ⟨time, hlast, hnow⟩
    have hstored : name ∈ (ofHistory t writes).ids :=
      mem_ids_of_lastUpdate? ((lastUpdate?_ofHistory t writes name g).trans hlast)
    exact ⟨hstored, time, hlast, hnow⟩

/-- Never to be fresh for groups with one among them that has no threshold. -/
theorem forall_isFresh_eq_false_iff (hg : t.explicit? g = none) :
    (∀ groups, g ∈ groups → (ofHistory t writes).isFresh name groups now = false) ↔
      Write.Past name g writes now := by
  rw [← not_iff_not, ← isFresh_singleton_iff hg]
  constructor
  · intro h
    obtain ⟨groups, hmem, hfresh⟩ : ∃ groups, g ∈ groups ∧
        (ofHistory t writes).isFresh name groups now = true := by
      simpa using h
    exact isFresh_of_mem hfresh hmem
  · intro hfresh h
    rw [h [g] (List.mem_singleton_self g)] at hfresh
    cases hfresh

/-- The three answers go together for all groups, and an entity is fresh for some exactly if each of
them has a last write that still counts.  So where one of the groups has no threshold, an entity is
stale whatever the other groups are exactly if its writes of this group are past; not everything is
fresh exactly if that is so of some entity, and everything is stale exactly if it is so of all. -/
theorem never_fresh_without_threshold_iff (t : Thresholds G) (writes : List (Write α P))
    (now : Int) :
    let c := ofHistory t writes
    (∀ groups, c.Consistent groups now) ∧
      (∀ groups name, c.isFresh name groups now = true ↔
        name ∈ c.ids ∧ ∀ g ∈ groups, ∃ time, Write.last? name g writes = some time ∧
          t.Counts g time now) ∧
      ∀ g, t.explicit? g = none →
        (∀ name, (∀ groups, g ∈ groups → c.isFresh name groups now = false) ↔
          Write.Past name g writes now) ∧
        ((∀ groups, g ∈ groups → c.allFresh groups now = false) ↔
          ∃ name ∈ c.ids, Write.Past name g writes now) ∧
        ((∀ groups, g ∈ groups → c.staleIds groups now = c.ids) ↔
          ∀ name ∈ c.ids, Write.Past name g writes now) := by
  intro c
  have hconsistent (groups : List G) : c.Consistent groups now :=
    consistent_of_nodup (nodup_ids_ofHistory t writes) groups now
  refine ⟨hconsistent, fun groups name => isFresh_ofHistory_iff, fun g hg =>
    ⟨fun name => forall_isFresh_eq_false_iff hg, ?_, ?_⟩⟩
  -- the group alone decides, since whatever else is asked for only makes more stale
  · constructor
    · intro h
      by_contra hnone
      push Not at hnone
      have hall := (hconsistent [g]).all.2 fun name hname =>
        (isFresh_singleton_iff hg).2 (hnone name hname)
      rw [h [g] (List.mem_singleton_self g)] at hall
      cases hall
    · rintro ⟨name, hname, hpast⟩ groups hmem
      rw [Bool.eq_false_iff]
      intro hall
      have hfresh := (hconsistent groups).all.1 hall name hname
      rw [(forall_isFresh_eq_false_iff hg).2 hpast groups hmem] at hfresh
      cases hfresh
  · simp only [(hconsistent _).stale, List.filter_eq_self, Bool.not_eq_true']
    constructor
    · intro h name hname
      by_contra hpast
      have hfresh := (isFresh_singleton_iff hg).2 hpast
      rw [h [g] (List.mem_singleton_self g) name hname] at hfresh
      cases hfresh
    · intro h groups hmem name hname
      exact (forall_isFresh_eq_false_iff hg).2 (h name hname) groups hmem

/-- At the moment of its write a token is fresh for its prices, which have no threshold; a moment
later it is stale for every set of groups with the prices among them. -/
theorem never_fresh_without_threshold_iff_atWrite :
    let t : Thresholds TokenGroup := ⟨[(.metadata, 30)]⟩
    let c : Collection Token TokenGroup := ofHistory t [.put { identifier := "T-1" } 5]
    t.explicit? .prices = none ∧
      c.isFresh "T-1" [.metadata, .prices] 5 = true ∧
      ¬ (∀ groups, .prices ∈ groups → c.isFresh "T-1" groups 5 = false) ∧
      ∀ groups, .prices ∈ groups →
        c.isFresh "T-1" groups 6 = false ∧ c.allFresh groups 6 = false ∧
          c.staleIds groups 6 = c.ids := by
  intro t c
  have hnone : t.explicit? .prices = none := by decide
  obtain ⟨-, -, hthen⟩ := never_fresh_without_threshold_iff t
    ([.put { identifier := "T-1" } 5] : List (Write Token TokenPatch)) 5
  obtain ⟨-, -, hlater⟩ := never_fresh_without_threshold_iff t
    ([.put { identifier := "T-1" } 5] : List (Write Token TokenPatch)) 6
  obtain ⟨hone, hall, hstale⟩ := hlater .prices hnone
  have hpast : Write.Past "T-1" TokenGroup.prices
      ([.put { identifier := "T-1" } 5] : List (Write Token TokenPatch)) 6 := by
    intro time htime
    cases htime
    decide
  have hids : c.ids = ["T-1"] := by decide
  refine ⟨hnone, by decide, fun hnever => ?_, fun groups hmem => ⟨?_, ?_, ?_⟩⟩
  · exact absurd (((hthen .prices hnone).1 "T-1").1 hnever 5 (by decide)) (by decide)
  · exact (hone "T-1").2 hpast groups hmem
  · exact hall.2 ⟨"T-1", by decide, hpast⟩ groups hmem
  · refine hstale.2 (fun name hname => ?_) groups hmem
    rw [hids, List.mem_singleton] at hname
    exact hname ▸ hpast

end Unthresholded

end Collection

end DexCache
