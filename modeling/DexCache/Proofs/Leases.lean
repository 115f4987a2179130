import DexCache.Lease
import DexCache.Proofs.Distinct

/-!
# Leases exclude each other

Holders ask for names and give leases back, each turn at the table being one move.  A holder
looks at the clock before its turn comes, so what it has seen may be out of date by
then.  The notes of a table, the latest first, tell what came of its moves, and the lease that
stands under a name is read off them without running the moves again.
-/

namespace DexCache

/-- What a holder does at the table. -/
inductive LeaseMove where
  /-- Asks for a name, for a time that starts when the clock was looked at. -/
  | acquire (name : String) (duration looked : Int)
  /-- Gives back a lease, whoever it was granted to. -/
  | release (lease : Lease)
deriving DecidableEq, Repr

namespace LeaseMove

/-- The name that a move is about. -/
def name : LeaseMove → String
  | acquire name _ _ => name
  | release lease => lease.name

/-- Was the clock looked at no later than now? -/
def LookedBy (now : Int) : LeaseMove → Prop
  | acquire _ _ looked => looked ≤ now
  | release _ => True

end LeaseMove

/-- What came of a move. -/
inductive LeaseNote where
  | granted (lease : Lease) (expiry time : Int)
  | refused (name : String)
  | released (lease : Lease)
deriving DecidableEq, Repr

namespace LeaseNote

/-- Does this note end what a lease gives? -/
def Ends (lease : Lease) : LeaseNote → Prop
  | granted other _ _ => other.name = lease.name
  | refused _ => False
  | released other => other = lease

/-- The lease that was granted. -/
def grant? : LeaseNote → Option Lease
  | granted lease _ _ => some lease
  | _ => none

end LeaseNote

/-- Is this lease, with this end, the last one granted of its name and not given back since? -/
inductive Lease.Current (lease : Lease) (expiry : Int) : List LeaseNote → Prop where
  | granted (time : Int) (earlier : List LeaseNote) :
      Current lease expiry (.granted lease expiry time :: earlier)
  | later {notes : List LeaseNote} (note : LeaseNote) (h : Current lease expiry notes)
      (stays : ¬ note.Ends lease) : Current lease expiry (note :: notes)

theorem Lease.current_cons_iff {lease : Lease} {expiry : Int} {note : LeaseNote}
    {notes : List LeaseNote} : lease.Current expiry (note :: notes) ↔
      (∃ time, note = .granted lease expiry time) ∨
        (lease.Current expiry notes ∧ ¬ note.Ends lease) := by
  constructor
  · intro h
    cases h with
    | granted time => exact .inl ⟨time, rfl⟩
    | later _ h stays => exact .inr ⟨h, stays⟩
  · rintro (⟨time, rfl⟩ | ⟨h, stays⟩)
    · exact .granted time notes
    · exact .later note h stays

namespace LeaseTable

/-- The table once a name has been granted. -/
def grant (t : LeaseTable) (name : String) (expiry : Int) : LeaseTable where
  held := ⟨⟨name, t.granted⟩, expiry⟩ :: t.held.filter fun h => h.lease.name ≠ name
  granted := t.granted + 1

theorem acquire?_of_isHeld {t : LeaseTable} {name : String} {duration now : Int}
    (h : t.isHeld name now = true) : t.acquire? name duration now = none := by
  simp [acquire?, h]

theorem acquire?_of_not_isHeld {t : LeaseTable} {name : String} {duration now : Int}
    (h : ¬ t.isHeld name now = true) :
    t.acquire? name duration now = some (⟨name, t.granted⟩, t.grant name (now + duration)) := by
  rw [acquire?, if_neg h]
  rfl

theorem acquire?_isSome_iff {t : LeaseTable} {name : String} {duration now : Int} :
    (t.acquire? name duration now).isSome = true ↔ ¬ t.isHeld name now = true := by
  by_cases h : t.isHeld name now = true
  · simp [acquire?_of_isHeld h, h]
  · simp [acquire?_of_not_isHeld h, h]

theorem mem_held_grant {t : LeaseTable} {name : String} {expiry : Int} {h : HeldLease} :
    h ∈ (t.grant name expiry).held ↔
      h = ⟨⟨name, t.granted⟩, expiry⟩ ∨ (h ∈ t.held ∧ h.lease.name ≠ name) := by
  simp [grant]

theorem mem_held_release {t : LeaseTable} {lease : Lease} {h : HeldLease} :
    h ∈ (t.release lease).held ↔ h ∈ t.held ∧ h.lease ≠ lease := by
  simp [release]

theorem release_eq_self {t : LeaseTable} {lease : Lease} (h : ∀ x ∈ t.held, x.lease ≠ lease) :
    t.release lease = t := by
  have hheld : (t.held.filter fun x => x.lease ≠ lease) = t.held :=
    List.filter_eq_self.2 fun x hx => by simpa using h x hx
  rw [release, hheld]

theorem find?_grant_of_ne (t : LeaseTable) {name other : String} (ne : other ≠ name)
    (expiry : Int) : (t.grant name expiry).find? other = t.find? other := by
  unfold find? grant
  rw [List.find?_cons_of_neg (by simpa using ne.symm), List.find?_filter]
  congr 1
  funext h
  by_cases hname : h.lease.name = other
  · simp [hname, ne]
  · simp [hname]

theorem find?_release_of_ne (t : LeaseTable) {lease : Lease} {other : String}
    (ne : other ≠ lease.name) : (t.release lease).find? other = t.find? other := by
  unfold find? release
  rw [List.find?_filter]
  congr 1
  funext h
  by_cases hname : h.lease.name = other
  · have hlease : h.lease ≠ lease := fun heq => ne (hname.symm.trans (congrArg Lease.name heq))
    simp [hname, hlease]
  · simp [hname]

/-- Does no name have two leases? -/
def OnePerName (t : LeaseTable) : Prop :=
  (t.held.map fun h => h.lease.name).Nodup

namespace OnePerName

variable {t : LeaseTable}

theorem empty : OnePerName {} :=
  List.nodup_nil

theorem grant (hone : t.OnePerName) (name : String) (expiry : Int) :
    (t.grant name expiry).OnePerName := by
  refine List.nodup_cons.2 ⟨by simp, ?_⟩
  exact hone.sublist (List.filter_sublist.map _)

theorem release (hone : t.OnePerName) (lease : Lease) : (t.release lease).OnePerName :=
  hone.sublist (List.filter_sublist.map _)

theorem find?_eq_some_iff (hone : t.OnePerName) {name : String} {h : HeldLease} :
    t.find? name = some h ↔ h ∈ t.held ∧ h.lease.name = name :=
  Distinct.find?_key_iff hone

theorem isHeld_iff (hone : t.OnePerName) {name : String} {now : Int} :
    t.isHeld name now = true ↔ ∃ h ∈ t.held, h.lease.name = name ∧ now < h.expiry := by
  simp only [isHeld, Option.any_eq_true, decide_eq_true_eq, hone.find?_eq_some_iff, and_assoc]

end OnePerName

/-- One turn at the table. -/
def move (t : LeaseTable) (now : Int) : LeaseMove → LeaseNote × LeaseTable
  | .acquire name duration looked =>
    match t.acquire? name duration looked with
    | none => (.refused name, t)
    | some (lease, t) => (.granted lease (looked + duration) now, t)
  | .release lease => (.released lease, t.release lease)

/-- What a turn can come to. -/
theorem move_cases (t : LeaseTable) (now : Int) (m : LeaseMove) :
    (∃ name duration looked, m = .acquire name duration looked ∧
      t.isHeld name looked = true ∧ t.move now m = (.refused name, t)) ∨
    (∃ name duration looked, m = .acquire name duration looked ∧
      ¬ t.isHeld name looked = true ∧
      t.move now m = (.granted ⟨name, t.granted⟩ (looked + duration) now,
        t.grant name (looked + duration))) ∨
    ∃ lease, m = .release lease ∧ t.move now m = (.released lease, t.release lease) := by
  cases m with
  | acquire name duration looked =>
      by_cases h : t.isHeld name looked = true
      · exact .inl ⟨name, duration, looked, rfl, h, by simp only [move, acquire?_of_isHeld h]⟩
      · exact .inr (.inl ⟨name, duration, looked, rfl, h,
          by simp only [move, acquire?_of_not_isHeld h]⟩)
  | release lease => exact .inr (.inr ⟨lease, rfl, rfl⟩)

/-- A lease that is granted is over when its time has passed since the clock was looked at. -/
theorem of_move_granted {t : LeaseTable} {name : String} {duration looked now expiry time : Int}
    {lease : Lease} (h : (t.move now (.acquire name duration looked)).1 =
      .granted lease expiry time) :
    lease.name = name ∧ expiry = looked + duration ∧ time = now := by
  by_cases hheld : t.isHeld name looked = true
  · simp [move, acquire?_of_isHeld hheld] at h
  · simp only [move, acquire?_of_not_isHeld hheld, LeaseNote.granted.injEq] at h
    obtain ⟨rfl, rfl, rfl⟩ := h
    exact ⟨rfl, rfl, rfl⟩

/-- A move leaves the other names alone. -/
theorem find?_move_of_ne (t : LeaseTable) (now : Int) {m : LeaseMove} {other : String}
    (ne : other ≠ m.name) : (t.move now m).2.find? other = t.find? other := by
  rcases t.move_cases now m with ⟨name, duration, looked, rfl, -, hmove⟩ |
    ⟨name, duration, looked, rfl, -, hmove⟩ | ⟨lease, rfl, hmove⟩
  · rw [hmove]
  · rw [hmove]
    exact t.find?_grant_of_ne ne _
  · rw [hmove]
    exact t.find?_release_of_ne ne

/-- A table that starts empty, what came of its moves, and the time of the last one.  The
clock does not go back. -/
inductive Reached : List LeaseNote → LeaseTable → Int → Prop where
  | empty (now : Int) : Reached [] {} now
  | move {notes : List LeaseNote} {t : LeaseTable} {earlier : Int} (h : Reached notes t earlier)
      (m : LeaseMove) (now : Int) (later : earlier ≤ now) (looked : m.LookedBy now) :
      Reached ((t.move now m).1 :: notes) (t.move now m).2 now

namespace Reached

variable {notes : List LeaseNote} {t : LeaseTable} {now : Int}

theorem onePerName (h : Reached notes t now) : t.OnePerName := by
  induction h with
  | empty => exact OnePerName.empty
  | @move notes t earlier h m now later looked ih =>
      rcases t.move_cases now m with ⟨name, duration, looked, -, -, hmove⟩ |
        ⟨name, duration, looked, -, -, hmove⟩ | ⟨lease, -, hmove⟩
      · rwa [hmove]
      · rw [hmove]
        exact ih.grant name _
      · rw [hmove]
        exact ih.release lease

/-- What stands in the table are the current leases. -/
theorem mem_held_iff (h : Reached notes t now) {lease : Lease} {expiry : Int} :
    ⟨lease, expiry⟩ ∈ t.held ↔ lease.Current expiry notes := by
  induction h with
  | empty =>
      constructor
      · intro hmem
        cases hmem
      · intro hcurrent
        cases hcurrent
  | @move notes t earlier h m now later looked ih =>
      rcases t.move_cases now m with ⟨name, duration, looked, -, -, hmove⟩ |
        ⟨name, duration, looked, -, -, hmove⟩ | ⟨other, -, hmove⟩
      · rw [hmove, ih, Lease.current_cons_iff]
        simp [LeaseNote.Ends]
      · rw [hmove, mem_held_grant, ih, Lease.current_cons_iff]
        have hnew : (⟨lease, expiry⟩ : HeldLease) = ⟨⟨name, t.granted⟩, looked + duration⟩ ↔
            ∃ time, LeaseNote.granted ⟨name, t.granted⟩ (looked + duration) now =
              .granted lease expiry time := by
          simp only [HeldLease.mk.injEq, LeaseNote.granted.injEq]
          constructor
          · rintro ⟨hlease, hexpiry⟩
            exact ⟨now, hlease.symm, hexpiry.symm, rfl⟩
          · rintro ⟨time, hlease, hexpiry, -⟩
            exact ⟨hlease.symm, hexpiry.symm⟩
        rw [hnew]
        simp only [LeaseNote.Ends, ne_comm]
      · rw [hmove, mem_held_release, ih, Lease.current_cons_iff]
        simp [LeaseNote.Ends, eq_comm]

theorem acquire?_isSome_iff (h : Reached notes t now) {name : String} {duration looked : Int} :
    (t.acquire? name duration looked).isSome = true ↔
      ∀ (lease : Lease) (expiry : Int), lease.Current expiry notes → lease.name = name →
        expiry ≤ looked := by
  rw [LeaseTable.acquire?_isSome_iff, h.onePerName.isHeld_iff]
  constructor
  · intro hfree lease expiry hcurrent hname
    by_contra hlate
    exact hfree ⟨⟨lease, expiry⟩, h.mem_held_iff.2 hcurrent, hname, Int.not_le.1 hlate⟩
  · rintro hover ⟨⟨lease, expiry⟩, hmem, hname, hlate⟩
    exact absurd (hover lease expiry (h.mem_held_iff.1 hmem) hname) (Int.not_le.2 hlate)

/-- What is granted is current from then on, unless it is given back or its time is over. -/
theorem current_or_over (h : Reached notes t now) {between earlier : List LeaseNote}
    {lease : Lease} {expiry time : Int}
    (hnotes : notes = between ++ .granted lease expiry time :: earlier)
    (hkept : .released lease ∉ between) : lease.Current expiry notes ∨ expiry ≤ now := by
  induction h generalizing between with
  | empty => simp at hnotes
  | @move notes t before h m now later looked ih =>
      cases between with
      | nil =>
          rw [hnotes]
          exact .inl (.granted time earlier)
      | cons note between =>
          obtain ⟨hnote, hrest⟩ := List.cons.inj hnotes
          rcases ih hrest fun hmem => hkept (List.mem_cons_of_mem _ hmem) with hcurrent | hover
          · by_cases hends : (t.move now m).1.Ends lease
            · -- only another holder can have ended it, who has seen that its time was over
              refine .inr ?_
              rcases t.move_cases now m with ⟨name, duration, seen, -, -, hmove⟩ |
                ⟨name, duration, seen, rfl, hfree, hmove⟩ | ⟨other, -, hmove⟩
              · rw [hmove] at hends
                exact hends.elim
              · rw [hmove] at hends
                have hover := h.acquire?_isSome_iff.1
                  (LeaseTable.acquire?_isSome_iff.2 hfree : (t.acquire? name duration seen).isSome)
                exact Int.le_trans (hover lease expiry hcurrent hends.symm) looked
              · rw [hmove] at hends hnote
                obtain rfl : other = lease := hends
                exact absurd (hnote ▸ List.mem_cons_self) hkept
            · exact .inl (.later _ hcurrent hends)
          · exact .inr (Int.le_trans hover later)

/-- The earlier notes are those of an earlier table. -/
theorem of_append (h : Reached notes t now) {later earlier : List LeaseNote}
    (hnotes : notes = later ++ earlier) : ∃ t' now', Reached earlier t' now' ∧ now' ≤ now := by
  induction h generalizing later with
  | empty now =>
      obtain ⟨rfl, rfl⟩ := List.append_eq_nil_iff.1 hnotes.symm
      exact ⟨{}, now, .empty now, Int.le_refl _⟩
  | @move notes t before h m now hlater looked ih =>
      cases later with
      | nil =>
          rw [List.nil_append] at hnotes
          exact ⟨_, now, hnotes ▸ h.move m now hlater looked, Int.le_refl _⟩
      | cons note later =>
          obtain ⟨-, hrest⟩ := List.cons.inj hnotes
          obtain ⟨t', now', hreached, hle⟩ := ih hrest
          exact ⟨t', now', hreached, Int.le_trans hle hlater⟩

/-- A name is granted at a time at which no lease of it runs any more. -/
theorem grant_inv {lease : Lease} {expiry time : Int}
    (h : Reached (.granted lease expiry time :: notes) t now) :
    ∃ t' before looked, Reached notes t' before ∧ before ≤ time ∧ looked ≤ time ∧
      ∀ (other : Lease) (expiry' : Int), other.Current expiry' notes → other.name = lease.name →
        expiry' ≤ looked := by
  generalize hall : LeaseNote.granted lease expiry time :: notes = all at h
  cases h with
  | empty => cases hall
  | @move notes' t' before h m now later looked =>
      obtain ⟨hnote, rfl⟩ := List.cons.inj hall
      rcases t'.move_cases now m with ⟨name, duration, seen, -, -, hmove⟩ |
        ⟨name, duration, seen, rfl, hfree, hmove⟩ | ⟨other, -, hmove⟩
      · simp [hmove] at hnote
      · rw [hmove] at hnote
        obtain ⟨rfl, rfl, rfl⟩ := LeaseNote.granted.inj hnote
        have hover := h.acquire?_isSome_iff.1
          (LeaseTable.acquire?_isSome_iff.2 hfree : (t'.acquire? name duration seen).isSome)
        exact ⟨t', before, seen, h, later, looked, hover⟩
      · simp [hmove] at hnote

/-- Giving back a lease that is not current changes nothing. -/
theorem release_eq_self (h : Reached notes t now) {lease : Lease}
    (hnot : ∀ expiry, ¬ lease.Current expiry notes) : t.release lease = t := by
  refine LeaseTable.release_eq_self fun x hx hlease => ?_
  obtain ⟨lease', expiry⟩ := x
  obtain rfl : lease' = lease := hlease
  exact hnot expiry (h.mem_held_iff.1 hx)

/-- Once its time is over, giving a lease back changes nothing for those who ask. -/
theorem isHeld_release (h : Reached notes t now) {lease : Lease} {expiry : Int}
    (hcurrent : lease.Current expiry notes) (name : String) {looked : Int}
    (hover : expiry ≤ looked) : (t.release lease).isHeld name looked = t.isHeld name looked := by
  have hone := h.onePerName
  rw [Bool.eq_iff_iff, (hone.release lease).isHeld_iff, hone.isHeld_iff]
  constructor
  · rintro ⟨x, hx, hname, hrunning⟩
    exact ⟨x, (mem_held_release.1 hx).1, hname, hrunning⟩
  · rintro ⟨x, hx, hname, hrunning⟩
    refine ⟨x, mem_held_release.2 ⟨hx, fun hlease => ?_⟩, hname, hrunning⟩
    have hsame : x = ⟨lease, expiry⟩ :=
      Distinct.eq_of_key hone hx (h.mem_held_iff.2 hcurrent) (congrArg Lease.name hlease)
    rw [hsame] at hrunning
    exact absurd hrunning (Int.not_lt.2 hover)

/-- No lease is granted twice. -/
theorem nodup_grants (h : Reached notes t now) :
    (∀ lease ∈ notes.filterMap LeaseNote.grant?, lease.grant < t.granted) ∧
      (notes.filterMap LeaseNote.grant?).Nodup := by
  induction h with
  | empty => simp
  | @move notes t before h m now later looked ih =>
      obtain ⟨hless, hnodup⟩ := ih
      rcases t.move_cases now m with ⟨name, duration, looked, -, -, hmove⟩ |
        ⟨name, duration, looked, -, -, hmove⟩ | ⟨lease, -, hmove⟩
      · rw [hmove]
        exact ⟨hless, hnodup⟩
      · rw [hmove]
        constructor
        · intro lease hlease
          rcases List.mem_cons.1 hlease with rfl | hlease
          · exact Nat.lt_succ_self _
          · exact Nat.lt_succ_of_lt (hless lease hlease)
        · refine List.nodup_cons.2 ⟨fun hmem => ?_, hnodup⟩
          exact Nat.lt_irrefl _ (hless _ hmem)
      · rw [hmove]
        exact ⟨hless, hnodup⟩

/-- Whoever moves in whatever order, a name that was granted is not granted again before the
time of its lease is over, unless that lease was given back.  The time of a lease starts when its
holder looked at the clock, and a name is granted exactly if no current lease of it runs then.
Giving back a lease that is not current, as one that another has replaced, changes nothing, and
giving back one that is over changes nothing for those who ask.  A move leaves all other names
alone, and every grant is a new one. -/
theorem exclusive (h : Reached notes t now) :
    (∀ (later between earlier : List LeaseNote) (lease lease' : Lease)
      (expiry time expiry' time' : Int),
      notes = later ++ .granted lease' expiry' time' ::
        (between ++ .granted lease expiry time :: earlier) →
      lease'.name = lease.name → .released lease ∉ between → expiry ≤ time') ∧
    (∀ name duration looked now' lease expiry time,
      (t.move now' (.acquire name duration looked)).1 = .granted lease expiry time →
      lease.name = name ∧ expiry = looked + duration ∧ time = now') ∧
    (∀ name duration looked, (t.acquire? name duration looked).isSome = true ↔
      ∀ (lease : Lease) (expiry : Int), lease.Current expiry notes → lease.name = name →
        expiry ≤ looked) ∧
    (∀ lease : Lease, (∀ expiry, ¬ lease.Current expiry notes) → t.release lease = t) ∧
    (∀ (lease : Lease) (expiry : Int), lease.Current expiry notes → ∀ name looked,
      expiry ≤ looked → (t.release lease).isHeld name looked = t.isHeld name looked) ∧
    (∀ (m : LeaseMove) (now' : Int) (other : String), other ≠ m.name →
      (t.move now' m).2.find? other = t.find? other ∧
      ∀ duration looked, ((t.move now' m).2.acquire? other duration looked).isSome =
        (t.acquire? other duration looked).isSome) ∧
    (notes.filterMap LeaseNote.grant?).Nodup := by
  refine ⟨?_, fun name duration looked now' lease expiry time => of_move_granted,
    fun name duration looked => h.acquire?_isSome_iff, fun lease => h.release_eq_self,
    fun lease expiry hcurrent name looked => h.isHeld_release hcurrent name, ?_,
    h.nodup_grants.2⟩
  · intro later between earlier lease lease' expiry time expiry' time' hnotes hname hkept
    obtain ⟨t', now', hgrant, -⟩ := h.of_append hnotes
    obtain ⟨t'', before, looked, hreached, hbefore, hlooked, hover⟩ := hgrant.grant_inv
    rcases hreached.current_or_over rfl hkept with hcurrent | hpast
    · exact Int.le_trans (hover lease expiry hcurrent hname.symm) hlooked
    · exact Int.le_trans hpast hbefore
  · intro m now' other ne
    have hfind := t.find?_move_of_ne now' ne
    refine ⟨hfind, fun duration looked => ?_⟩
    rw [Bool.eq_iff_iff, LeaseTable.acquire?_isSome_iff, LeaseTable.acquire?_isSome_iff, isHeld,
      isHeld, hfind]

end Reached

/-- A lease of 10 is over when the next one is granted, and is given back after that. -/
def lateRelease : List LeaseNote :=
  [.released ⟨"refresh:checkpoint", 0⟩, .granted ⟨"refresh:checkpoint", 1⟩ 40 10,
    .granted ⟨"refresh:checkpoint", 0⟩ 10 0]

/-- The late release does not take the name from its new holder. -/
theorem Reached.exclusive_lateRelease :
    ∃ t, Reached lateRelease t 12 ∧ t.release ⟨"refresh:checkpoint", 0⟩ = t ∧
      (t.acquire? "refresh:checkpoint" 10 39).isSome = false ∧
      (t.acquire? "refresh:checkpoint" 10 40).isSome = true := by
  have hfirst := (Reached.empty 0).move (.acquire "refresh:checkpoint" 10 0) 0
    (Int.le_refl _) (Int.le_refl _)
  have hsecond := hfirst.move (.acquire "refresh:checkpoint" 30 10) 10 (by decide)
    (Int.le_refl _)
  have hlate : Reached lateRelease _ 12 :=
    hsecond.move (.release ⟨"refresh:checkpoint", 0⟩) 12 (by decide) trivial
  obtain ⟨-, -, -, hstale, -⟩ := hlate.exclusive
  refine ⟨_, hlate, hstale _ fun expiry hcurrent => ?_, by decide, by decide⟩
  cases hcurrent with
  | later _ _ stays => exact stays rfl

end LeaseTable

end DexCache
