import DexCache.Checkpoint
import DexCache.Proofs.Distinct
import Mathlib.Data.List.Induction

/-!
# The checkpoints that are kept

A store of checkpoints that starts empty is the outcome of what was saved to it.  This module
reads off the saves, without running them, which checkpoint is kept for a day: the first of
those with the day's greatest block.  So the store never goes back to an older block, and
writers with different blocks may come in any order.
-/

namespace DexCache

open Time (Date)

namespace Time.Date

theorem not_before_self (a : Date) : ¬ a.before a = true := by
  simp [before]

theorem before_trans {a b c : Date} (hab : a.before b = true) (hbc : b.before c = true) :
    a.before c = true := by
  simp only [before, decide_eq_true_eq] at hab hbc ⊢
  omega

/-- Of two days one is before the other. -/
theorem eq_of_not_before {a b : Date} (hab : ¬ a.before b = true) (hba : ¬ b.before a = true) :
    a = b := by
  obtain ⟨year, month, day⟩ := a
  obtain ⟨year', month', day'⟩ := b
  simp only [before, decide_eq_true_eq] at hab hba
  simp only [Date.mk.injEq]
  omega

end Time.Date

namespace CheckpointStore

/-- Does every checkpoint have a greater day than the one before it? -/
def Chronological (kept : List Checkpoint) : Prop :=
  kept.Pairwise fun c d => c.date.before d.date = true

theorem Chronological.nodup_dates {kept : List Checkpoint} (h : Chronological kept) :
    (kept.map Checkpoint.date).Nodup := by
  refine List.pairwise_map.2 (h.imp fun {c d} hcd heq => ?_)
  rw [heq] at hcd
  exact Date.not_before_self _ hcd

/-- In the order of days a search finds what is there. -/
theorem Chronological.find?_eq_some_iff {s : CheckpointStore} (h : Chronological s.kept)
    {date : Date} {c : Checkpoint} : s.find? date = some c ↔ c ∈ s.kept ∧ c.date = date :=
  Distinct.find?_key_iff h.nodup_dates

/-- What is found on each day determines a store. -/
theorem Chronological.ext {s t : CheckpointStore} (hs : Chronological s.kept)
    (ht : Chronological t.kept) (h : ∀ date, s.find? date = t.find? date) : s = t := by
  have hmem (c : Checkpoint) : c ∈ s.kept ↔ c ∈ t.kept := by
    have hs' : s.find? c.date = some c ↔ c ∈ s.kept ∧ c.date = c.date := hs.find?_eq_some_iff
    have ht' : t.find? c.date = some c ↔ c ∈ t.kept ∧ c.date = c.date := ht.find?_eq_some_iff
    rw [h c.date] at hs'
    simpa using hs'.symm.trans ht'
  have hperm : s.kept.Perm t.kept :=
    (List.perm_ext_iff_of_nodup hs.nodup_dates.of_map ht.nodup_dates.of_map).2 hmem
  have hkept : s.kept = t.kept :=
    List.Perm.eq_of_pairwise (fun c d _ _ hcd hdc =>
      absurd (Date.before_trans hcd hdc) (Date.not_before_self c.date)) hs ht hperm
  cases s
  cases t
  exact congrArg CheckpointStore.mk hkept

/-- In the order of days the last checkpoint is the one of the greatest day. -/
theorem Chronological.latest?_eq_some_iff {s : CheckpointStore} (h : Chronological s.kept)
    {c : Checkpoint} :
    s.latest? = some c ↔ c ∈ s.kept ∧ ∀ d ∈ s.kept, ¬ c.date.before d.date = true := by
  have hlast {x : Checkpoint} (hx : s.latest? = some x) :
      x ∈ s.kept ∧ ∀ d ∈ s.kept, ¬ x.date.before d.date = true := by
    obtain ⟨front, hkept⟩ := List.getLast?_eq_some_iff.1 hx
    rw [Chronological, hkept] at h
    rw [hkept]
    refine ⟨by simp, fun d hd hafter => ?_⟩
    rcases List.mem_append.1 hd with hd | hd
    · have hbefore := (List.pairwise_append.1 h).2.2 d hd x (by simp)
      exact Date.not_before_self _ (Date.before_trans hbefore hafter)
    · obtain rfl : d = x := by simpa using hd
      exact Date.not_before_self _ hafter
  constructor
  · exact hlast
  · rintro ⟨hmem, hgreatest⟩
    cases hfound : s.latest? with
    | none =>
        rw [List.getLast?_eq_none_iff.1 hfound] at hmem
        cases hmem
    | some x =>
        obtain ⟨hx, hxgreatest⟩ := hlast hfound
        have hdate := Date.eq_of_not_before (hxgreatest c hmem) (hgreatest x hx)
        exact congrArg some (Distinct.eq_of_key h.nodup_dates hx hmem hdate)

theorem mem_of_mem_place {c d : Checkpoint} {kept : List Checkpoint} (h : d ∈ place c kept) :
    d = c ∨ d ∈ kept := by
  induction kept with
  | nil => simpa [place] using h
  | cons e rest ih =>
      rw [place] at h
      split at h
      · simp only [List.mem_cons] at h ⊢
        tauto
      · split at h
        · simpa only [List.mem_cons] using h
        · simp only [List.mem_cons] at h ⊢
          tauto

theorem Chronological.place {kept : List Checkpoint} (h : Chronological kept) (c : Checkpoint) :
    Chronological (place c kept) := by
  induction kept with
  | nil => exact List.pairwise_singleton _ _
  | cons e rest ih =>
      obtain ⟨hhead, hrest⟩ := List.pairwise_cons.1 h
      rw [CheckpointStore.place]
      split
      · next hsame => exact List.pairwise_cons.2 ⟨hsame ▸ hhead, hrest⟩
      · next hne =>
          split
          · next hbefore =>
              refine List.pairwise_cons.2 ⟨fun d hd => ?_, h⟩
              rcases List.mem_cons.1 hd with rfl | hd
              · exact hbefore
              · exact Date.before_trans hbefore (hhead d hd)
          · next hnot =>
              refine List.pairwise_cons.2 ⟨fun d hd => ?_, ih hrest⟩
              rcases mem_of_mem_place hd with rfl | hd
              · by_contra hlate
                exact hne (Date.eq_of_not_before hlate hnot)
              · exact hhead d hd

/-- Only the checkpoint of its own day is replaced. -/
theorem find?_place (c : Checkpoint) (kept : List Checkpoint) (date : Date) :
    (place c kept).find? (fun d => d.date = date) =
      if c.date = date then some c else kept.find? fun d => d.date = date := by
  induction kept with
  | nil => by_cases h : c.date = date <;> simp [place, h]
  | cons e rest ih =>
      rw [place]
      split
      · next hsame => by_cases h : c.date = date <;> simp [h, hsame]
      · next hne =>
          split
          · by_cases h : c.date = date <;> simp [h]
          · by_cases he : e.date = date
            · have hc : ¬ c.date = date := fun h => hne (he.trans h.symm)
              simp [he, hc]
            · simp [he, ih]

/-- A save writes exactly if its day has no checkpoint of the same or a greater block. -/
theorem save_fst_eq_written_iff (s : CheckpointStore) (c : Checkpoint) :
    (s.save c).1 = .written ↔ ∀ kept ∈ s.find? c.date, kept.blockNonce < c.blockNonce := by
  unfold save
  cases s.find? c.date with
  | none => simp
  | some kept =>
      by_cases hle : c.blockNonce ≤ kept.blockNonce
      · simp [hle, UInt64.not_lt.2 hle]
      · simp [hle, UInt64.not_le.1 hle]

/-- A discarded checkpoint leaves the store as it is. -/
theorem save_snd_of_discarded {s : CheckpointStore} {c : Checkpoint}
    (h : (s.save c).1 = .discarded) : (s.save c).2 = s := by
  unfold save at h ⊢
  cases hfind : s.find? c.date with
  | none => simp [hfind] at h
  | some kept =>
      by_cases hle : c.blockNonce ≤ kept.blockNonce
      · simp [hle]
      · simp [hfind, hle] at h

theorem save_snd_of_written {s : CheckpointStore} {c : Checkpoint}
    (h : (s.save c).1 = .written) : (s.save c).2 = ⟨place c s.kept⟩ := by
  unfold save at h ⊢
  cases hfind : s.find? c.date with
  | none => rfl
  | some kept =>
      by_cases hle : c.blockNonce ≤ kept.blockNonce
      · simp [hfind, hle] at h
      · simp [hle]

theorem discarded_of_not_written {s : CheckpointStore} {c : Checkpoint}
    (h : ¬ (s.save c).1 = .written) : (s.save c).1 = .discarded := by
  cases hsave : (s.save c).1 with
  | written => exact absurd hsave h
  | discarded => rfl

theorem Chronological.save {s : CheckpointStore} (h : Chronological s.kept) (c : Checkpoint) :
    Chronological (s.save c).2.kept := by
  by_cases hwritten : (s.save c).1 = .written
  · rw [save_snd_of_written hwritten]
    exact h.place c
  · rwa [save_snd_of_discarded (discarded_of_not_written hwritten)]

/-- What is found after a save. -/
theorem find?_save (s : CheckpointStore) (c : Checkpoint) (date : Date) :
    (s.save c).2.find? date =
      if (s.save c).1 = .written ∧ c.date = date then some c else s.find? date := by
  by_cases hwritten : (s.save c).1 = .written
  · rw [save_snd_of_written hwritten]
    simpa [hwritten, find?] using find?_place c s.kept date
  · rw [save_snd_of_discarded (discarded_of_not_written hwritten), if_neg (by tauto)]

/-! ## A sequence of saves -/

/-- An empty store after some saves, the earliest first. -/
def ofSaves (saves : List Checkpoint) : CheckpointStore :=
  saves.foldl (fun s c => (s.save c).2) {}

@[simp] theorem ofSaves_append_singleton (saves : List Checkpoint) (c : Checkpoint) :
    ofSaves (saves ++ [c]) = ((ofSaves saves).save c).2 := by
  simp [ofSaves]

/-- Is this the first of the day's saves that have the day's greatest block? -/
def Foremost (saves : List Checkpoint) (date : Date) (c : Checkpoint) : Prop :=
  ∃ earlier later, saves = earlier ++ c :: later ∧ c.date = date ∧
    (∀ d ∈ earlier, d.date = date → d.blockNonce < c.blockNonce) ∧
    ∀ d ∈ later, d.date = date → d.blockNonce ≤ c.blockNonce

theorem Foremost.mem {saves : List Checkpoint} {date : Date} {c : Checkpoint}
    (h : Foremost saves date c) : c ∈ saves := by
  obtain ⟨earlier, later, rfl, -⟩ := h
  simp

theorem Foremost.date_eq {saves : List Checkpoint} {date : Date} {c : Checkpoint}
    (h : Foremost saves date c) : c.date = date := by
  obtain ⟨earlier, later, -, hdate, -⟩ := h
  exact hdate

theorem Foremost.le {saves : List Checkpoint} {date : Date} {c d : Checkpoint}
    (h : Foremost saves date c) (hd : d ∈ saves) (hdate : d.date = date) :
    d.blockNonce ≤ c.blockNonce := by
  obtain ⟨earlier, later, rfl, -, hearlier, hlater⟩ := h
  rcases List.mem_append.1 hd with hd | hd
  · exact UInt64.le_of_lt (hearlier d hd hdate)
  · rcases List.mem_cons.1 hd with rfl | hd
    · exact UInt64.le_refl _
    · exact hlater d hd hdate

/-- There is only one such save. -/
theorem Foremost.unique {saves : List Checkpoint} {date : Date} {c c' : Checkpoint}
    (h : Foremost saves date c) (h' : Foremost saves date c') : c = c' := by
  have hle := h.le h'.mem h'.date_eq
  have hle' := h'.le h.mem h.date_eq
  obtain ⟨earlier, later, rfl, hdate, hearlier, -⟩ := h
  obtain ⟨earlier', later', hsaves, hdate', hearlier', -⟩ := h'
  -- the one that stands first would be below the other
  rcases List.append_eq_append_iff.1 hsaves with ⟨gap, hgap, hrest⟩ | ⟨gap, hgap, hrest⟩
  · cases gap with
    | nil => exact (List.cons.inj hrest).1
    | cons first gap =>
        obtain ⟨rfl, -⟩ := List.cons.inj hrest
        exact absurd (hearlier' c (by simp [hgap]) hdate) (UInt64.not_lt.2 hle)
  · cases gap with
    | nil => exact (List.cons.inj hrest).1.symm
    | cons first gap =>
        obtain ⟨rfl, -⟩ := List.cons.inj hrest
        exact absurd (hearlier c' (by simp [hgap]) hdate') (UInt64.not_lt.2 hle')

/-- A save is foremost if no earlier one reaches its block, and the foremost one stays so until
a later one exceeds its block. -/
theorem foremost_append_singleton_iff {saves : List Checkpoint} {date : Date}
    {c x : Checkpoint} :
    Foremost (saves ++ [c]) date x ↔
      (x = c ∧ c.date = date ∧ ∀ d ∈ saves, d.date = date → d.blockNonce < c.blockNonce) ∨
      (Foremost saves date x ∧ (c.date = date → c.blockNonce ≤ x.blockNonce)) := by
  constructor
  · rintro ⟨earlier, later, hsaves, hdate, hearlier, hlater⟩
    rcases List.eq_nil_or_concat later with rfl | ⟨later', last, rfl⟩
    · obtain ⟨rfl, hlast⟩ := List.append_inj' hsaves rfl
      obtain rfl : c = x := by simpa using hlast
      exact .inl ⟨rfl, hdate, hearlier⟩
    · rw [List.concat_eq_append, ← List.cons_append, ← List.append_assoc] at hsaves
      obtain ⟨hinit, hlast⟩ := List.append_inj' hsaves rfl
      obtain rfl : c = last := by simpa using hlast
      refine .inr ⟨⟨earlier, later', hinit, hdate, hearlier, fun d hd => ?_⟩, ?_⟩
      · exact hlater d (by simp [hd])
      · exact hlater c (by simp)
  · rintro (⟨rfl, hdate, hless⟩ | ⟨⟨earlier, later, rfl, hdate, hearlier, hlater⟩, hc⟩)
    · exact ⟨saves, [], rfl, hdate, hless, by simp⟩
    · refine ⟨earlier, later ++ [c], by simp, hdate, hearlier, fun d hd => ?_⟩
      rcases List.mem_append.1 hd with hd | hd
      · exact hlater d hd
      · obtain rfl : d = c := by simpa using hd
        exact hc

/-- If no two saves of one day have one block, the foremost save is the one of the greatest
block, wherever it stands. -/
theorem foremost_iff_of_nodup {saves : List Checkpoint}
    (h : (saves.map fun c => (c.date, c.blockNonce)).Nodup) {date : Date} {c : Checkpoint} :
    Foremost saves date c ↔
      c ∈ saves ∧ c.date = date ∧ ∀ d ∈ saves, d.date = date → d.blockNonce ≤ c.blockNonce := by
  constructor
  · intro hc
    exact ⟨hc.mem, hc.date_eq, fun d hd => hc.le hd⟩
  · rintro ⟨hmem, hdate, hmax⟩
    obtain ⟨earlier, later, rfl⟩ := List.mem_iff_append.1 hmem
    refine ⟨earlier, later, rfl, hdate, fun d hd hday => ?_, fun d hd => hmax d (by simp [hd])⟩
    refine UInt64.lt_iff_le_and_ne.2 ⟨hmax d (by simp [hd]) hday, fun hblock => ?_⟩
    rw [List.map_append, List.map_cons] at h
    refine Distinct.not_mem_of_nodup h (List.mem_map.2 ⟨d, hd, ?_⟩)
    rw [hday, hdate, hblock]

theorem chronological_ofSaves (saves : List Checkpoint) : Chronological (ofSaves saves).kept := by
  induction saves using List.reverseRecOn with
  | nil => exact List.Pairwise.nil
  | append_singleton saves c ih =>
      rw [ofSaves_append_singleton]
      exact ih.save c

/-- Is this what a search for the day finds after the saves? -/
def Kept (saves : List Checkpoint) (date : Date) : Option Checkpoint → Prop
  | none => ∀ d ∈ saves, d.date ≠ date
  | some c => Foremost saves date c

/-- The saves determine what is kept. -/
theorem Kept.unique {saves : List Checkpoint} {date : Date} {found found' : Option Checkpoint}
    (h : Kept saves date found) (h' : Kept saves date found') : found = found' := by
  cases found with
  | none =>
      cases found' with
      | none => rfl
      | some c => exact absurd h'.date_eq (h c h'.mem)
  | some c =>
      cases found' with
      | none => exact absurd h.date_eq (h' c h.mem)
      | some c' => exact congrArg some (Foremost.unique h h')

/-- What is kept of a day has a smaller block exactly if all saves of the day have. -/
theorem Kept.forall_lt_iff {saves : List Checkpoint} {date : Date} {found : Option Checkpoint}
    (h : Kept saves date found) (nonce : UInt64) :
    (∀ kept ∈ found, kept.blockNonce < nonce) ↔
      ∀ d ∈ saves, d.date = date → d.blockNonce < nonce := by
  cases found with
  | none =>
      constructor
      · intro _ d hd hdate
        exact absurd hdate (h d hd)
      · intro _ kept hkept
        cases hkept
  | some kept =>
      constructor
      · intro hless d hd hdate
        exact UInt64.lt_of_le_of_lt (h.le hd hdate) (hless kept rfl)
      · rintro hless _ ⟨⟩
        exact hless kept h.mem h.date_eq

/-- A save is kept if it is of the day and exceeds what was kept; otherwise nothing changes. -/
theorem Kept.append_singleton {saves : List Checkpoint} {date : Date} {found : Option Checkpoint}
    (h : Kept saves date found) (c : Checkpoint) :
    Kept (saves ++ [c]) date
      (if (∀ kept ∈ found, kept.blockNonce < c.blockNonce) ∧ c.date = date then some c
        else found) := by
  by_cases hnew : (∀ kept ∈ found, kept.blockNonce < c.blockNonce) ∧ c.date = date
  · rw [if_pos hnew]
    exact foremost_append_singleton_iff.2
      (.inl ⟨rfl, hnew.2, (h.forall_lt_iff c.blockNonce).1 hnew.1⟩)
  · rw [if_neg hnew]
    cases found with
    | none =>
        intro d hd hdate
        rcases List.mem_append.1 hd with hd | hd
        · exact h d hd hdate
        · obtain rfl : d = c := by simpa using hd
          exact hnew ⟨by simp, hdate⟩
    | some kept =>
        refine foremost_append_singleton_iff.2 (.inr ⟨h, fun hdate => UInt64.not_lt.1 ?_⟩)
        intro hless
        exact hnew ⟨by rintro _ ⟨⟩; exact hless, hdate⟩

theorem kept_ofSaves (saves : List Checkpoint) (date : Date) :
    Kept saves date ((ofSaves saves).find? date) := by
  induction saves using List.reverseRecOn generalizing date with
  | nil => simp [Kept, ofSaves, find?]
  | append_singleton saves c ih =>
      have hstep := (ih date).append_singleton c
      simp only [ofSaves_append_singleton, find?_save, save_fst_eq_written_iff]
      by_cases hdate : c.date = date
      · subst hdate
        exact hstep
      · simpa only [hdate, and_false, if_false] using hstep

theorem find?_ofSaves_eq_some_iff {saves : List Checkpoint} {date : Date} {c : Checkpoint} :
    (ofSaves saves).find? date = some c ↔ Foremost saves date c := by
  have hkept := kept_ofSaves saves date
  constructor
  · intro hfind
    rwa [hfind] at hkept
  · intro hc
    exact hkept.unique (show Kept saves date (some c) from hc)

theorem find?_ofSaves_eq_none_iff {saves : List Checkpoint} {date : Date} :
    (ofSaves saves).find? date = none ↔ ∀ d ∈ saves, d.date ≠ date := by
  have hkept := kept_ofSaves saves date
  constructor
  · intro hfind
    rwa [hfind] at hkept
  · intro hnone
    exact hkept.unique (show Kept saves date none from hnone)

/-- A save writes exactly if it exceeds every earlier save of its day. -/
theorem save_ofSaves_eq_written_iff (saves : List Checkpoint) (c : Checkpoint) :
    ((ofSaves saves).save c).1 = .written ↔
      ∀ d ∈ saves, d.date = c.date → d.blockNonce < c.blockNonce :=
  (save_fst_eq_written_iff _ _).trans ((kept_ofSaves saves c.date).forall_lt_iff c.blockNonce)

/-- A save takes no day back to a smaller block. -/
theorem find?_save_le {s : CheckpointStore} {date : Date} {kept : Checkpoint}
    (h : s.find? date = some kept) (c : Checkpoint) :
    ∃ kept', (s.save c).2.find? date = some kept' ∧ kept.blockNonce ≤ kept'.blockNonce := by
  rw [find?_save]
  by_cases hnew : (s.save c).1 = .written ∧ c.date = date
  · obtain ⟨hwritten, rfl⟩ := hnew
    have hless := (save_fst_eq_written_iff s c).1 hwritten kept h
    exact ⟨c, if_pos ⟨hwritten, rfl⟩, UInt64.le_of_lt hless⟩
  · exact ⟨kept, by rw [if_neg hnew, h], UInt64.le_refl _⟩

theorem mem_kept_ofSaves_iff {saves : List Checkpoint} {c : Checkpoint} :
    c ∈ (ofSaves saves).kept ↔ Foremost saves c.date c := by
  rw [← find?_ofSaves_eq_some_iff, (chronological_ofSaves saves).find?_eq_some_iff]
  simp

/-- The days that have a checkpoint are those of the saves. -/
theorem exists_mem_kept_ofSaves_iff {saves : List Checkpoint} {date : Date} :
    (∃ c ∈ (ofSaves saves).kept, c.date = date) ↔ ∃ d ∈ saves, d.date = date := by
  constructor
  · rintro ⟨c, hc, hdate⟩
    exact ⟨c, (mem_kept_ofSaves_iff.1 hc).mem, hdate⟩
  · intro hsome
    cases hfind : (ofSaves saves).find? date with
    | none =>
        obtain ⟨d, hd, hdate⟩ := hsome
        exact absurd hdate (find?_ofSaves_eq_none_iff.1 hfind d hd)
    | some c => exact ⟨c, (chronological_ofSaves saves).find?_eq_some_iff.1 hfind⟩

/-- The latest checkpoint is the one of the greatest day. -/
theorem latest?_ofSaves_eq_some_iff {saves : List Checkpoint} {c : Checkpoint} :
    (ofSaves saves).latest? = some c ↔
      (ofSaves saves).find? c.date = some c ∧ ∀ d ∈ saves, ¬ c.date.before d.date = true := by
  have hdays : (∀ d ∈ (ofSaves saves).kept, ¬ c.date.before d.date = true) ↔
      ∀ d ∈ saves, ¬ c.date.before d.date = true := by
    constructor
    · intro h d hd
      obtain ⟨e, he, hdate⟩ := exists_mem_kept_ofSaves_iff.2 ⟨d, hd, rfl⟩
      exact hdate ▸ h e he
    · intro h d hd
      exact h d (mem_kept_ofSaves_iff.1 hd).mem
  rw [← hdays, (chronological_ofSaves saves).find?_eq_some_iff,
    (chronological_ofSaves saves).latest?_eq_some_iff]
  simp

theorem latest?_ofSaves_eq_none_iff {saves : List Checkpoint} :
    (ofSaves saves).latest? = none ↔ saves = [] := by
  rw [latest?, List.getLast?_eq_none_iff]
  constructor
  · intro hempty
    refine List.eq_nil_iff_forall_not_mem.2 fun d hd => ?_
    obtain ⟨c, hc, -⟩ := exists_mem_kept_ofSaves_iff.2 ⟨d, hd, rfl⟩
    simp [hempty] at hc
  · rintro rfl
    rfl

/-- Saves that differ in their blocks may come in any order. -/
theorem ofSaves_perm {saves saves' : List Checkpoint} (hperm : saves.Perm saves')
    (h : (saves.map fun c => (c.date, c.blockNonce)).Nodup) : ofSaves saves' = ofSaves saves := by
  refine (chronological_ofSaves saves').ext (chronological_ofSaves saves) fun date => ?_
  have h' := (hperm.map _).nodup_iff.1 h
  refine Option.ext fun c => ?_
  rw [find?_ofSaves_eq_some_iff, find?_ofSaves_eq_some_iff, foremost_iff_of_nodup h,
    foremost_iff_of_nodup h']
  simp only [hperm.mem_iff]

/-- Whatever is saved to an empty store, each day keeps the first save of the day's greatest
block, and nothing else is kept.  A save writes exactly if its block exceeds those of all
earlier saves of its day and leaves the store as it is otherwise, so no day goes back to
a smaller block; the latest checkpoint is the one of the greatest day; and saves that
differ in their blocks on each day may be reordered. -/
theorem ofSaves_keeps_foremost (saves : List Checkpoint) :
    (∀ date c, (ofSaves saves).find? date = some c ↔ Foremost saves date c) ∧
    (∀ date, (ofSaves saves).find? date = none ↔ ∀ d ∈ saves, d.date ≠ date) ∧
    (Chronological (ofSaves saves).kept ∧
      ∀ c, c ∈ (ofSaves saves).kept ↔ Foremost saves c.date c) ∧
    (∀ c, (((ofSaves saves).save c).1 = .written ↔
        ∀ d ∈ saves, d.date = c.date → d.blockNonce < c.blockNonce) ∧
      (((ofSaves saves).save c).1 = .discarded →
        ((ofSaves saves).save c).2 = ofSaves saves)) ∧
    (∀ c date kept, (ofSaves saves).find? date = some kept →
      ∃ kept', ((ofSaves saves).save c).2.find? date = some kept' ∧
        kept.blockNonce ≤ kept'.blockNonce) ∧
    (∀ c, (ofSaves saves).latest? = some c ↔
      (ofSaves saves).find? c.date = some c ∧ ∀ d ∈ saves, ¬ c.date.before d.date = true) ∧
    ((ofSaves saves).latest? = none ↔ saves = []) ∧
    ∀ saves' : List Checkpoint, saves.Perm saves' →
      (saves.map fun c => (c.date, c.blockNonce)).Nodup → ofSaves saves' = ofSaves saves := by
  refine ⟨fun date c => find?_ofSaves_eq_some_iff, fun date => find?_ofSaves_eq_none_iff,
    ⟨chronological_ofSaves saves, fun c => mem_kept_ofSaves_iff⟩, fun c => ?_,
    fun c date kept h => find?_save_le h c, fun c => latest?_ofSaves_eq_some_iff,
    latest?_ofSaves_eq_none_iff, fun saves' => ofSaves_perm⟩
  exact ⟨save_ofSaves_eq_written_iff saves c, save_snd_of_discarded⟩

/-- An empty checkpoint of a day in 2026. -/
def ofDay (month day : Nat) (blockNonce : UInt64) : Checkpoint :=
  ⟨⟨2026, month, day⟩, blockNonce, ⟨0, 0⟩, [], []⟩

/-- What a quick and a slow writer save for two days: the quick one is done with the first day
when the slow one comes with an older block of it. -/
def twoWriters : List Checkpoint :=
  [ofDay 2 28 9, ofDay 3 1 4, ofDay 2 28 7, ofDay 3 1 6]

/-- The slow writer may as well come first. -/
theorem ofSaves_keeps_foremost_twoWriters :
    (twoWriters.map fun c => (c.date, c.blockNonce)).Nodup ∧
    ofSaves [ofDay 2 28 7, ofDay 3 1 6, ofDay 3 1 4, ofDay 2 28 9] = ofSaves twoWriters ∧
    (ofSaves twoWriters).latest? = some (ofDay 3 1 6) ∧
    ((ofSaves twoWriters).save (ofDay 2 28 9)).1 = .discarded := by
  obtain ⟨-, -, -, -, -, hlatest, -, hperm⟩ := ofSaves_keeps_foremost twoWriters
  have hnodup : (twoWriters.map fun c => (c.date, c.blockNonce)).Nodup := by decide
  refine ⟨hnodup, hperm _ (by decide) hnodup, (hlatest (ofDay 3 1 6)).2 (by decide), ?_⟩
  decide

end CheckpointStore

end DexCache
