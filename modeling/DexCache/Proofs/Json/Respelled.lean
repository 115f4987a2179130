import DexCache.Json.Reader
import DexCache.Proofs.Json.Objects

/-!
# Other spellings of a value

One record can be written as many objects: their keys stand in any order, a key whose value is null
may be left out, and keys that the record does not know may be added.  This module says which values
are other spellings of a value, at any depth, and shows how a reader that takes all spellings of
the fields takes all spellings of the record.
-/

namespace DexCache.Json

/-- Is a value another spelling of a value?  Its objects are maps with the same entries, but that
nulls may be left out and entries under further keys may be added. -/
inductive Respells : Json → Json → Prop
  | same (v : Json) : Respells v v
  | arr {xs ys : List Json} (items : List.Forall₂ Respells xs ys) : Respells (.arr xs) (.arr ys)
  | obj {o p : Object} (distinct : p.keys.Nodup)
    (kept : ∀ key v w, o.get? key = some v → p.get? key = some w → Respells v w)
    (leftOut : ∀ key v, o.get? key = some v → p.get? key = none → v = .null) :
    Respells (.obj o) (.obj p)

/-- Is an object another spelling of an object? -/
structure Object.Respelled (o p : Object) : Prop where
  distinct : p.keys.Nodup
  kept : ∀ key v w, o.get? key = some v → p.get? key = some w → Respells v w
  leftOut : ∀ key v, o.get? key = some v → p.get? key = none → v = .null

/-- Does an object show all these entries? -/
def Object.Shows (o entries : Object) : Prop :=
  ∀ e ∈ entries, o.get? e.1 = some e.2

theorem Object.shows_of_subset {o entries : Object} (ho : o.keys.Nodup) (h : entries ⊆ o) :
    o.Shows entries :=
  fun _ he => (get?_eq_some_iff ho).2 (h he)

namespace Respells

theorem obj_iff {o : Object} (ho : o.keys.Nodup) {w : Json} :
    Respells (.obj o) w ↔ ∃ p, w = .obj p ∧ o.Respelled p := by
  constructor
  · intro h
    cases h with
    | same =>
        refine ⟨o, rfl, ho, fun key v w hv hw => ?_, fun key v hv hnone => ?_⟩
        · rw [Option.some.inj (hv.symm.trans hw)]
          exact .same w
        · rw [hv] at hnone
          cases hnone
    | obj distinct kept leftOut => exact ⟨_, rfl, distinct, kept, leftOut⟩
  · rintro ⟨p, rfl, h⟩
    exact .obj h.distinct h.kept h.leftOut

/-- Only null is spelled as null. -/
theorem ne_null {v w : Json} (h : Respells v w) (hv : v ≠ .null) : w ≠ .null := by
  cases h with
  | same => exact hv
  | arr => exact Json.noConfusion
  | obj => exact Json.noConfusion

/-- An object is respelled entry by entry: as it is, by leaving out a null, or, for the entries
`inside`, by respelling the value. -/
theorem of_entries {o p : Object} (inside : Object) (distinct : p.keys.Nodup)
    (h : ∀ e ∈ o, e.2 = .null ∧ p.get? e.1 = none ∨ p.get? e.1 = some e.2 ∨ e ∈ inside)
    (hinside : ∀ e ∈ inside, ∃ w, p.get? e.1 = some w ∧ Respells e.2 w) :
    Respells (.obj o) (.obj p) := by
  have hentry (e : String × Json) (he : e ∈ o) :
      e.2 = .null ∧ p.get? e.1 = none ∨ ∃ w, p.get? e.1 = some w ∧ Respells e.2 w := by
    obtain hout | hsame | hin := h e he
    · exact .inl hout
    · exact .inr ⟨e.2, hsame, .same _⟩
    · exact .inr (hinside e hin)
  refine .obj distinct (fun key v w hv hw => ?_) fun key v hv hnone => ?_
  · obtain ⟨-, hout⟩ | ⟨w', hw', hrespells⟩ := hentry _ (Object.mem_of_get? hv)
    · cases hout.symm.trans hw
    · exact Option.some.inj (hw'.symm.trans hw) ▸ hrespells
  · obtain ⟨hnull, -⟩ | ⟨w', hw', -⟩ := hentry _ (Object.mem_of_get? hv)
    · exact hnull
    · cases hw'.symm.trans hnone

end Respells

variable {α β : Type}

/-! ### Values -/

/-- Does a reader take all spellings of a value other than null as one and the same? -/
structure Reader.Takes (read : Reader α) (v : Json) (a : α) : Prop where
  notNull : v ≠ .null
  read : ∀ w, Respells v w → read w = .ok a

namespace Reader

theorem takes_string (text : String) : string.Takes (.str text) text :=
  ⟨Json.noConfusion, fun w h => by cases h; rfl⟩

theorem takes_boolean (b : Bool) : boolean.Takes (.bool b) b :=
  ⟨Json.noConfusion, fun w h => by cases h; rfl⟩

theorem takes_uint32 (n : UInt32) : uint32.Takes (.ofNat n.toNat) n := by
  refine ⟨Json.noConfusion, fun w h => ?_⟩
  cases h
  have hbound : (n.toNat : Int) ≤ 4294967295 := by have := n.toNat_lt; omega
  simp [uint32, ofNat, integer, hbound, Except.map]

theorem takes_uint64 (n : UInt64) : uint64.Takes (.ofNat n.toNat) n := by
  refine ⟨Json.noConfusion, fun w h => ?_⟩
  cases h
  have hbound : (n.toNat : Int) ≤ 18446744073709551615 := by have := n.toNat_lt; omega
  simp [uint64, ofNat, integer, hbound, Except.map]

theorem takes_int64 (i : Int64) : int64.Takes (.int i.toInt) i := by
  refine ⟨Json.noConfusion, fun w h => ?_⟩
  cases h
  have hleast : -9223372036854775808 ≤ i.toInt := i.le_toInt
  have hgreatest : i.toInt ≤ 9223372036854775807 := Int.le_of_lt_add_one i.toInt_lt
  simp [int64, integer, hleast, hgreatest, Except.map]

theorem takes_double {d : Double} (h : d.isFinite = true) :
    double.Takes (if d.isFinite then .float d else .null) d := by
  rw [if_pos h]
  exact ⟨Json.noConfusion, fun w h => by cases h; rfl⟩

theorem takes_list {read : Reader α} {write : α → Json} {as : List α}
    (h : ∀ a ∈ as, read.Takes (write a) a) : (list read).Takes (.arr (as.map write)) as := by
  have hitems {ws : List Json} (hws : List.Forall₂ Respells (as.map write) ws) :
      ws.mapM read = .ok as := by
    induction as generalizing ws with
    | nil =>
        cases hws
        rfl
    | cons a as ih =>
        obtain ⟨hfirst, hrest⟩ := List.forall_mem_cons.1 h
        cases hws with
        | cons hw hws =>
            rw [List.mapM_cons, hfirst.read _ hw, ih hrest hws]
            rfl
  refine ⟨Json.noConfusion, fun w hw => ?_⟩
  cases hw with
  | same => exact hitems (List.forall₂_same.2 fun v _ => .same v)
  | arr items => exact hitems items

end Reader

/-! ### Fields -/

/-- Is a field read as one and the same in all spellings of an object? -/
structure FieldReader.Takes (f : FieldReader α) (o : Object) (a : α) : Prop where
  read : ∀ p, o.Respelled p → ∀ w, p.get? f.name = some w → f.read w = .ok a
  absent : ∀ p, o.Respelled p → p.get? f.name = none → f.absent = some a

theorem FieldReader.takes_required {name : String} {read : Reader α} {o : Object} {v : Json}
    {a : α} (hv : o.get? name = some v) (h : read.Takes v a) :
    (FieldReader.required name read).Takes o a where
  read _ hp w hw := h.read w (hp.kept name v w hv hw)
  absent _ hp hnone := absurd (hp.leftOut name v hv hnone) h.notNull

theorem FieldReader.takes_optional {name : String} {read : Reader α} {write : α → Json}
    {o : Object} {a? : Option α} (hv : o.get? name = some (.ofOption write a?))
    (h : ∀ a ∈ a?, read.Takes (write a) a) : (FieldReader.optional name read).Takes o a? := by
  cases a? with
  | none =>
      refine ⟨fun p hp w hw => ?_, fun p hp hnone => rfl⟩
      cases hp.kept name _ w hv hw with
      | same => rfl
  | some a =>
      have hread := h a rfl
      refine ⟨fun p hp w hw => ?_, fun p hp hnone => ?_⟩
      · have hrespells := hp.kept name _ w hv hw
        have hnotNull := hrespells.ne_null hread.notNull
        have hok := hread.read w hrespells
        -- no spelling of the value is null, so it is read as a value
        cases w with
        | null => exact absurd rfl hnotNull
        | bool | int | float | str | arr | obj =>
            exact congrArg (Except.map some) hok
      · exact absurd (hp.leftOut name _ hv hnone) hread.notNull

/-- Is a record read as one and the same from all spellings of an object? -/
structure FieldsReader.Takes (fs : FieldsReader α) (o : Object) (a : α) : Prop where
  check : ∀ p, o.Respelled p → ∀ e ∈ p, fs.check e.1 e.2 = .ok ()
  build : ∀ p, o.Respelled p → fs.build p.get? = .ok a

namespace FieldsReader

theorem takes_pure (a : α) (o : Object) : (FieldsReader.pure a).Takes o a :=
  ⟨fun _ _ _ _ => rfl, fun _ _ => rfl⟩

/-- One field more is taken if it is taken itself. -/
theorem Takes.andField {fs : FieldsReader (α → β)} {f : FieldReader α} {o : Object} {make : α → β}
    {a : α} (hfs : fs.Takes o make) (hf : f.Takes o a) : (fs.andField f).Takes o (make a) := by
  constructor
  · intro p hp e he
    simp only [FieldsReader.andField]
    split
    · next hname =>
        -- keys are distinct, so the entry that is checked is the one that is looked up
        have hget : p.get? f.name = some e.2 :=
          hname ▸ (Object.get?_eq_some_iff hp.distinct).2 he
        rw [hf.read p hp e.2 hget]
        rfl
    · exact hfs.check p hp e he
  · intro p hp
    simp only [FieldsReader.andField, hfs.build p hp]
    cases hget : p.get? f.name with
    | some w =>
        simp only [hf.read p hp w hget]
        rfl
    | none =>
        simp only [hf.absent p hp hget]
        rfl

theorem Takes.ofEntries {fs : FieldsReader α} {o : Object} {a : α} (h : fs.Takes o a)
    {p : Object} (hp : o.Respelled p) : fs.ofEntries p = .ok a := by
  have hchecks (es : Object) (hes : ∀ e ∈ es, fs.check e.1 e.2 = .ok ()) :
      es.forM (fun e => fs.check e.1 e.2) = .ok () := by
    induction es with
    | nil => rfl
    | cons e es ih =>
        rw [List.forall_mem_cons] at hes
        rw [List.forM, hes.1]
        exact ih hes.2
  rw [FieldsReader.ofEntries, hchecks p (h.check p hp)]
  exact h.build p hp

/-- A record is taken as a value if its fields are taken from the object that shows them. -/
theorem takes_record {fs : FieldsReader α} {o : Object} {a : α} (ho : o.keys.Nodup)
    (h : o.Shows o → fs.Takes o a) {type : String} {buffered : Bool} :
    (Reader.record type fs buffered).Takes (.obj o) a := by
  have hfs := h (Object.shows_of_subset ho (List.Subset.refl o))
  refine ⟨Json.noConfusion, fun w hw => ?_⟩
  obtain ⟨p, rfl, hp⟩ := (Respells.obj_iff ho).1 hw
  exact hfs.ofEntries hp

end FieldsReader

end DexCache.Json
