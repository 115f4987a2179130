import DexCache.Json.Reader
import DexCache.Proofs.Outcome
import Mathlib.Data.List.Nodup

/-!
# What a record was given

A record is read from an object by the keys or from an array by the places of its fields, and
either way each field gets what stands under its name.  So a record that was read holds nothing but
what it was given: this module says so field by field, and puts the fields together as readers do.
-/

namespace DexCache.Json

variable {α β : Type}

/-! ### Values that are given -/

/-- What stands under a name in a record of these fields: in an object under the key, in an array at
the place of the name. -/
def given? (names : List String) : Json → String → Option Json
  | .obj entries, name => Object.get? entries name
  | .arr items, name => items[names.idxOf name]?
  | _, _ => none

/-- A value other than null. -/
def notNull? : Json → Option Json
  | .null => none
  | v => some v

/-- The truth value of a boolean. -/
def bool? : Json → Option Bool
  | .bool b => some b
  | _ => none

/-- The integer of a number without a point. -/
def int? : Json → Option Int
  | .int i => some i
  | _ => none

/-- A count, which is an integer from zero on. -/
def count? (v : Json) : Option Nat :=
  v.int?.map Int.toNat

/-- One text, or all texts of an array. -/
def texts? : Json → Option (List String)
  | .str s => some [s]
  | .arr items => items.mapM str?
  | _ => none

/-- The name of a variant without data: a text, or the only key of an object that holds null. -/
def variant? : Json → Option String
  | .str s => some s
  | .obj [(name, .null)] => some name
  | _ => none

/-! ### Readers of values -/

/-- Does a reader give what a value holds? -/
def Reader.Holds (read : Reader α) (value? : Json → Option α) : Prop :=
  ∀ v a, read v = .ok a → value? v = some a

namespace Reader

theorem holds_string : string.Holds str? := by
  intro v s h
  cases v with
  | str t => exact congrArg some (Except.ok.inj h)
  | null | bool | int | float | arr | obj => cases h

theorem holds_boolean : boolean.Holds bool? := by
  intro v b h
  cases v with
  | bool c => exact congrArg some (Except.ok.inj h)
  | null | str | int | float | arr | obj => cases h

theorem holds_integer (type : String) (least greatest : Int) :
    (integer type least greatest).Holds int? := by
  intro v i h
  cases v with
  | int j =>
      simp only [integer] at h
      split at h
      · exact congrArg some (Except.ok.inj h)
      · cases h
  | null | bool | str | float | arr | obj => cases h

/-- What is made of a value that was read is made of the value that it holds. -/
theorem Holds.map {read : Reader α} {value? : Json → Option α} (h : read.Holds value?)
    (f : α → β) : Reader.Holds (fun v => (read v).map f) fun v => (value? v).map f := by
  intro v b hb
  obtain ⟨a, ha, rfl⟩ := Outcome.map_eq_ok_iff.1 hb
  exact congrArg (Option.map f) (h v a ha)

theorem holds_size : size.Holds count? :=
  (holds_integer _ _ _).map Int.toNat

theorem holds_uint64 : uint64.Holds fun v => v.int?.map fun i => UInt64.ofNat i.toNat :=
  (holds_integer _ _ _).map _

theorem holds_int64 : int64.Holds fun v => v.int?.map Int64.ofInt :=
  (holds_integer _ _ _).map _

theorem holds_unitVariant (names : List String) : (unitVariant names).Holds variant? := by
  intro v name h
  obtain ⟨⟨found, payload⟩, hfound, h⟩ := Outcome.bind_eq_ok_iff.1 h
  have hknown {name : String} {payload? : Option Json}
      (h : variant.known names name payload? = .ok ⟨found, payload⟩) :
      name = found ∧ payload? = payload := by
    unfold variant.known at h
    split at h
    · simpa using Except.ok.inj h
    · cases h
  have hnull : payload = none ∨ payload = some .null := by
    match payload, h with
    | none, _ => exact .inl rfl
    | some .null, _ => exact .inr rfl
  have hname : found = name := by
    rcases hnull with rfl | rfl
    · exact Except.ok.inj h
    · exact Except.ok.inj h
  unfold variant at hfound
  split at hfound
  · obtain ⟨rfl, -⟩ := hknown hfound
    exact congrArg some hname
  · obtain ⟨rfl, rfl⟩ := hknown hfound
    rcases hnull with hnone | hnull
    · cases hnone
    · rw [Option.some.inj hnull]
      exact congrArg some hname
  · cases hfound
  · cases hfound

end Reader

/-! ### Readers of fields -/

/-- Does a field get what stands under its name, absent or not? -/
structure FieldReader.Holds (f : FieldReader α) (value : Option Json → α) : Prop where
  read : ∀ v a, f.read v = .ok a → a = value (some v)
  absent : ∀ a ∈ f.absent, a = value none
  beyond : ∀ a ∈ f.beyond, a = value none

namespace FieldReader

/-- A field that may be absent or null. -/
theorem holds_optional {read : Reader α} {value? : Json → Option α} (h : read.Holds value?)
    (hnull : value? .null = none) (name : String) :
    (FieldReader.optional name read).Holds (·.bind value?) := by
  refine ⟨fun v a ha => ?_, by simp [FieldReader.optional], by simp [FieldReader.optional]⟩
  cases v with
  | null =>
      obtain rfl := Except.ok.inj ha
      exact hnull.symm
  | bool | int | float | str | arr | obj =>
      obtain ⟨b, hb, rfl⟩ := Outcome.map_eq_ok_iff.1 ha
      exact (h _ b hb).symm

end FieldReader

/-! ### Readers of records -/

/-- Does a record hold what is given for its fields?  From an array each takes the item at its
place, and the items behind the last place are left over. -/
structure FieldsReader.Holds (fs : FieldsReader α) (make : (String → Option Json) → α) : Prop where
  build : ∀ find a, fs.build find = .ok a → a = make find
  place : ∀ (items : List Json) a rest find,
    (∀ (i : Nat) name, fs.names[i]? = some name → find name = items[i]?) →
      fs.place items = .ok (a, rest) → a = make find ∧ rest = items.drop fs.names.length

namespace FieldsReader

theorem holds_pure (a : α) : (FieldsReader.pure a).Holds fun _ => a where
  build _ _ h := (Except.ok.inj h).symm
  place _ _ _ _ _ h := by
    obtain ⟨rfl, rfl⟩ := Prod.mk.inj (Except.ok.inj h)
    exact ⟨rfl, rfl⟩

/-- One field more gets what stands under its name, and at the next place. -/
theorem Holds.andField {fs : FieldsReader (α → β)} {f : FieldReader α}
    {make : (String → Option Json) → α → β} {value : Option Json → α} (h : fs.Holds make)
    (hf : f.Holds value) : (fs.andField f).Holds fun find => make find (value (find f.name)) where
  build find b hb := by
    obtain ⟨g, hg, hb⟩ := Outcome.bind_eq_ok_iff.1 hb
    obtain rfl := h.build find g hg
    cases hfind : find f.name with
    | some v =>
        simp only [hfind] at hb
        obtain ⟨a, ha, rfl⟩ := Outcome.map_eq_ok_iff.1 hb
        rw [hf.read v a ha]
    | none =>
        simp only [hfind] at hb
        cases habsent : f.absent with
        | some a =>
            simp only [habsent] at hb
            rw [← Except.ok.inj hb, hf.absent a habsent]
        | none =>
            simp only [habsent] at hb
            cases hb
  place items b rest find hfind hplace := by
    obtain ⟨⟨g, behind⟩, hg, hplace⟩ := Outcome.bind_eq_ok_iff.1 hplace
    have hbefore : ∀ (i : Nat) name, fs.names[i]? = some name → find name = items[i]? := by
      intro i name hname
      refine hfind i name ?_
      rw [← hname]
      exact List.getElem?_append_left (List.getElem?_eq_some_iff.1 hname).1
    have hthis : find f.name = items[fs.names.length]? := hfind _ _ List.getElem?_concat_length
    obtain ⟨rfl, rfl⟩ := h.place items g behind find hbefore hg
    have hnames : (fs.andField f).names.length = fs.names.length + 1 := List.length_append
    rw [hnames, hthis, ← List.head?_drop, ← List.tail_drop]
    cases hrest : items.drop fs.names.length with
    | cons v more =>
        simp only [hrest] at hplace
        cases hread : f.read v with
        | ok a =>
            simp only [hread] at hplace
            obtain ⟨rfl, rfl⟩ := Prod.mk.inj (Except.ok.inj hplace)
            exact ⟨by rw [hf.read v a hread]; rfl, rfl⟩
        | error e =>
            simp only [hread] at hplace
            cases hplace
    | nil =>
        simp only [hrest] at hplace
        cases hbeyond : f.beyond with
        | some a =>
            simp only [hbeyond] at hplace
            obtain ⟨rfl, rfl⟩ := Prod.mk.inj (Except.ok.inj hplace)
            exact ⟨by rw [hf.beyond a hbeyond]; rfl, rfl⟩
        | none =>
            simp only [hbeyond] at hplace
            cases hplace

/-- A record that was read holds what stands under the names of its fields. -/
theorem Holds.record {fs : FieldsReader α} {make : (String → Option Json) → α} (h : fs.Holds make)
    (hnodup : fs.names.Nodup) (type : String) (buffered : Bool) :
    (Reader.record type fs buffered).Holds fun v =>
      v.notNull?.map fun v => make (v.given? fs.names) := by
  intro v a hread
  cases v with
  | obj entries =>
      obtain ⟨-, -, hbuild⟩ := Outcome.bind_eq_ok_iff.1 hread
      exact congrArg some (h.build _ a hbuild).symm
  | arr items =>
      simp only [Reader.record, ofItems] at hread
      have hplaces : ∀ (i : Nat) name, fs.names[i]? = some name →
          (Json.arr items).given? fs.names name = items[i]? := by
        intro i name hname
        obtain ⟨hi, rfl⟩ := List.getElem?_eq_some_iff.1 hname
        rw [given?, hnodup.idxOf_getElem i hi]
      cases hplace : fs.place items with
      | error fault => cases fault <;> simp [hplace] at hread
      | ok found =>
          obtain ⟨b, rest⟩ := found
          cases rest with
          | nil =>
              simp only [hplace] at hread
              obtain rfl := Except.ok.inj hread
              exact congrArg some (h.place items b [] _ hplaces hplace).1.symm
          | cons surplus rest => simp [hplace] at hread
  | null | bool | int | float | str => cases hread

end FieldsReader

end DexCache.Json
