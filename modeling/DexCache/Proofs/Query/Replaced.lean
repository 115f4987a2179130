import DexCache.Json.Reader
import DexCache.Proofs.Outcome
import DexCache.Query.Argument
import Mathlib.Data.List.Forall2

/-!
# Arguments with a value in place of another

Arguments are turned into JSON entry by entry and a record is read field by field.  So where two
lists of arguments differ in the value of one field only, and the field is read from both values
as the same, the records are the same too.
-/

namespace DexCache

namespace Outcome

variable {ε α β γ δ : Type}

/-- Both fail alike, or both succeed with results in this relation. -/
inductive Both (R : α → β → Prop) : Except ε α → Except ε β → Prop
  | ok {a : α} {b : β} (h : R a b) : Both R (.ok a) (.ok b)
  | error (e : ε) : Both R (.error e) (.error e)

theorem both_eq_iff {x y : Except ε α} : Both Eq x y ↔ x = y := by
  constructor
  · rintro (rfl | e)
    · rfl
    · rfl
  · rintro rfl
    cases x with
    | ok a => exact .ok rfl
    | error e => exact .error e

theorem Both.bind {R : α → β → Prop} {S : γ → δ → Prop} {x : Except ε α} {y : Except ε β}
    (h : Both R x y) {f : α → Except ε γ} {g : β → Except ε δ}
    (hnext : ∀ a b, R a b → Both S (f a) (g b)) : Both S (x >>= f) (y >>= g) := by
  cases h with
  | ok h => exact hnext _ _ h
  | error e => exact .error e

theorem Both.bind_same {S : γ → δ → Prop} {x : Except ε α} {f : α → Except ε γ}
    {g : α → Except ε δ} (hnext : ∀ a, Both S (f a) (g a)) : Both S (x >>= f) (x >>= g) := by
  cases x with
  | ok a => exact hnext a
  | error e => exact .error e

theorem Both.map {R : α → β → Prop} {S : γ → δ → Prop} {x : Except ε α} {y : Except ε β}
    (h : Both R x y) {f : α → γ} {g : β → δ} (hnext : ∀ a b, R a b → S (f a) (g b)) :
    Both S (x.map f) (y.map g) := by
  cases h with
  | ok h => exact .ok (hnext _ _ h)
  | error e => exact .error e

theorem Both.mapError {ε' : Type} {R : α → β → Prop} {x : Except ε α} {y : Except ε β}
    (h : Both R x y) (f : ε → ε') : Both R (x.mapError f) (y.mapError f) := by
  cases h with
  | ok h => exact .ok h
  | error e => exact .error _

end Outcome

open Outcome (Both)

namespace Json

namespace Object

variable {R : String → Json → Json → Prop} {o p : Object}

/-- The same keys in the same order, with related values. -/
def Entrywise (R : String → Json → Json → Prop) (o p : Object) : Prop :=
  List.Forall₂ (fun e f => e.1 = f.1 ∧ R e.1 e.2 f.2) o p

theorem Entrywise.insert (h : Entrywise R o p) {key : String} {v w : Json} (hvalue : R key v w) :
    Entrywise R (o.insert key v) (p.insert key w) := by
  induction h with
  | nil => exact .cons ⟨rfl, hvalue⟩ .nil
  | @cons e f o p hfirst hrest ih =>
      obtain ⟨k, a⟩ := e
      obtain ⟨k', b⟩ := f
      obtain ⟨rfl, hab⟩ := hfirst
      simp only [Object.insert]
      split
      · exact .cons ⟨rfl, hvalue⟩ hrest
      · exact .cons ⟨rfl, hab⟩ ih

theorem Entrywise.get? (h : Entrywise R o p) (key : String) :
    Option.Rel (R key) (o.get? key) (p.get? key) := by
  induction h with
  | nil => exact .none
  | @cons e f o p hfirst hrest ih =>
      obtain ⟨k, a⟩ := e
      obtain ⟨k', b⟩ := f
      obtain ⟨rfl, hab⟩ := hfirst
      simp only [Object.get?]
      split
      · next heq => exact .some (heq ▸ hab)
      · exact ih

end Object

open Object (Entrywise)

section Records

variable {α β : Type} {R : String → Json → Json → Prop}

/-- A field is read from related entries as related values. -/
structure FieldReader.Respects (f : FieldReader α) (S : α → α → Prop)
    (R : String → Json → Json → Prop) : Prop where
  read : ∀ v w, R f.name v w → Both S (f.read v) (f.read w)
  absent : ∀ a ∈ f.absent, S a a

/-- The entries of a record are checked alike. -/
theorem FieldsReader.forM_check {fs : FieldsReader α} {o p : Object} (h : Entrywise R o p)
    (hcheck : ∀ key v w, R key v w → fs.check key v = fs.check key w) :
    o.forM (fun e => fs.check e.1 e.2) = p.forM fun e => fs.check e.1 e.2 := by
  induction h with
  | nil => rfl
  | @cons e f o p hfirst hrest ih =>
      obtain ⟨k, a⟩ := e
      obtain ⟨k', b⟩ := f
      obtain ⟨rfl, hab⟩ := hfirst
      rw [List.forM, List.forM, ih, hcheck k a b hab]

/-- Records are read alike. -/
structure FieldsReader.Respects (fs : FieldsReader α) (S : α → α → Prop)
    (R : String → Json → Json → Prop) : Prop where
  check : ∀ key v w, R key v w → fs.check key v = fs.check key w
  build : ∀ find find' : String → Option Json, (∀ key, Option.Rel (R key) (find key) (find' key)) →
    Both S (fs.build find) (fs.build find')

theorem FieldsReader.respects_pure {a : α} {S : α → α → Prop} (h : S a a) :
    (FieldsReader.pure a).Respects S R :=
  ⟨fun _ _ _ _ => rfl, fun _ _ _ => .ok h⟩

/-- One field more is read alike if it is read so itself. -/
theorem FieldsReader.Respects.andField {fs : FieldsReader (α → β)} {f : FieldReader α}
    {S : α → α → Prop} {T : β → β → Prop}
    (hfs : fs.Respects (fun make make' => ∀ a b, S a b → T (make a) (make' b)) R)
    (hf : f.Respects S R) : (fs.andField f).Respects T R := by
  constructor
  · intro key v w hvw
    simp only [FieldsReader.andField]
    split
    · next heq =>
        have hread := (hf.read v w (heq ▸ hvw)).map (S := Eq) (f := fun _ => ()) (g := fun _ => ())
          fun _ _ _ => rfl
        exact Outcome.both_eq_iff.1 hread
    · exact hfs.check key v w hvw
  · intro find find' hfind
    refine (hfs.build find find' hfind).bind fun make make' hmake => ?_
    have hfield := hfind f.name
    revert hfield
    generalize find f.name = value, find' f.name = value'
    rintro (⟨hvw⟩ | _)
    · exact (hf.read _ _ hvw).map fun a b hab => hmake a b hab
    · cases habsent : f.absent with
      | none => exact .error _
      | some a => exact .ok (hmake a a (hf.absent a habsent))

/-- Objects whose entries are related are read alike. -/
theorem FieldsReader.Respects.ofEntries {fs : FieldsReader α} {S : α → α → Prop}
    (hfs : fs.Respects S R) {o p : Object} (h : Entrywise R o p) :
    Both S (fs.ofEntries o) (fs.ofEntries p) := by
  unfold FieldsReader.ofEntries
  rw [FieldsReader.forM_check h hfs.check]
  exact (Outcome.both_eq_iff.2 rfl).bind fun _ _ _ => hfs.build _ _ h.get?

end Records

end Json

namespace Query

open Json.Object (Entrywise)

variable {R : String → Json → Json → Prop}

/-- Named literals whose values are related become objects whose entries are. -/
theorem Literal.fieldsToJson_both (supplied : Json.Object) {ls ms : List (String × Literal)}
    (h : List.Forall₂ (fun l m => l.1 = m.1 ∧
      Both (R l.1) (l.2.toJson supplied) (m.2.toJson supplied)) ls ms)
    {done done' : Json.Object} (hdone : Entrywise R done done') :
    Both (Entrywise R) (fieldsToJson supplied done ls) (fieldsToJson supplied done' ms) := by
  induction h generalizing done done' with
  | nil =>
      rw [fieldsToJson, fieldsToJson]
      exact .ok hdone
  | @cons l m ls ms hfirst hrest ih =>
      obtain ⟨name, l⟩ := l
      obtain ⟨name', m⟩ := m
      obtain ⟨rfl, hvalues⟩ := hfirst
      rw [fieldsToJson, fieldsToJson]
      exact hvalues.bind fun v w hvw => ih (hdone.insert hvw)

/-- Equal literals may stand around the ones that are replaced. -/
theorem Literal.forall₂_around (supplied : Json.Object) (hrefl : ∀ key v, R key v v)
    (before after : List (String × Literal)) {name : String} {l m : Literal}
    (h : Both (R name) (l.toJson supplied) (m.toJson supplied)) :
    List.Forall₂ (fun l m => l.1 = m.1 ∧
        Both (R l.1) (l.2.toJson supplied) (m.2.toJson supplied))
      (before ++ (name, l) :: after) (before ++ (name, m) :: after) := by
  have hsame (ls : List (String × Literal)) : List.Forall₂ (fun l m => l.1 = m.1 ∧
      Both (R l.1) (l.2.toJson supplied) (m.2.toJson supplied)) ls ls := by
    refine List.forall₂_same.2 fun l _ => ⟨rfl, ?_⟩
    cases l.2.toJson supplied with
    | ok v => exact .ok (hrefl l.1 v)
    | error e => exact .error e
  exact List.rel_append (hsame before) (.cons ⟨rfl, h⟩ (hsame after))

end Query

end DexCache
