import DexCache.Json.Reader

/-!
# Kinds of entities

The store holds pairs and tokens.  Whatever it does with both alike is stated over the
class below: an entity has an identifier, its other data fall into groups that are
written on their own, and a patch replaces the data of exactly one group.
-/

namespace DexCache

/-- The kinds of entities. -/
inductive EntityKind where
  | pair
  | token
deriving DecidableEq, Repr, Inhabited

/-- The name of a kind in keys and answers. -/
def EntityKind.name : EntityKind → String
  | .pair => "pair"
  | .token => "token"

/-- Reads the name of a kind. -/
def EntityKind.reader : Json.Reader EntityKind := fun v =>
  (Json.Reader.unitVariant ["pair", "token"] v).map fun name =>
    if name = "pair" then .pair else .token

/-- The groups into which an entity's data fall, with the fields of each. -/
class FieldGroup (G : Type) where
  all : List G
  name : G → String
  fields : G → List String
  mem_all : ∀ g, g ∈ all

/-- The group behind a field of an entity; none for identifiers and unknown fields. -/
def FieldGroup.ofField? {G : Type} [FieldGroup G] (field : String) : Option G :=
  (FieldGroup.all (G := G)).find? fun g => field ∈ FieldGroup.fields g

/-- The group with this name. -/
def FieldGroup.ofName? {G : Type} [FieldGroup G] (name : String) : Option G :=
  (FieldGroup.all (G := G)).find? fun g => FieldGroup.name g = name

/-- Entities of type `α` with groups `G` and patches `P`. -/
class Entity (α : Type) (G P : outParam Type) [FieldGroup G] where
  kind : EntityKind
  id : α → String
  empty : String → α
  groupOf : P → G
  applyPatch : P → α → α
  toJson : α → Json
  id_empty : ∀ name, id (empty name) = name
  id_applyPatch : ∀ p a, id (applyPatch p a) = id a

namespace Json

/-- An optional text, null where there is none. -/
def ofText : Option String → Json :=
  ofOption .str

/-- An optional truth value. -/
def ofBool : Option Bool → Json :=
  ofOption .bool

/-- An optional double; one that is no number is null. -/
def ofDouble : Option Double → Json :=
  ofOption fun d => if d.isFinite then .float d else .null

/-- The text of the field that names an entity, looked up before all others. -/
def Reader.ownText (name : String) (entries : Object) : Except Fault String :=
  match entries.get? name with
  | some v => Reader.string v
  | none => .error (.missingField name)

end Json

end DexCache
