import DexCache.Json.Fault

/-!
# Reading typed values from JSON

A reader turns a JSON value into a value of some type or gives the cause why not.
Records are read field by field in the order of the object, so the first bad entry of
the *input* is reported; only then are absent fields looked for, in the order of their
declaration.  Unknown entries are ignored.  A record can also be read from an array,
by position.
-/

namespace DexCache.Json

/-- Reads a value of a type. -/
abbrev Reader (α : Type) := Json → Except Fault α

namespace Reader

/-- A value of the wrong kind. -/
def mismatch (value : Json) (expected : String) : Except Fault α :=
  .error (.invalidType (.value value) expected)

/-- A text. -/
def string : Reader String
  | .str s => .ok s
  | v => mismatch v "a string"

/-- A truth value. -/
def boolean : Reader Bool
  | .bool b => .ok b
  | v => mismatch v "a boolean"

/-- An integer between two bounds. -/
def integer (type : String) (least greatest : Int) : Reader Int
  | .int i =>
    if least ≤ i ∧ i ≤ greatest then .ok i
    else .error (.invalidValue (.value (.int i)) type)
  | v => mismatch v type

/-- An unsigned integer of 64 bits. -/
def uint64 : Reader UInt64 := fun v =>
  (integer "u64" 0 18446744073709551615 v).map fun i => UInt64.ofNat i.toNat

/-- An unsigned integer of 32 bits. -/
def uint32 : Reader UInt32 := fun v =>
  (integer "u32" 0 4294967295 v).map fun i => UInt32.ofNat i.toNat

/-- A signed integer of 64 bits. -/
def int64 : Reader Int64 := fun v =>
  (integer "i64" (-9223372036854775808) 9223372036854775807 v).map Int64.ofInt

/-- A count or position. -/
def size : Reader Nat := fun v =>
  (integer "usize" 0 18446744073709551615 v).map Int.toNat

/-- A double; integers are converted. -/
def double : Reader Double
  | .int i => .ok (Double.ofInt i)
  | .float d => .ok d
  | v => mismatch v "f64"

/-- Null or a value. -/
def optional (read : Reader α) : Reader (Option α)
  | .null => .ok none
  | v => (read v).map some

/-- An array of values. -/
def list (read : Reader α) : Reader (List α)
  | .arr items => items.mapM read
  | v => mismatch v "a sequence"

/-- An object as it is. -/
def object : Reader Object
  | .obj entries => .ok entries
  | v => mismatch v "a map"

/-- Any value as it is. -/
def any : Reader Json := .ok

end Reader

/-- A field of a record: how it is read, and what it is when it is absent. -/
structure FieldReader (α : Type) where
  name : String
  read : Reader α
  /-- Its value when an object lacks it; `none` makes the field required. -/
  absent : Option α
  /-- Its value when an array is too short to hold it. -/
  beyond : Option α

namespace FieldReader

/-- A field that must be there. -/
def required (name : String) (read : Reader α) : FieldReader α :=
  ⟨name, read, none, none⟩

/-- A field that may be absent or null. -/
def optional (name : String) (read : Reader α) : FieldReader (Option α) :=
  ⟨name, .optional read, some none, none⟩

/-- A field with a default. -/
def default (name : String) (read : Reader α) (value : α) : FieldReader α :=
  ⟨name, read, some value, some value⟩

end FieldReader

/-- Reads a record's fields: each entry of an object is checked by itself, then the record is
built from look-ups; from an array it is built by position. -/
structure FieldsReader (α : Type) where
  /-- The names of the fields in the order of their declaration. -/
  names : List String
  /-- Checks one entry of an object. -/
  check : String → Json → Except Fault Unit
  /-- Builds the record from a look-up of entries. -/
  build : (String → Option Json) → Except Fault α
  /-- Builds the record from the first items of an array and returns the surplus ones.  A
  missing item without default is reported by its position. -/
  place : List Json → Except (Nat ⊕ Fault) (α × List Json)

namespace FieldsReader

/-- A record without fields. -/
def pure (a : α) : FieldsReader α where
  names := []
  check _ _ := .ok ()
  build _ := .ok a
  place items := .ok (a, items)

/-- The fields of one record, then one field more. -/
def andField (fs : FieldsReader (α → β)) (f : FieldReader α) : FieldsReader β where
  names := fs.names ++ [f.name]
  check key value :=
    if key = f.name then (f.read value).map fun _ => () else fs.check key value
  build find := do
    let make ← fs.build find
    match find f.name with
    | some value => (f.read value).map make
    | none =>
      match f.absent with
      | some a => .ok (make a)
      | none => .error (.missingField f.name)
  place items := do
    let (make, rest) ← fs.place items
    match rest with
    | item :: rest =>
      match f.read item with
      | .ok a => .ok (make a, rest)
      | .error e => .error (.inr e)
    | [] =>
      match f.beyond with
      | some a => .ok (make a, [])
      | none => .error (.inl fs.names.length)

/-- Reads the fields from the entries of an object. -/
def ofEntries (fs : FieldsReader α) (entries : Object) : Except Fault α := do
  entries.forM fun e => fs.check e.1 e.2
  fs.build (Object.get? entries)

/-- The length of a record in reports. -/
def lengthText (count : Nat) : String :=
  toString count ++ (if count = 1 then " element" else " elements")

/-- Reads the fields from the items of an array.  Surplus items are reported in one of two
ways: `buffered` tells whether the array stands inside a record whose entries were
collected before they were read. -/
def ofItems (fs : FieldsReader α) (type : String) (buffered : Bool) (items : List Json) :
    Except Fault α :=
  match fs.place items with
  | .error (.inr e) => .error e
  | .error (.inl position) =>
    .error (.invalidLength position
      ("struct " ++ type ++ " with " ++ lengthText fs.names.length))
  | .ok (a, []) => .ok a
  | .ok (_, _ :: _) =>
    .error (.invalidLength items.length
      (if buffered then lengthText fs.names.length ++ " in sequence"
        else "fewer elements in array"))

end FieldsReader

/-- Reads a record of the named type from an object or an array. -/
def Reader.record (type : String) (fs : FieldsReader α) (buffered : Bool := false) :
    Reader α
  | .obj entries => fs.ofEntries entries
  | .arr items => fs.ofItems type buffered items
  | v => mismatch v ("struct " ++ type)

/-- The variant that an object with a single entry, or a text, names; `payload` holds the
entry's value. -/
structure Variant where
  name : String
  payload : Option Json

/-- Reads the name and the payload of a variant that must be one of `names`. -/
def Reader.variant (names : List String) : Reader Variant
  | .str name => known name none
  | .obj [(name, payload)] => known name (some payload)
  | .obj entries =>
    .error (.invalidValue (.value (.obj entries)) "map with a single key")
  | v => mismatch v "string or map"
where
  /-- Checks the name against the known ones. -/
  known (name : String) (payload : Option Json) : Except Fault Variant :=
    if name ∈ names then .ok ⟨name, payload⟩ else .error (.unknownVariant name names)

/-- Reads a variant that carries no data. -/
def Reader.unitVariant (names : List String) : Reader String := fun v => do
  let found ← Reader.variant names v
  match found.payload with
  | none | some .null => return found.name
  | some payload => Reader.mismatch payload "unit"

/-- Reads a variant that carries data, and its payload. -/
def Reader.dataVariant (names : List String) : Reader (String × Json) := fun v => do
  let found ← Reader.variant names v
  match found.payload with
  | some payload => return (found.name, payload)
  | none => .error (.invalidType .unitVariant "newtype variant")

end DexCache.Json
