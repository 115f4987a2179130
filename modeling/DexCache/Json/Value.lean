import DexCache.Decimal.Double

/-!
# JSON values

Objects are lists of entries, because the order of keys is part of every answer.
Writing an existing key keeps its place.  Taking a key out moves the last entry into
the hole, so it reorders what is left; the lemmas below say what each operation does
to a look-up.
-/

namespace DexCache

/-- A JSON value.  Integers and doubles are told apart; objects keep their order. -/
inductive Json where
  | null
  | bool (value : Bool)
  | int (value : Int)
  | float (value : Double)
  | str (value : String)
  | arr (items : List Json)
  | obj (entries : List (String × Json))
deriving Repr, Inhabited

/-- The entries of a JSON object in order. -/
abbrev Json.Object := List (String × Json)

namespace Json

mutual
/-- Are two values equal, down to the order of keys? -/
def same : Json → Json → Bool
  | .null, .null => true
  | .bool a, .bool b => decide (a = b)
  | .int a, .int b => decide (a = b)
  | .float a, .float b => decide (a = b)
  | .str a, .str b => decide (a = b)
  | .arr a, .arr b => sameItems a b
  | .obj a, .obj b => sameEntries a b
  | _, _ => false

/-- Are two lists of values equal, item by item? -/
def sameItems : List Json → List Json → Bool
  | [], [] => true
  | a :: as, b :: bs => same a b && sameItems as bs
  | _, _ => false

/-- Are two lists of entries equal, entry by entry? -/
def sameEntries : List (String × Json) → List (String × Json) → Bool
  | [], [] => true
  | (k, a) :: as, (l, b) :: bs => decide (k = l) && same a b && sameEntries as bs
  | _, _ => false
end

mutual
theorem same_iff : ∀ {a b : Json}, same a b = true ↔ a = b
  | .null, b => by cases b <;> simp [same]
  | .bool _, b => by cases b <;> simp [same]
  | .int _, b => by cases b <;> simp [same]
  | .float _, b => by cases b <;> simp [same]
  | .str _, b => by cases b <;> simp [same]
  | .arr _, b => by cases b <;> simp [same, sameItems_iff]
  | .obj _, b => by cases b <;> simp [same, sameEntries_iff]

theorem sameItems_iff : ∀ {as bs : List Json}, sameItems as bs = true ↔ as = bs
  | [], bs => by cases bs <;> simp [sameItems]
  | a :: as, bs => by cases bs <;> simp [sameItems, same_iff, sameItems_iff]

theorem sameEntries_iff :
    ∀ {as bs : List (String × Json)}, sameEntries as bs = true ↔ as = bs
  | [], bs => by cases bs <;> simp [sameEntries]
  | (_, _) :: as, bs => by
    cases bs <;> simp [sameEntries, same_iff, sameEntries_iff, Prod.ext_iff]
end

instance : DecidableEq Json := fun _ _ => decidable_of_iff _ same_iff

namespace Object

/-- The value under a key. -/
def get? : Object → String → Option Json
  | [], _ => none
  | (k, v) :: rest, key => if k = key then some v else get? rest key

/-- Does the object have this key? -/
def contains (o : Object) (key : String) : Bool :=
  (o.get? key).isSome

/-- The keys in order. -/
def keys (o : Object) : List String :=
  o.map Prod.fst

/-- Sets a key: in its place if it is there, else at the end. -/
def insert : Object → String → Json → Object
  | [], key, value => [(key, value)]
  | (k, v) :: rest, key, value =>
    if k = key then (key, value) :: rest else (k, v) :: insert rest key value

/-- Takes a key out; the last entry moves into its place. -/
def swapErase (o : Object) (key : String) : Object :=
  let (before, found) := o.span fun e => e.1 ≠ key
  match found with
  | [] => o
  | _ :: after =>
    match after.getLast? with
    | none => before
    | some last => before ++ last :: after.dropLast

/-- The object written by setting entries from left to right. -/
def ofEntries (entries : List (String × Json)) : Object :=
  entries.foldl (fun o e => o.insert e.1 e.2) []

/-- Adds to `target` the entries of `source` whose keys it lacks. -/
def fill (target source : Object) : Object :=
  source.foldl (fun o e => if o.contains e.1 then o else o.insert e.1 e.2) target

@[simp] theorem get?_nil (key : String) : get? [] key = none := rfl

theorem get?_insert_self (o : Object) (key : String) (value : Json) :
    (o.insert key value).get? key = some value := by
  induction o with
  | nil => simp [insert, get?]
  | cons e rest ih =>
    obtain ⟨k, v⟩ := e
    by_cases h : k = key <;> simp [insert, get?, h, ih]

theorem get?_insert_of_ne (o : Object) {key other : String} (value : Json)
    (h : other ≠ key) :
    (o.insert key value).get? other = o.get? other := by
  induction o with
  | nil => simp [insert, get?, Ne.symm h]
  | cons e rest ih =>
    obtain ⟨k, v⟩ := e
    by_cases hk : k = key
    · subst hk; simp [insert, get?, Ne.symm h]
    · simp [insert, get?, hk, ih]

theorem keys_insert (o : Object) (key : String) (value : Json) :
    (o.insert key value).keys = if key ∈ o.keys then o.keys else o.keys ++ [key] := by
  induction o with
  | nil => simp [insert, keys]
  | cons e rest ih =>
    obtain ⟨k, v⟩ := e
    by_cases hk : k = key
    · simp [insert, keys, hk]
    · have hk' : ¬ key = k := fun h => hk h.symm
      simp only [insert, hk, if_false, keys, List.map_cons, List.mem_cons, hk', false_or]
      simp only [keys] at ih
      rw [ih]
      by_cases hr : key ∈ rest.map Prod.fst <;> simp [hr]

end Object

/-- The value of a field of an object. -/
def get? : Json → String → Option Json
  | .obj entries, key => Object.get? entries key
  | _, _ => none

/-- The text of a string value. -/
def str? : Json → Option String
  | .str s => some s
  | _ => none

/-- The items of an array. -/
def items? : Json → Option (List Json)
  | .arr items => some items
  | _ => none

/-- An optional value, null where there is none. -/
def ofOption (write : α → Json) : Option α → Json
  | none => .null
  | some a => write a

/-- A list of texts. -/
def ofStrings (texts : List String) : Json :=
  .arr (texts.map .str)

/-- A natural number. -/
def ofNat (n : Nat) : Json :=
  .int n

end Json

end DexCache
