import DexCache.Decimal.Double

/-!
# Literals of query documents

The values that arguments take.  Enum values stay apart from strings and variables
stay unresolved, so that a document can be written again as it was read.
-/

namespace DexCache.Query

/-- A value in a query document. -/
inductive Literal where
  | null
  | bool (value : Bool)
  | int (value : Int64)
  | float (value : Double)
  | str (value : String)
  | enumValue (name : String)
  | list (items : List Literal)
  | object (fields : List (String × Literal))
  | var (name : String)
deriving Repr, Inhabited

namespace Literal

mutual
/-- Are two literals equal? -/
def same : Literal → Literal → Bool
  | .null, .null => true
  | .bool a, .bool b => decide (a = b)
  | .int a, .int b => decide (a = b)
  | .float a, .float b => decide (a = b)
  | .str a, .str b => decide (a = b)
  | .enumValue a, .enumValue b => decide (a = b)
  | .list a, .list b => sameItems a b
  | .object a, .object b => sameFields a b
  | .var a, .var b => decide (a = b)
  | _, _ => false

/-- Are two lists of literals equal, item by item? -/
def sameItems : List Literal → List Literal → Bool
  | [], [] => true
  | a :: as, b :: bs => same a b && sameItems as bs
  | _, _ => false

/-- Are two lists of named literals equal, field by field? -/
def sameFields : List (String × Literal) → List (String × Literal) → Bool
  | [], [] => true
  | (k, a) :: as, (l, b) :: bs => decide (k = l) && same a b && sameFields as bs
  | _, _ => false
end

mutual
theorem same_iff : ∀ {a b : Literal}, same a b = true ↔ a = b
  | .null, b => by cases b <;> simp [same]
  | .bool _, b => by cases b <;> simp [same]
  | .int _, b => by cases b <;> simp [same]
  | .float _, b => by cases b <;> simp [same]
  | .str _, b => by cases b <;> simp [same]
  | .enumValue _, b => by cases b <;> simp [same]
  | .list _, b => by cases b <;> simp [same, sameItems_iff]
  | .object _, b => by cases b <;> simp [same, sameFields_iff]
  | .var _, b => by cases b <;> simp [same]

theorem sameItems_iff : ∀ {as bs : List Literal}, sameItems as bs = true ↔ as = bs
  | [], bs => by cases bs <;> simp [sameItems]
  | _ :: as, bs => by cases bs <;> simp [sameItems, same_iff, sameItems_iff]

theorem sameFields_iff :
    ∀ {as bs : List (String × Literal)}, sameFields as bs = true ↔ as = bs
  | [], bs => by cases bs <;> simp [sameFields]
  | (_, _) :: as, bs => by
    cases bs <;> simp [sameFields, same_iff, sameFields_iff, Prod.ext_iff]
end

instance : DecidableEq Literal := fun _ _ => decidable_of_iff _ same_iff

mutual
/-- The variables a literal uses, in order, with repetitions. -/
def variableNames : Literal → List String
  | .var name => [name]
  | .list items => itemVariables items
  | .object fields => fieldVariables fields
  | _ => []

/-- The variables of a list of literals. -/
def itemVariables : List Literal → List String
  | [] => []
  | item :: rest => variableNames item ++ itemVariables rest

/-- The variables of a list of named literals. -/
def fieldVariables : List (String × Literal) → List String
  | [] => []
  | (_, value) :: rest => variableNames value ++ fieldVariables rest
end

end Literal

end DexCache.Query
