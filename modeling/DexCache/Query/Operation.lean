import DexCache.Query.Literal

/-!
# Operations

A query document is one operation: its kind, an optional name, declared variables and
a tree of selected fields.  This module holds the trees and the operations on them
that need neither text nor answers.
-/

namespace DexCache.Query

/-- One selected field with its arguments and sub-selections. -/
structure Field where
  alias? : Option String := none
  name : String
  arguments : List (String × Literal) := []
  subfields : List Field := []
deriving Repr, Inhabited

namespace Field

mutual
/-- Are two fields equal? -/
def same : Field → Field → Bool
  | ⟨a, n, xs, fs⟩, ⟨b, m, ys, gs⟩ =>
    decide (a = b) && decide (n = m) && decide (xs = ys) && sameAll fs gs

/-- Are two selection sets equal, field by field? -/
def sameAll : List Field → List Field → Bool
  | [], [] => true
  | f :: fs, g :: gs => same f g && sameAll fs gs
  | _, _ => false
end

mutual
theorem same_iff : ∀ {f g : Field}, same f g = true ↔ f = g
  | ⟨_, _, _, fs⟩, ⟨_, _, _, gs⟩ => by simp [same, sameAll_iff, and_assoc]

theorem sameAll_iff : ∀ {fs gs : List Field}, sameAll fs gs = true ↔ fs = gs
  | [], gs => by cases gs <;> simp [sameAll]
  | _ :: fs, gs => by cases gs <;> simp [sameAll, same_iff, sameAll_iff]
end

instance : DecidableEq Field := fun _ _ => decidable_of_iff _ same_iff

/-- A field of this name with nothing else. -/
def plain (name : String) : Field := { name }

/-- A field of this name with sub-selections. -/
def withSubfields (name : String) (subfields : List Field) : Field := { name, subfields }

/-- The key under which a field appears in an answer. -/
def responseKey (f : Field) : String := f.alias?.getD f.name

/-- Has the field no sub-selections? -/
def isLeaf (f : Field) : Bool := f.subfields.isEmpty

/-- The first sub-selection of this name. -/
def subfield? (f : Field) (name : String) : Option Field :=
  f.subfields.find? fun g => g.name = name

mutual
/-- The variables used in a field, sub-selections included. -/
def variableNames : Field → List String
  | ⟨_, _, arguments, subfields⟩ =>
    Literal.fieldVariables arguments ++ allVariables subfields

/-- The variables used in a selection set. -/
def allVariables : List Field → List String
  | [] => []
  | f :: fs => variableNames f ++ allVariables fs
end

end Field

/-- A declared variable with its type as written. -/
structure VariableDefinition where
  name : String
  typeName : String
  default? : Option Literal := none
deriving DecidableEq, Repr, Inhabited

/-- What an operation does. -/
inductive Kind where
  | query
  | mutation
  | subscription
deriving DecidableEq, Repr, Inhabited

/-- The word that opens an operation of this kind. -/
def Kind.keyword : Kind → String
  | .query => "query"
  | .mutation => "mutation"
  | .subscription => "subscription"

/-- A parsed document. -/
structure Operation where
  kind : Kind := .query
  name : Option String := none
  variableDefinitions : List VariableDefinition := []
  selections : List Field
deriving DecidableEq, Repr, Inhabited

namespace Operation

/-- The names of the variables used anywhere in the selections, with repetitions. -/
def referenced (op : Operation) : List String :=
  Field.allVariables op.selections

/-- Drops the definitions of variables that no selection uses. -/
def prune (op : Operation) : Operation :=
  { op with
    variableDefinitions := op.variableDefinitions.filter fun d => d.name ∈ op.referenced }

end Operation

end DexCache.Query
