import DexCache.Settings.Document.Parser
import DexCache.Settings.Path
import DexCache.Settings.Reader

/-!
# Loading settings

Settings come from a document, and from variables of the environment, which override it.
The keys at the top of a document are paths, and so is the name of a variable behind its
prefix, in lower case and with points for pairs of underscores.
-/

namespace DexCache.Settings

/-- Where the settings cannot be loaded from. -/
inductive LoadFault where
  | document
  | value (fault : Json.Fault)
deriving DecidableEq, Repr

/-- What the names of all variables begin with, in lower case. -/
def variablePrefix : List Char := "mirror__".toList

/-- Points in the place of pairs of underscores. -/
def pointed : List Char → List Char
  | '_' :: '_' :: rest => '.' :: pointed rest
  | c :: rest => c :: pointed rest
  | [] => []

/-- The key that a variable sets. -/
def variableKey? (name : String) : Option (List Char) :=
  let name := Text.lowercase name.toList
  if variablePrefix.isPrefixOf name then some (pointed (name.drop variablePrefix.length))
  else none

/-- The value of a variable: a truth value, an integer, a double or else its text. -/
def variableValue (text : String) : Json :=
  if Loose.lower text = "true" then .bool true
  else if Loose.lower text = "false" then .bool false
  else
    let asInt := (Decimal.signedOfChars? text.toList).filter fun i =>
      decide (-9223372036854775808 ≤ i ∧ i ≤ 9223372036854775807)
    match asInt, Decimal.doubleOfChars? text.toList with
    | some i, _ => .int i
    | none, some d => .float d
    | none, none => .str text

/-- Sets everything in a document. -/
def applyDocument (tables : Json.Object) (entry : String × Json) : Json.Object :=
  setKey entry.1.toList entry.2 tables

/-- Sets what a variable sets. -/
def applyVariable (tables : Json.Object) (v : String × String) : Json.Object :=
  match variableKey? v.1 with
  | some key => setKey key (variableValue v.2) tables
  | none => tables

/-- Loads settings from a document, if there is one, and variables. -/
def load (document : Option String) (environment : List (String × String)) :
    Except LoadFault Settings := do
  let tables ← match document with
    | none => .ok []
    | some text =>
      match Document.parse? text with
      | some entries => .ok (entries.foldl applyDocument [])
      | none => .error .document
  (reader .loose (.obj (environment.foldl applyVariable tables))).mapError .value

end DexCache.Settings
