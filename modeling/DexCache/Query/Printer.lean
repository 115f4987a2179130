import DexCache.Decimal.Text
import DexCache.Query.Operation
import DexCache.Text.Quoted

/-!
# Operations as text

The written form of an operation: one line, single blanks between fields, commas
between arguments.  Strings are written in JSON form and doubles with the fewest
digits that read back.
-/

namespace DexCache.Query

namespace Literal

mutual
/-- The text of a literal. -/
def chars : Literal → List Char
  | .null => "null".toList
  | .bool true => "true".toList
  | .bool false => "false".toList
  | .int i => Decimal.intChars i.toInt
  | .float d => Decimal.Form.literal.chars d
  | .str s => Text.jsonQuoted s.toList
  | .enumValue name => name.toList
  | .list items => '[' :: (itemChars items ++ [']'])
  | .object fields => '{' :: (fieldChars fields ++ ['}'])
  | .var name => '$' :: name.toList

/-- Items separated by a comma and a blank. -/
def itemChars : List Literal → List Char
  | [] => []
  | [item] => chars item
  | item :: rest => chars item ++ ',' :: ' ' :: itemChars rest

/-- Named literals separated by a comma and a blank. -/
def fieldChars : List (String × Literal) → List Char
  | [] => []
  | [(name, value)] => name.toList ++ ':' :: ' ' :: chars value
  | (name, value) :: rest =>
    name.toList ++ ':' :: ' ' :: (chars value ++ ',' :: ' ' :: fieldChars rest)
end

/-- The text of a literal as a string. -/
def text (l : Literal) : String :=
  String.ofList l.chars

end Literal

/-- Arguments in parentheses, nothing where there are none. -/
def argumentChars (arguments : List (String × Literal)) : List Char :=
  if arguments.isEmpty then [] else '(' :: (Literal.fieldChars arguments ++ [')'])

namespace Field

mutual
/-- The text of a field. -/
def chars : Field → List Char
  | ⟨alias?, name, arguments, subfields⟩ =>
    (match alias? with
      | some a => a.toList ++ [':', ' ']
      | none => []) ++
    name.toList ++ argumentChars arguments ++
    (if subfields.isEmpty then [] else ' ' :: '{' :: ' ' :: (fieldsChars subfields ++ [' ', '}']))

/-- Fields separated by a blank. -/
def fieldsChars : List Field → List Char
  | [] => []
  | [f] => chars f
  | f :: rest => chars f ++ ' ' :: fieldsChars rest
end

end Field

/-- The text of a declared variable. -/
def VariableDefinition.chars (d : VariableDefinition) : List Char :=
  '$' :: d.name.toList ++ ':' :: ' ' :: d.typeName.toList ++
    (match d.default? with
      | some value => ' ' :: '=' :: ' ' :: value.chars
      | none => [])

/-- Declared variables separated by a comma and a blank. -/
def definitionChars : List VariableDefinition → List Char
  | [] => []
  | [d] => d.chars
  | d :: rest => d.chars ++ ',' :: ' ' :: definitionChars rest

namespace Operation

/-- The text of an operation. -/
def chars (op : Operation) : List Char :=
  op.kind.keyword.toList ++
  (match op.name with
    | some name => ' ' :: name.toList
    | none => []) ++
  (if op.variableDefinitions.isEmpty then []
    else '(' :: (definitionChars op.variableDefinitions ++ [')'])) ++
  ' ' :: '{' :: ' ' :: (Field.fieldsChars op.selections ++ [' ', '}'])

/-- The text of an operation as a string. -/
def text (op : Operation) : String :=
  String.ofList op.chars

end Operation

end DexCache.Query
