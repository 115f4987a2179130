import DexCache.Query.Operation
import DexCache.Query.Token
import DexCache.Text.Utf8

/-!
# Reading operations

Reading is ordered choice: an optional part that does not parse is simply not there.
So a document is refused where a selection set stops: where an opening brace, a first
field, a closing brace or the end of the text was expected.  Fragments and directives
are not part of the grammar.

The readers of nested parts take a fuel that the length of the text covers.
-/

namespace DexCache.Query

/-- Where a document was refused: a byte offset, and the text from there on. -/
structure Stop where
  offset : Nat
  snippet : String
deriving DecidableEq, Repr

namespace Parser

mutual
/-- A literal. -/
def value? : Nat → List Char → Option (Literal × List Char)
  | 0, _ => none
  | fuel + 1, cs =>
    match cs with
    | '$' :: rest => (name? rest).map fun (name, rest) => (.var name, rest)
    | '"' :: rest =>
      (stringRest? rest).map fun (s, rest) => (.str (String.ofList s), rest)
    | '[' :: rest =>
      let (items, rest) := items fuel (skipIgnored rest)
      (word? [']'] rest).map fun rest => (.list items, rest)
    | '{' :: rest =>
      let (fields, rest) := namedValues fuel (skipIgnored rest)
      (word? ['}'] rest).map fun rest => (.object fields, rest)
    | _ =>
      match number? cs with
      | some result => some result
      | none =>
        (name? cs).map fun (name, rest) =>
          (if name = "true" then .bool true
            else if name = "false" then .bool false
            else if name = "null" then .null
            else .enumValue name, rest)

/-- As many literals as there are. -/
def items : Nat → List Char → List Literal × List Char
  | 0, cs => ([], cs)
  | fuel + 1, cs =>
    match value? fuel cs with
    | none => ([], cs)
    | some (item, rest) =>
      let (more, rest) := items fuel (skipIgnored rest)
      (item :: more, rest)

/-- A name, a colon and a literal. -/
def namedValue? : Nat → List Char → Option ((String × Literal) × List Char)
  | 0, _ => none
  | fuel + 1, cs => do
    let (name, rest) ← name? cs
    let rest ← word? [':'] (skipIgnored rest)
    let (value, rest) ← value? fuel (skipIgnored rest)
    return ((name, value), rest)

/-- As many named literals as there are. -/
def namedValues : Nat → List Char → List (String × Literal) × List Char
  | 0, cs => ([], cs)
  | fuel + 1, cs =>
    match namedValue? fuel cs with
    | none => ([], cs)
    | some (field, rest) =>
      let (more, rest) := namedValues fuel (skipIgnored rest)
      (field :: more, rest)
end

/-- Arguments in parentheses. -/
def arguments? (fuel : Nat) (cs : List Char) : Option (List (String × Literal) × List Char) :=
  match cs with
  | '(' :: rest =>
    let (arguments, rest) := namedValues fuel (skipIgnored rest)
    (word? [')'] rest).map fun rest => (arguments, rest)
  | _ => none

/-- The name behind a colon. -/
def aliased? : List Char → Option (String × List Char)
  | ':' :: rest => name? (skipIgnored rest)
  | _ => none

mutual
/-- A field; everything behind its name is optional. -/
def field? : Nat → List Char → Option (Field × List Char)
  | 0, _ => none
  | fuel + 1, cs =>
    match name? cs with
    | none => none
    | some (first, rest) =>
      let rest := skipIgnored rest
      let (alias?, name, rest) := match aliased? rest with
        | some (name, rest) => (some first, name, rest)
        | none => (none, first, rest)
      let rest := skipIgnored rest
      let (arguments, rest) := (arguments? fuel rest).getD ([], rest)
      let rest := skipIgnored rest
      let (subfields, rest) := match selectionSet fuel rest with
        | .ok (subfields, rest) => (subfields, rest)
        | .error _ => ([], rest)
      some ({ alias?, name, arguments, subfields }, rest)

/-- As many fields as there are. -/
def fields : Nat → List Char → List Field × List Char
  | 0, cs => ([], cs)
  | fuel + 1, cs =>
    match field? fuel cs with
    | none => ([], cs)
    | some (f, rest) =>
      let (more, rest) := fields fuel (skipIgnored rest)
      (f :: more, rest)

/-- One or more fields in braces, or the text where they stop. -/
def selectionSet : Nat → List Char → Except (List Char) (List Field × List Char)
  | 0, cs => .error cs
  | fuel + 1, cs =>
    match cs with
    | '{' :: rest =>
      match fields fuel (skipIgnored rest) with
      | ([], rest) => .error rest
      | (selections, '}' :: rest) => .ok (selections, rest)
      | (_, rest) => .error rest
    | _ => .error cs
end

/-- The declaration of a variable. -/
def definition? (fuel : Nat) (cs : List Char) : Option (VariableDefinition × List Char) :=
  match cs with
  | '$' :: rest => do
    let (name, rest) ← name? rest
    let rest ← word? [':'] (skipIgnored rest)
    let (typeName, rest) ← typeRef? (skipIgnored rest)
    let rest := skipIgnored rest
    let value := match rest with
      | '=' :: more => value? fuel (skipIgnored more)
      | _ => none
    match value with
    | some (value, rest) => return ({ name, typeName, default? := some value }, rest)
    | none => return ({ name, typeName }, rest)
  | _ => none

/-- As many declarations as there are. -/
def definitions : Nat → List Char → List VariableDefinition × List Char
  | 0, cs => ([], cs)
  | fuel + 1, cs =>
    match definition? fuel cs with
    | none => ([], cs)
    | some (d, rest) =>
      let (more, rest) := definitions fuel (skipIgnored rest)
      (d :: more, rest)

/-- Declarations in parentheses. -/
def definitionList? (fuel : Nat) (cs : List Char) :
    Option (List VariableDefinition × List Char) :=
  match cs with
  | '(' :: rest =>
    let (definitions, rest) := definitions fuel (skipIgnored rest)
    (word? [')'] rest).map fun rest => (definitions, rest)
  | _ => none

/-- The word that opens an operation; nothing need separate it from what follows. -/
def kind? (cs : List Char) : Option (Kind × List Char) :=
  [Kind.query, .mutation, .subscription].findSome? fun kind =>
    (word? kind.keyword.toList cs).map fun rest => (kind, rest)

/-- An operation that starts with its kind. -/
def named? (fuel : Nat) (cs : List Char) : Option (Operation × List Char) := do
  let (kind, rest) ← kind? cs
  let rest := skipIgnored rest
  let (name, rest) := match name? rest with
    | some (name, rest) => (some name, rest)
    | none => (none, rest)
  let rest := skipIgnored rest
  let (variableDefinitions, rest) := (definitionList? fuel rest).getD ([], rest)
  match selectionSet fuel (skipIgnored rest) with
  | .ok (selections, rest) => return ({ kind, name, variableDefinitions, selections }, rest)
  | .error _ => none

/-- An operation, or the text where its selection set stops. -/
def operation (fuel : Nat) (cs : List Char) :
    Except (List Char) (Operation × List Char) :=
  match named? fuel cs with
  | some result => .ok result
  | none => (selectionSet fuel cs).map fun (selections, rest) => ({ selections }, rest)

/-- A whole document, or the text from where it was refused. -/
def document (cs : List Char) : Except (List Char) Operation :=
  match operation (2 * cs.length + 2) (skipIgnored cs) with
  | .error rest => .error rest
  | .ok (op, rest) =>
    match skipIgnored rest with
    | [] => .ok op
    | rest => .error rest

end Parser

/-- Reads a document. -/
def Operation.parse (document : String) : Except Stop Operation :=
  match Parser.document document.toList with
  | .ok op => .ok op
  | .error rest =>
    .error {
      offset := document.utf8ByteSize - Text.Utf8.size rest
      snippet := String.ofList (rest.take 24) }

end DexCache.Query
