import DexCache.Json.Value

/-!
# Paths into settings

A path names a place in a tree of settings: a name, then further names behind points and
indices in brackets.  Setting a value at a path makes the tables and arrays on its way,
replacing whatever else is there; a table set in the place of a table is merged into it.
-/

namespace DexCache.Settings

/-- A step of a path. -/
inductive Step where
  | name (name : String)
  /-- An item of an array; a negative index counts from its end. -/
  | item (index : Int)
deriving DecidableEq, Repr

namespace Step

/-- May the character stand in a name? -/
def isNameChar (c : Char) : Bool :=
  c.isAlphanum || c = ' ' || c = '_' || c = '-'

/-- An index up to its closing bracket, blanks around it skipped. -/
def index? (cs : List Char) : Option (Int × List Char) :=
  let isBlank (c : Char) : Bool := c = ' ' || c = '\t'
  let (negative, cs) := match cs.dropWhile isBlank with
    | '-' :: rest => (true, rest)
    | rest => (false, rest)
  let (digits, rest) := cs.span Char.isDigit
  let n := Nat.ofDigitChars 10 digits 0
  match rest.dropWhile isBlank with
  | ']' :: rest =>
    if digits.isEmpty || 9223372036854775807 < n then none
    else some (if negative then -(n : Int) else n, rest)
  | _ => none

/-- The steps that a text stands for behind the first; `fuel` bounds their number. -/
def rest? : Nat → List Char → Option (List Step)
  | _, [] => some []
  | 0, _ :: _ => none
  | fuel + 1, c :: cs =>
    if c = '.' then
      let (run, rest) := cs.span isNameChar
      if run.isEmpty then none
      else (rest? fuel rest).map fun steps => .name (String.ofList run) :: steps
    else if c = '[' then do
      let (i, rest) ← index? cs
      let steps ← rest? fuel rest
      return .item i :: steps
    else none

/-- The steps that a text stands for. -/
def ofChars? (cs : List Char) : Option (List Step) :=
  let (run, rest) := cs.span isNameChar
  if run.isEmpty then none
  else (rest? rest.length rest).map fun steps => .name (String.ofList run) :: steps

end Step

/-- A value as a table; what is none becomes an empty one. -/
def asTable : Json → Json.Object
  | .obj entries => entries
  | _ => []

/-- A value as an array; what is none becomes an empty one. -/
def asItems : Json → List Json
  | .arr items => items
  | _ => []

mutual
/-- Sets a name; a table is merged into what the name stands for. -/
def place (name : String) : Json → Json.Object → Json.Object
  | .obj entries, table =>
    let inner := (table.get? name).getD (.obj [])
    table.insert name (if entries.isEmpty then inner else .obj (placeAll entries (asTable inner)))
  | value, table => table.insert name value

/-- Sets all names of a table. -/
def placeAll : List (String × Json) → Json.Object → Json.Object
  | [], table => table
  | (name, value) :: rest, table => placeAll rest (place name value table)
end

/-- The position that an index means in an array of some length. -/
def position (index : Int) (length : Nat) : Nat :=
  if 0 ≤ index then index.toNat else length - index.natAbs

/-- Replaces an item; an array that is too short is filled up with nulls. -/
def setItem (items : List Json) (index : Nat) (value : Json) : List Json :=
  (items ++ List.replicate (index + 1 - items.length) Json.null).set index value

/-- Sets a value at the end of a path. -/
def setAt (value : Json) : List Step → Json → Json
  | [], _ => value
  | [.name name], target => .obj (place name value (asTable target))
  | .name name :: steps, target =>
    let table := asTable target
    .obj (table.insert name (setAt value steps ((table.get? name).getD .null)))
  | .item index :: steps, target =>
    let items := asItems target
    let i := position index items.length
    .arr (setItem items i (setAt value steps (items[i]?.getD .null)))

/-- Sets a value under a key, which is a path if it can be read as one. -/
def setKey (key : List Char) (value : Json) (tables : Json.Object) : Json.Object :=
  match Step.ofChars? key with
  | some steps => asTable (setAt value steps (.obj tables))
  | none => place (String.ofList key) value tables

end DexCache.Settings
