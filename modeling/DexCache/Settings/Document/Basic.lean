import DexCache.Json.Value

/-!
# The tables of a settings document

A document is a tree of tables.  A table comes from a header, stands on the way to the table
of a header, or comes from the points in a key; only the first two can be added to by later
headers, and a table is opened by a header at most once.  A header in double brackets adds
a row to a list of tables, and headers that lead through such a list mean its newest row.

No name is given twice: the functions below return nothing when one would be.
-/

namespace DexCache.Settings.Document

/-- How a table came to be. -/
inductive Origin where
  /-- From the points in a key. -/
  | dotted
  /-- On the way to the table of a header. -/
  | implied
  /-- From a header of its own. -/
  | opened
deriving DecidableEq, Repr

/-- What a name stands for. -/
inductive Node where
  | value (value : Json)
  | table (origin : Origin) (entries : List (String × Node))
  /-- A list of tables, the newest apart. -/
  | rows (older : List Node) (newest : List (String × Node))

/-- The names of a table. -/
abbrev Entries := List (String × Node)

/-- Replaces what a name stands for. -/
def Entries.set (name : String) (node : Node) (entries : Entries) : Entries :=
  entries.map fun e => if e.1 = name then (name, node) else e

/-- Two tables as one, if they have no name in common. -/
def Entries.join? (front back : Entries) : Option Entries :=
  if back.any fun e => (front.lookup e.1).isSome then none else some (front ++ back)

/-- Adds a key with its value, making the tables that its points ask for. -/
def Entries.insert? : List String → Json → Entries → Option Entries
  | [], _, _ => none
  | [name], value, entries =>
    if (entries.lookup name).isSome then none else some (entries ++ [(name, .value value)])
  | name :: path, value, entries =>
    match entries.lookup name with
    | none => (insert? path value []).map fun inner => entries ++ [(name, .table .dotted inner)]
    | some (.table .dotted inner) => (insert? path value inner).map fun inner =>
        entries.set name (.table .dotted inner)
    | some _ => none

/-- Adds the table of a header. -/
def Entries.open? (name : String) (table entries : Entries) : Option Entries :=
  match entries.lookup name with
  | none => some (entries ++ [(name, .table .opened table)])
  | some (.table .implied inner) =>
    (Entries.join? inner table).map fun inner => entries.set name (.table .opened inner)
  | some _ => none

/-- Adds a row to a list of tables. -/
def Entries.addRow? (name : String) (row entries : Entries) : Option Entries :=
  match entries.lookup name with
  | none => some (entries ++ [(name, .rows [] row)])
  | some (.rows older newest) =>
    some (entries.set name (.rows (older ++ [.table .opened newest]) row))
  | some _ => none

/-- Adds something below the tables that a path of names leads through. -/
def Entries.below? (add : Entries → Option Entries) : List String → Entries → Option Entries
  | [], entries => add entries
  | name :: path, entries =>
    match entries.lookup name with
    | none => (below? add path []).map fun inner => entries ++ [(name, .table .implied inner)]
    | some (.table .dotted _) | some (.value _) => none
    | some (.table origin inner) => (below? add path inner).map fun inner =>
        entries.set name (.table origin inner)
    | some (.rows older newest) => (below? add path newest).map fun newest =>
        entries.set name (.rows older newest)

/-- What stands below one header. -/
structure Section where
  /-- The tables on the way to the one that is opened. -/
  path : List String
  name : String
  /-- Does the header have double brackets? -/
  isRow : Bool
  table : Entries

/-- Adds a section to a document. -/
def Section.addTo? (s : Section) (document : Entries) : Option Entries :=
  Entries.below? (if s.isRow then Entries.addRow? s.name s.table
    else Entries.open? s.name s.table) s.path document

mutual
/-- The value that a node amounts to. -/
def Node.toJson : Node → Json
  | .value v => v
  | .table _ entries => .obj (entriesToJson entries)
  | .rows older newest => .arr (nodesToJson older ++ [.obj (entriesToJson newest)])

/-- The values of the names of a table. -/
def entriesToJson : List (String × Node) → Json.Object
  | [] => []
  | (name, node) :: rest => (name, node.toJson) :: entriesToJson rest

/-- The values of several nodes. -/
def nodesToJson : List Node → List Json
  | [] => []
  | node :: rest => node.toJson :: nodesToJson rest
end

end DexCache.Settings.Document
