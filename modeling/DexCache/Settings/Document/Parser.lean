import DexCache.Settings.Document.Basic
import DexCache.Settings.Document.Moment

/-!
# Reading settings documents

A document is a text of lines: headers that open a table, keys with values, blank lines and
comments.  Values are texts, numbers, truth values, days and times, arrays, which may go
over several lines, and tables in braces, which may not.  Nested values and lines are read
with a fuel that the text's length covers.
-/

namespace DexCache.Settings.Document

/-- Skips blanks inside a line. -/
def skip (cs : List Char) : List Char :=
  cs.dropWhile isSpace

/-- What follows a comment and the end of its line, behind the hash sign. -/
def comment? (cs : List Char) : Option (List Char) :=
  match cs.dropWhile fun c => c = '\t' || 0x20 ≤ c.toNat with
  | [] => some []
  | '\n' :: rest => some rest
  | _ => none

/-- What follows the end of a line that has nothing left but blanks and a comment. -/
def lineEnd? (cs : List Char) : Option (List Char) :=
  match skip cs with
  | [] => some []
  | '\n' :: rest => some rest
  | '#' :: rest => comment? rest
  | _ => none

/-- Skips blanks, line ends and comments. -/
def gap? : Nat → List Char → Option (List Char)
  | 0, _ => none
  | fuel + 1, cs =>
    match skip cs with
    | '\n' :: rest => gap? fuel rest
    | '#' :: rest => (comment? rest).bind (gap? fuel)
    | rest => some rest

/-- A key, quoted or not; a quoted one stays on its line. -/
def key? (cs : List Char) : Option (String × List Char) :=
  match cs with
  | [] => none
  | c :: rest =>
    if c = '"' || c = '\'' then if isLong c rest then none else shortText? c rest
    else
      let (name, rest) := cs.span isKeyChar
      if name.isEmpty then none else some (String.ofList name, rest)

/-- Keys with points between them; `fuel` bounds their number. -/
def path? : Nat → List Char → Option (List String × List Char)
  | 0, _ => none
  | fuel + 1, cs => do
    let (name, rest) ← key? (skip cs)
    match skip rest with
    | '.' :: more =>
      let (names, rest) ← path? fuel more
      return (name :: names, rest)
    | rest => return ([name], rest)

/-- A key with its points and what follows the equals sign behind it. -/
def assignment? (cs : List Char) : Option (List String × List Char) := do
  let (path, rest) ← path? (cs.length + 1) cs
  match rest with
  | '=' :: rest => return (path, skip rest)
  | _ => none

/-- A value that is a word, a number, a day or a time. -/
def word? (cs : List Char) : Option (Json × List Char) :=
  let (word, rest) := cs.span isKeyChar
  if word = "true".toList then some (.bool true, rest)
  else if word = "false".toList then some (.bool false, rest)
  else
    let isNumeric := match word with
      | c :: _ => c = '-' || c.isDigit || word = "inf".toList || word = "nan".toList
      | [] => false
    if !isNumeric then none
    else
      match moment? cs with
      | some (text, rest) => some (.str (String.ofList text), rest)
      | none => number? word rest

mutual
/-- A value, and what follows it. -/
def value? : Nat → List Char → Option (Json × List Char)
  | 0, _ | _ + 1, [] => none
  | fuel + 1, c :: rest =>
    if c = '"' || c = '\'' then (text? c rest).map fun (text, rest) => (.str text, rest)
    else if c = '[' then (items? fuel rest).map fun (items, rest) => (.arr items, rest)
    else if c = '{' then
      match skip rest with
      | '}' :: rest => some (.obj [], rest)
      | rest => (entries? fuel [] rest).map fun (es, rest) => (.obj (entriesToJson es), rest)
    else if c = '+' then
      let (word, rest) := rest.span isKeyChar
      if word.isEmpty then none else number? word rest
    else word? (c :: rest)

/-- The items of an array up to its closing bracket; a comma may stand behind the last. -/
def items? : Nat → List Char → Option (List Json × List Char)
  | 0, _ => none
  | fuel + 1, cs => do
    match ← gap? (cs.length + 1) cs with
    | ']' :: rest => return ([], rest)
    | rest =>
      let (item, rest) ← value? fuel rest
      match ← gap? (rest.length + 1) rest with
      | ']' :: rest => return ([item], rest)
      | ',' :: rest =>
        let (items, rest) ← items? fuel rest
        return (item :: items, rest)
      | _ => none

/-- The entries of a table in braces up to the closing one. -/
def entries? : Nat → Entries → List Char → Option (Entries × List Char)
  | 0, _, _ => none
  | fuel + 1, entries, cs => do
    let (path, rest) ← assignment? cs
    let (value, rest) ← value? fuel rest
    let entries ← entries.insert? path value
    match skip rest with
    | '}' :: rest => return (entries, rest)
    | ',' :: rest => entries? fuel entries rest
    | _ => none
end

/-- A header behind its first bracket, and what follows its line. -/
def header? (cs : List Char) : Option (Section × List Char) := do
  let (isRow, cs) := match cs with
    | '[' :: rest => (true, rest)
    | _ => (false, cs)
  let (path, rest) ← path? (cs.length + 1) cs
  let rest ← match isRow, rest with
    | true, ']' :: ']' :: rest => lineEnd? rest
    | false, ']' :: rest => lineEnd? rest
    | _, _ => none
  return (⟨path.dropLast, path.getLast?.getD "", isRow, []⟩, rest)

/-- The keys of one table, up to the next header or the end. -/
def table? : Nat → Entries → List Char → Option (Entries × List Char)
  | 0, _, _ => none
  | fuel + 1, entries, cs => do
    match ← gap? (cs.length + 1) cs with
    | [] => return (entries, [])
    | '[' :: rest => return (entries, '[' :: rest)
    | rest =>
      let (path, rest) ← assignment? rest
      let (value, rest) ← value? (2 * rest.length + 2) rest
      let rest ← lineEnd? rest
      table? fuel (← entries.insert? path value) rest

/-- Adds the sections that follow to a document. -/
def sections? : Nat → Entries → List Char → Option Entries
  | 0, _, _ => none
  | fuel + 1, document, cs =>
    match cs with
    | [] => some document
    | _ :: rest => do
      let (opened, rest) ← header? rest
      let (table, rest) ← table? (rest.length + 1) [] rest
      sections? fuel (← Section.addTo? { opened with table } document) rest

/-- Line ends of one character each. -/
def foldLineEnds : List Char → List Char
  | '\r' :: '\n' :: rest => '\n' :: foldLineEnds rest
  | c :: rest => c :: foldLineEnds rest
  | [] => []

/-- A text without the mark of its encoding. -/
def withoutMark : List Char → List Char
  | '\uFEFF' :: rest => rest
  | cs => cs

/-- Reads a document as a tree of tables. -/
def parse? (text : String) : Option Json.Object := do
  let cs := foldLineEnds (withoutMark text.toList)
  let (top, rest) ← table? (cs.length + 1) [] cs
  return entriesToJson (← sections? (rest.length + 1) top rest)

end DexCache.Settings.Document
