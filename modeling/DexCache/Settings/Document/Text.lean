import DexCache.Text.Hex

/-!
# Quoted texts of a settings document

A text stands between double quotes, where a backslash begins an escape, or between single
quotes, where it does not.  Three quotes begin a text that may go over several lines; the
line end right behind them does not count, and a backslash at the end of a line joins it
with what follows the next blanks.
-/

namespace DexCache.Settings.Document

/-- The character with a hexadecimal number of so many digits, and what follows it. -/
def hexChar? (width : Nat) (cs : List Char) : Option (Char × List Char) := do
  let digits ← (cs.take width).mapM Text.hexDigit?
  let code := digits.foldl (fun n d => n * 16 + d) 0
  if digits.length = width && decide code.isValidChar then
    some (Char.ofNat code, cs.drop width)
  else none

/-- The character that a letter behind a backslash stands for. -/
def escape? : Char → Option Char
  | 'b' => some '\x08'
  | 't' => some '\t'
  | 'n' => some '\n'
  | 'f' => some '\x0c'
  | 'r' => some '\r'
  | '"' => some '"'
  | '\\' => some '\\'
  | _ => none

/-- Is the character a blank inside a line? -/
def isSpace (c : Char) : Bool :=
  c = ' ' || c = '\t'

/-- May the character stand in a text as it is? -/
def isTextChar (c : Char) : Bool :=
  c = '\t' || (0x20 ≤ c.toNat && c ≠ '\x7f')

/-- What follows a backslash at the end of a line; behind the backslash there may only be
blanks up to the line's end. -/
def joinLines? (cs : List Char) : Option (List Char) :=
  match cs.dropWhile isSpace with
  | [] => some []
  | '\n' :: rest => some (rest.dropWhile fun c => isSpace c || c = '\n')
  | _ => none

/-- Reads an escape behind its backslash: the character it stands for, if it is not a
joint between lines. -/
def escaped? (long : Bool) : List Char → Option (Option Char × List Char)
  | 'u' :: rest => (hexChar? 4 rest).map fun (c, rest) => (some c, rest)
  | 'U' :: rest => (hexChar? 8 rest).map fun (c, rest) => (some c, rest)
  | c :: rest =>
    match escape? c with
    | some ch => some (some ch, rest)
    | none =>
      if long && (isSpace c || c = '\n') then (joinLines? (c :: rest)).map fun rest => (none, rest)
      else none
  | [] => none

/-- The end of a long text behind one quote: what the quotes there add to the text and what
follows it, or nothing if the text goes on. -/
def longEnd? (quote : Char) : List Char → Option (List Char × List Char)
  | a :: b :: c :: d :: rest =>
    if a ≠ quote || b ≠ quote then none
    else if c ≠ quote then some ([], c :: d :: rest)
    else if d ≠ quote then some ([quote], d :: rest)
    else some ([quote, quote], rest)
  | [a, b, c] =>
    if a ≠ quote || b ≠ quote then none
    else if c ≠ quote then some ([], [c]) else some ([quote], [])
  | [a, b] => if a ≠ quote || b ≠ quote then none else some ([], [])
  | _ => none

/-- A text up to its end; `fuel` bounds its length. -/
def textRest? (quote : Char) (long : Bool) : Nat → List Char → Option (List Char × List Char)
  | 0, _ | _ + 1, [] => none
  | fuel + 1, c :: rest =>
    if c = quote then
      if !long then some ([], rest)
      else
        match longEnd? quote rest with
        | some found => some found
        | none => (textRest? quote long fuel rest).map fun (text, rest) => (c :: text, rest)
    else if c = '\\' && quote = '"' then do
      let (ch, rest) ← escaped? long rest
      let (text, rest) ← textRest? quote long fuel rest
      return (ch.toList ++ text, rest)
    else if isTextChar c || (long && c = '\n') then
      (textRest? quote long fuel rest).map fun (text, rest) => (c :: text, rest)
    else none

/-- A text on one line behind its first quote. -/
def shortText? (quote : Char) (cs : List Char) : Option (String × List Char) :=
  (textRest? quote false (cs.length + 1) cs).map fun (text, rest) => (String.ofList text, rest)

/-- A text over several lines behind its first three quotes. -/
def longText? (quote : Char) (cs : List Char) : Option (String × List Char) :=
  let cs := match cs with
    | '\n' :: rest => rest
    | _ => cs
  (textRest? quote true (cs.length + 1) cs).map fun (text, rest) => (String.ofList text, rest)

/-- Does a text over several lines begin behind this quote? -/
def isLong (quote : Char) (cs : List Char) : Bool :=
  [quote, quote].isPrefixOf cs

/-- A text behind its first quote. -/
def text? (quote : Char) (cs : List Char) : Option (String × List Char) :=
  if isLong quote cs then longText? quote (cs.drop 2) else shortText? quote cs

end DexCache.Settings.Document
