import DexCache.Network.NameChar
import DexCache.Network.Neighbours
import DexCache.Network.Punycode

/-!
# Domain names

A domain name is a row of labels with dots between them.  Its characters count as their
plain forms, and each label has to be one that could be shown to a reader.
-/

namespace DexCache.Network

/-- A label as it is shown: behind `xn--` one is written in ASCII. -/
def shownLabel? : List Char → Option (List Char)
  | 'x' :: 'n' :: '-' :: '-' :: rest =>
    if rest.getLast?.all fun c => c = '-' then none
    else if !rest.all fun c => c.toNat < 0x80 then none
    else
      (Punycode.decode? rest).filter fun label =>
        label.all fun c => c.toNat < 0x80 || isProperChar c
  | label => some label

/-- May a label be shown? -/
def isLabel (label : List Char) : Bool :=
  !label.head?.any isMark && joinersFit [] label

/-- The name that a text stands for, with its characters in their plain form. -/
def domain? (cs : List Char) : Option (List Char) := do
  let name := (← cs.mapM nameChars?).flatten
  let labels ← (name.splitOn '.').mapM shownLabel?
  let backward := labels.any fun label => label.any fun c => (direction c).isBackward
  if labels.all isLabel && (!backward || labels.all keepsDirection) then some name else none

end DexCache.Network
