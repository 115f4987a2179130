import DexCache.Text.Blank
import DexCache.Text.Lowercase

/-!
# Searching texts

A search term matches a text if, trimmed and in lower case, it occurs in the lower
case of the text.  A blank term matches everything, even nothing at all.
-/

namespace DexCache.Text

/-- Does a text occur inside another? -/
def occursIn (needle : List Char) : List Char → Bool
  | [] => needle.isEmpty
  | c :: rest => needle.isPrefixOf (c :: rest) || occursIn needle rest

/-- Does a search term match one of the texts? -/
def matchesSearch (term : String) (texts : List (Option String)) : Bool :=
  let needle := lowercase (trim term.toList)
  needle.isEmpty || texts.any fun text =>
    match text with
    | some t => occursIn needle (lowercase t.toList)
    | none => false

end DexCache.Text
