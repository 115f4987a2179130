import DexCache.Text.Lowercase
import DexCache.Text.Unprintable

/-!
# The characters of domain names

What becomes of a character in a domain name (Unicode 17).  Letters, digits and dots in
another form count as the plain ones, some characters are ignored, and some may not stand
there at all.
-/

namespace DexCache.Network

/-- Ranges of the code points that are ignored. -/
def ignoredRanges : List (Nat × Nat) :=
  [(0xAD, 0xAD), (0x34F, 0x34F), (0x115F, 0x1160), (0x17B4, 0x17B5), (0x180B, 0x180F),
   (0x200B, 0x200B), (0x2060, 0x2064), (0x206A, 0x206F), (0x3164, 0x3164), (0xFE00, 0xFE0F),
   (0xFEFF, 0xFEFF), (0xFFA0, 0xFFA0), (0x1BCA0, 0x1BCA3), (0x1D173, 0x1D17A), (0xE0100, 0xE01EF)]

/-- Ranges of the printable code points beyond ASCII that may not stand in a domain name. -/
def refusedRanges : List (Nat × Nat) :=
  [(0xA8, 0xA8), (0xAF, 0xAF), (0xB4, 0xB4), (0xB8, 0xB8), (0x2D8, 0x2DD), (0x37A, 0x37A),
   (0x384, 0x385), (0x1FBD, 0x1FBD), (0x1FBF, 0x1FC1), (0x1FCD, 0x1FCF), (0x1FDD, 0x1FDF),
   (0x1FED, 0x1FEE), (0x1FFD, 0x1FFE), (0x2017, 0x2017), (0x2024, 0x2026), (0x203E, 0x203E),
   (0x2047, 0x2049), (0x2100, 0x2101), (0x2105, 0x2106), (0x2488, 0x249B), (0x2A74, 0x2A74),
   (0x2FF0, 0x2FFF), (0x309B, 0x309C), (0x31EF, 0x31EF), (0x33C2, 0x33C2), (0x33C7, 0x33C7),
   (0x33D8, 0x33D8), (0xFC5E, 0xFC63), (0xFDFA, 0xFDFB), (0xFE12, 0xFE13), (0xFE16, 0xFE16),
   (0xFE19, 0xFE19), (0xFE30, 0xFE30), (0xFE47, 0xFE4C), (0xFE52, 0xFE52), (0xFE55, 0xFE56),
   (0xFE5F, 0xFE5F), (0xFE64, 0xFE65), (0xFE68, 0xFE68), (0xFE6A, 0xFE6B), (0xFE70, 0xFE70),
   (0xFE72, 0xFE72), (0xFE74, 0xFE74), (0xFE76, 0xFE76), (0xFE78, 0xFE78), (0xFE7A, 0xFE7A),
   (0xFE7C, 0xFE7C), (0xFE7E, 0xFE7E), (0xFF03, 0xFF03), (0xFF05, 0xFF05), (0xFF0F, 0xFF0F),
   (0xFF1A, 0xFF1A), (0xFF1C, 0xFF1C), (0xFF1E, 0xFF20), (0xFF3B, 0xFF3E), (0xFF5C, 0xFF5C),
   (0xFFE3, 0xFFE3), (0xFFFC, 0xFFFD), (0x1F100, 0x1F100)]

/-- Ranges of the letters in another form, with the letter that the first of them counts
as.  The alphabet begins again behind its last letter. -/
def letterForms : List (Nat × Nat × Char) :=
  [(0xAA, 0xAA, 'a'), (0xBA, 0xBA, 'o'), (0x17F, 0x17F, 's'), (0x2B0, 0x2B0, 'h'),
   (0x2B2, 0x2B2, 'j'), (0x2B3, 0x2B3, 'r'), (0x2B7, 0x2B7, 'w'), (0x2B8, 0x2B8, 'y'),
   (0x2E1, 0x2E1, 'l'), (0x2E2, 0x2E2, 's'), (0x2E3, 0x2E3, 'x'), (0x1D2C, 0x1D2C, 'a'),
   (0x1D2E, 0x1D2E, 'b'), (0x1D30, 0x1D31, 'd'), (0x1D33, 0x1D3A, 'g'), (0x1D3C, 0x1D3C, 'o'),
   (0x1D3E, 0x1D3E, 'p'), (0x1D3F, 0x1D3F, 'r'), (0x1D40, 0x1D41, 't'), (0x1D42, 0x1D42, 'w'),
   (0x1D43, 0x1D43, 'a'), (0x1D47, 0x1D47, 'b'), (0x1D48, 0x1D49, 'd'), (0x1D4D, 0x1D4D, 'g'),
   (0x1D4F, 0x1D4F, 'k'), (0x1D50, 0x1D50, 'm'), (0x1D52, 0x1D52, 'o'), (0x1D56, 0x1D56, 'p'),
   (0x1D57, 0x1D58, 't'), (0x1D5B, 0x1D5B, 'v'), (0x1D62, 0x1D62, 'i'), (0x1D63, 0x1D63, 'r'),
   (0x1D64, 0x1D65, 'u'), (0x1D9C, 0x1D9C, 'c'), (0x1DA0, 0x1DA0, 'f'), (0x1DBB, 0x1DBB, 'z'),
   (0x2071, 0x2071, 'i'), (0x207F, 0x207F, 'n'), (0x2090, 0x2090, 'a'), (0x2091, 0x2091, 'e'),
   (0x2092, 0x2092, 'o'), (0x2093, 0x2093, 'x'), (0x2095, 0x2095, 'h'), (0x2096, 0x2099, 'k'),
   (0x209A, 0x209A, 'p'), (0x209B, 0x209C, 's'), (0x2102, 0x2102, 'c'), (0x210A, 0x210B, 'g'),
   (0x210C, 0x210C, 'h'), (0x210D, 0x210D, 'h'), (0x210E, 0x210E, 'h'), (0x2110, 0x2110, 'i'),
   (0x2111, 0x2111, 'i'), (0x2112, 0x2112, 'l'), (0x2113, 0x2113, 'l'), (0x2115, 0x2115, 'n'),
   (0x2119, 0x211B, 'p'), (0x211C, 0x211C, 'r'), (0x211D, 0x211D, 'r'), (0x2124, 0x2124, 'z'),
   (0x2128, 0x2128, 'z'), (0x212A, 0x212A, 'k'), (0x212C, 0x212D, 'b'), (0x212F, 0x212F, 'e'),
   (0x2130, 0x2131, 'e'), (0x2133, 0x2133, 'm'), (0x2134, 0x2134, 'o'), (0x2139, 0x2139, 'i'),
   (0x2145, 0x2145, 'd'), (0x2146, 0x2147, 'd'), (0x2148, 0x2149, 'i'), (0x2160, 0x2160, 'i'),
   (0x2164, 0x2164, 'v'), (0x2169, 0x2169, 'x'), (0x216C, 0x216C, 'l'), (0x216D, 0x216E, 'c'),
   (0x216F, 0x216F, 'm'), (0x2170, 0x2170, 'i'), (0x2174, 0x2174, 'v'), (0x2179, 0x2179, 'x'),
   (0x217C, 0x217C, 'l'), (0x217D, 0x217E, 'c'), (0x217F, 0x217F, 'm'), (0x24B6, 0x24E9, 'a'),
   (0x2C7C, 0x2C7C, 'j'), (0x2C7D, 0x2C7D, 'v'), (0xA7F1, 0xA7F1, 's'), (0xA7F2, 0xA7F2, 'c'),
   (0xA7F3, 0xA7F3, 'f'), (0xA7F4, 0xA7F4, 'q'), (0xFF21, 0xFF3A, 'a'), (0xFF41, 0xFF5A, 'a'),
   (0x107A5, 0x107A5, 'q'), (0x1CCD6, 0x1CCEF, 'a'), (0x1D400, 0x1D6A3, 'a'),
   (0x1F12B, 0x1F12B, 'c'), (0x1F12C, 0x1F12C, 'r'), (0x1F130, 0x1F149, 'a')]

/-- Ranges of the numbers in another form, with the number that the first of them counts
as. -/
def numberForms : List (Nat × Nat × Nat) :=
  [(0xB2, 0xB3, 2), (0xB9, 0xB9, 1), (0x2070, 0x2070, 0), (0x2074, 0x2079, 4), (0x2080, 0x2089, 0),
   (0x2460, 0x2473, 1), (0x24EA, 0x24EA, 0), (0x3251, 0x325F, 21), (0x32B1, 0x32BF, 36),
   (0xFF10, 0xFF19, 0), (0x1CCF0, 0x1CCF9, 0), (0x1D7CE, 0x1D7D7, 0), (0x1D7D8, 0x1D7E1, 0),
   (0x1D7E2, 0x1D7EB, 0), (0x1D7EC, 0x1D7F5, 0), (0x1D7F6, 0x1D7FF, 0), (0x1FBF0, 0x1FBF9, 0)]

/-- Ranges of the other code points that count as different ones, apart from capital
letters. -/
def variantRanges : List (Nat × Nat) :=
  [(0xB5, 0xB5), (0xBC, 0xBE), (0x130, 0x130), (0x133, 0x133), (0x140, 0x140), (0x149, 0x149),
   (0x1C6, 0x1CC), (0x1F3, 0x1F3), (0x2B1, 0x2B6), (0x2E0, 0x2E4), (0x340, 0x341), (0x343, 0x345),
   (0x374, 0x374), (0x37E, 0x387), (0x3D0, 0x3D6), (0x3F0, 0x3F2), (0x3F5, 0x3F5), (0x587, 0x587),
   (0x675, 0x678), (0x958, 0x95F), (0x9DC, 0x9DF), (0xA33, 0xA33), (0xA36, 0xA36), (0xA59, 0xA5B),
   (0xA5E, 0xA5E), (0xB5C, 0xB5D), (0xE33, 0xE33), (0xEB3, 0xEB3), (0xEDC, 0xEDD), (0xF0C, 0xF0C),
   (0xF43, 0xF43), (0xF4D, 0xF4D), (0xF52, 0xF52), (0xF57, 0xF57), (0xF5C, 0xF5C), (0xF69, 0xF69),
   (0xF73, 0xF73), (0xF75, 0xF79), (0xF81, 0xF81), (0xF93, 0xF93), (0xF9D, 0xF9D), (0xFA2, 0xFA2),
   (0xFA7, 0xFA7), (0xFAC, 0xFAC), (0xFB9, 0xFB9), (0x10FC, 0x10FC), (0x13F8, 0x13FD),
   (0x1C80, 0x1C88), (0x1D2D, 0x1D2D), (0x1D32, 0x1D32), (0x1D3D, 0x1D4C), (0x1D51, 0x1D6A),
   (0x1D78, 0x1D78), (0x1D9B, 0x1DBF), (0x1E9A, 0x1E9B), (0x1F71, 0x1F71), (0x1F73, 0x1F73),
   (0x1F75, 0x1F75), (0x1F77, 0x1F77), (0x1F79, 0x1F79), (0x1F7B, 0x1F7B), (0x1F7D, 0x1FA7),
   (0x1FB2, 0x1FB4), (0x1FB7, 0x1FC4), (0x1FC7, 0x1FC7), (0x1FD3, 0x1FD3), (0x1FE3, 0x1FE3),
   (0x1FEF, 0x1FF4), (0x1FF7, 0x1FF7), (0x2011, 0x2011), (0x2033, 0x2034), (0x2036, 0x2037),
   (0x203C, 0x203C), (0x2057, 0x2057), (0x207A, 0x2094), (0x20A8, 0x20A8), (0x2103, 0x2103),
   (0x2107, 0x2107), (0x2109, 0x210F), (0x2116, 0x2116), (0x2120, 0x2122), (0x2135, 0x2138),
   (0x213B, 0x2140), (0x2150, 0x217B), (0x2189, 0x2189), (0x222C, 0x222D), (0x222F, 0x2230),
   (0x2329, 0x232A), (0x2474, 0x24B5), (0x2A0C, 0x2A0C), (0x2A75, 0x2A76), (0x2ADC, 0x2ADC),
   (0x2D6F, 0x2D6F), (0x2E9F, 0x2E9F), (0x2EF3, 0x2FD5), (0x3036, 0x3036), (0x3038, 0x303A),
   (0x309F, 0x309F), (0x30FF, 0x30FF), (0x3131, 0x318E), (0x3192, 0x319F), (0x3200, 0x3247),
   (0x3250, 0x327E), (0x3280, 0x33FF), (0xA69C, 0xA69D), (0xA770, 0xA770), (0xA7F8, 0xA7F9),
   (0xAB5C, 0xAB5F), (0xAB69, 0xAB69), (0xAB70, 0xABBF), (0xF900, 0xFA0D), (0xFA10, 0xFA10),
   (0xFA12, 0xFA12), (0xFA15, 0xFA1E), (0xFA20, 0xFA20), (0xFA22, 0xFA22), (0xFA25, 0xFA26),
   (0xFA2A, 0xFB1D), (0xFB1F, 0xFBB1), (0xFBD3, 0xFD3D), (0xFD50, 0xFD8F), (0xFD92, 0xFDC7),
   (0xFDF0, 0xFDFC), (0xFE10, 0xFE18), (0xFE31, 0xFE44), (0xFE4D, 0xFE71), (0xFE77, 0xFFEE),
   (0x10781, 0x107BA), (0x1D15E, 0x1D164), (0x1D1BB, 0x1D1C0), (0x1D6A4, 0x1D7CB),
   (0x1E030, 0x1E06D), (0x1EE00, 0x1EEBB), (0x1F101, 0x1F10A), (0x1F110, 0x1F12E),
   (0x1F14A, 0x1F14F), (0x1F16A, 0x1F16C), (0x1F190, 0x1F190), (0x1F200, 0x1F251),
   (0x2F800, 0x2FA1D)]

/-- Is the code point a capital letter of a script that keeps its capitals? -/
def keepsCapitals (code : Nat) : Bool :=
  0x13A0 ≤ code && code ≤ 0x13F5

/-- Is the character one that joins its neighbours, or keeps them apart? -/
def isJoiner (c : Char) : Bool :=
  c = '\u200C' || c = '\u200D'

/-- May the ASCII character stand in a domain name? -/
def isPlainChar (c : Char) : Bool :=
  c.isAlphanum || "!\"$&'()*+,-.;=_\x60\x7b\x7d~".toList.contains c

/-- The plain letter or number that a code point counts as. -/
def plainForm? (code : Nat) : Option (List Char) :=
  if [0x3002, 0xFF0E, 0xFF61].contains code then some ['.']
  else if [0xFE63, 0xFF0D].contains code then some ['-']
  else
    match numberForms.find? fun (low, high, _) => low ≤ code && code ≤ high with
    | some (low, _, n) => some (Nat.toDigits 10 (n + (code - low)))
    | none =>
      (letterForms.find? fun (low, high, _) => low ≤ code && code ≤ high).map
        fun (low, _, letter) => [Char.ofNat (97 + (letter.toNat - 97 + (code - low)) % 26)]

/-- What a character in a domain name counts as, if it may stand there; characters beyond
ASCII that count as others beyond ASCII stay as they are. -/
def nameChars? (c : Char) : Option (List Char) :=
  if c.toNat < 0x80 then if isPlainChar c then some [c.toLower] else none
  else if isJoiner c then some [c]
  else if Text.inRanges ignoredRanges c.toNat then some []
  else if Text.inRanges refusedRanges c.toNat || Text.isUnprintable c then none
  else some ((plainForm? c.toNat).getD [c])

/-- Does a character beyond ASCII count as itself in a domain name? -/
def isProperChar (c : Char) : Bool :=
  isJoiner c ||
    (nameChars? c == some [c] && !Text.inRanges variantRanges c.toNat &&
      (keepsCapitals c.toNat || Text.lowercaseCode c.toNat == c.toNat))

end DexCache.Network
