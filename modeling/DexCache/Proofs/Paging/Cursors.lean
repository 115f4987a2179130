import DexCache.Paging.Cursor
import DexCache.Proofs.Decimal.Digits
import DexCache.Proofs.Text.Ascii
import DexCache.Proofs.Text.Base64

/-!
# Cursors are read back

A cursor is made of ASCII characters all the way: its word and digits, their bytes, the base64
text of these.  Reading it takes the same steps back, so a cursor names the position that it was
made for, and different positions have different cursors.
-/

namespace DexCache

namespace Paging

theorem toNat_lt_of_mem_cursorWord : ∀ c ∈ cursorWord, c.toNat < 128 := by
  have hascii : cursorWord.all (fun c => decide (c.toNat < 128)) = true := rfl
  exact fun c hc => of_decide_eq_true (List.all_eq_true.1 hascii c hc)

theorem toNat_lt_of_isDigit {c : Char} (h : c.isDigit = true) : c.toNat < 128 :=
  Nat.lt_of_le_of_lt (Char.isDigit_iff_toNat.1 h).2 (by decide)

theorem toNat_lt_of_mem {n : Nat} : ∀ c ∈ cursorWord ++ Decimal.natChars n, c.toNat < 128 := by
  intro c hc
  rcases List.mem_append.1 hc with hword | hdigit
  · exact toNat_lt_of_mem_cursorWord c hword
  · exact toNat_lt_of_isDigit (Decimal.isDigit_of_mem_natChars hdigit)

theorem behindWord?_append (word cs : List Char) : behindWord? word (word ++ cs) = some cs := by
  induction word with
  | nil => rfl
  | cons w word ih => simpa [behindWord?] using ih

theorem unsignedOfChars?_natChars (n : Nat) :
    Decimal.unsignedOfChars? (Decimal.natChars n) = some n := by
  have hdigits : ∀ c ∈ Decimal.natChars n, c.isDigit = true := fun c =>
    Decimal.isDigit_of_mem_natChars
  have hread : Decimal.natOfChars? (Decimal.natChars n) = some n := by
    have hall : (Decimal.natChars n).all Char.isDigit = true := List.all_eq_true.2 hdigits
    simp [Decimal.natOfChars?, hall, Decimal.natChars_ne_nil]
  unfold Decimal.unsignedOfChars?
  split
  · next cs hplus => exact absurd (hdigits '+' (hplus ▸ List.mem_cons_self)) (by decide)
  · exact hread

/-- Reading a text whose bytes are those of ASCII characters is reading these characters. -/
theorem position_of_decode {text : String} {cs : List Char} (hascii : ∀ c ∈ cs, c.toNat < 128)
    (h : Text.Base64.decode (Text.Utf8.encode text.toList) = .ok (cs.map Char.toNat)) :
    position text = (positionOfChars? cs).elim (.error (.content text)) .ok := by
  have hsmall : ∀ b ∈ cs.map Char.toNat, b < 128 := by
    simpa only [List.forall_mem_map] using hascii
  have hchars : Text.Utf8.decode (cs.map Char.toNat) = .ok cs := by
    rw [Text.Utf8.decode, Text.Utf8.decodeFrom_ascii hsmall, List.map_map]
    have hback : cs.map (Char.ofNat ∘ Char.toNat) = cs.map id :=
      List.map_congr_left fun c _ => Char.ofNat_toNat c
    rw [hback, List.map_id]
  rw [position, h]
  simp only [Except.mapError, bind, Except.bind, hchars]
  cases positionOfChars? cs <;> rfl

/-- A cursor names the position that it was made for. -/
theorem position_cursor {n : Nat} (h : n ≤ maxPosition) : position (cursor n) = .ok n := by
  let cs := cursorWord ++ Decimal.natChars n
  have hbytes : Text.Utf8.encode cs = cs.map Char.toNat := Text.Utf8.encode_ascii toNat_lt_of_mem
  have hbyte : ∀ b ∈ cs.map Char.toNat, b < 256 := by
    simp only [List.forall_mem_map]
    exact fun c hc => (toNat_lt_of_mem c hc).trans (by decide)
  have hcodes : Text.Utf8.encode (cursor n).toList = Text.Base64.encode (cs.map Char.toNat) := by
    rw [cursor, String.toList_ofList, hbytes,
      Text.Utf8.encode_map_ofNat (Text.Base64.lt_of_mem_encode hbyte)]
  have hposition : positionOfChars? cs = some n := by
    simp [positionOfChars?, cs, behindWord?_append, unsignedOfChars?_natChars, h]
  rw [position_of_decode toNat_lt_of_mem (hcodes ▸ Text.Base64.decode_encode hbyte), hposition]
  rfl

/-- Different positions have different cursors. -/
theorem cursor_inj {m n : Nat} (hm : m ≤ maxPosition) (hn : n ≤ maxPosition)
    (h : cursor m = cursor n) : m = n := by
  have hread := position_cursor hm
  rw [h, position_cursor hn] at hread
  exact (Except.ok.inj hread).symm

end Paging

end DexCache
