import DexCache.Proofs.Paging.Cursors
import DexCache.Proofs.Text.Sextets

/-!
# The texts that name a position

A position has one cursor, but a cursor may be spelled by other hands: with a plus sign and with
zeros in front of the digits.  A text is read as a position exactly if it is the base64 text of the
word of cursors and such digits, and the position has 64 bits.  Every other text is reported as no
cursor; one that names a greater number is reported as it is.
-/

namespace DexCache

namespace Decimal

theorem natOfChars?_eq_some_iff {cs : List Char} {n : Nat} :
    natOfChars? cs = some n ↔
      cs ≠ [] ∧ (∀ c ∈ cs, c.isDigit = true) ∧ digitsValue cs = n := by
  unfold natOfChars?
  split
  · next hnot =>
      simp only [reduceCtorEq, false_iff, not_and]
      intro hne hall
      simp [hne, List.all_eq_true.2 hall] at hnot
  · next hread =>
      simp only [Bool.or_eq_true, not_or, Bool.not_eq_true, Bool.not_eq_false',
        List.isEmpty_eq_false_iff] at hread
      have hdigits := List.all_eq_true.1 hread.2
      rw [Option.some.injEq]
      exact ⟨fun h => ⟨hread.1, hdigits, h⟩, fun h => h.2.2⟩

/-- Whole numbers are read with an optional plus sign. -/
theorem unsignedOfChars?_eq_some_iff {cs : List Char} {n : Nat} :
    unsignedOfChars? cs = some n ↔ ∃ sign digits, (sign = [] ∨ sign = ['+']) ∧
      cs = sign ++ digits ∧ natOfChars? digits = some n := by
  constructor
  · intro h
    unfold unsignedOfChars? at h
    split at h
    · exact ⟨['+'], _, .inr rfl, rfl, h⟩
    · exact ⟨[], cs, .inl rfl, rfl, h⟩
  · rintro ⟨sign, digits, rfl | rfl, rfl, h⟩
    · rw [unsignedOfChars?]
      · exact h
      -- digits do not begin with a sign
      · rintro rest rfl
        have hdigit := (natOfChars?_eq_some_iff.1 h).2.1 '+' List.mem_cons_self
        exact absurd hdigit (by decide)
    · exact h

end Decimal

namespace Paging

/-- Are some characters the word of cursors, perhaps a plus sign, and the digits of a number? -/
def Denotes (cs : List Char) (n : Nat) : Prop :=
  ∃ sign digits, (sign = [] ∨ sign = ['+']) ∧ cs = cursorWord ++ (sign ++ digits) ∧
    digits ≠ [] ∧ (∀ d ∈ digits, d.isDigit = true) ∧ Decimal.digitsValue digits = n

/-- Is a text the base64 text of characters that denote a number? -/
def Names (text : String) (n : Nat) : Prop :=
  ∃ cs, Denotes cs n ∧ Text.Base64.Spells (cs.map Char.toNat) text.toList

theorem behindWord?_eq_some_iff {word cs rest : List Char} :
    behindWord? word cs = some rest ↔ cs = word ++ rest := by
  constructor
  · intro h
    induction word generalizing cs with
    | nil => exact Option.some.inj h
    | cons w word ih =>
        cases cs with
        | nil => cases h
        | cons c cs =>
            rw [behindWord?] at h
            split at h
            · next hw => rw [hw, ih h, List.cons_append]
            · cases h
  · rintro rfl
    exact behindWord?_append word rest

/-- The characters of a cursor are read as the number that they denote, if it has 64 bits. -/
theorem positionOfChars?_of_denotes {cs : List Char} {n : Nat} (h : Denotes cs n) :
    positionOfChars? cs = if n ≤ maxPosition then some n else none := by
  obtain ⟨sign, digits, hsign, rfl, hne, hdigits, hvalue⟩ := h
  have hread := Decimal.unsignedOfChars?_eq_some_iff.2
    ⟨sign, digits, hsign, rfl, Decimal.natOfChars?_eq_some_iff.2 ⟨hne, hdigits, hvalue⟩⟩
  simp [positionOfChars?, behindWord?_append, hread]

theorem denotes_of_positionOfChars? {cs : List Char} {n : Nat} (h : positionOfChars? cs = some n) :
    n ≤ maxPosition ∧ Denotes cs n := by
  obtain ⟨behind, hword, h⟩ := Option.bind_eq_some_iff.1 h
  obtain ⟨m, hread, h⟩ := Option.bind_eq_some_iff.1 h
  obtain ⟨hbound, hm⟩ := Option.ite_none_right_eq_some.1 h
  obtain rfl := Option.some.inj hm
  obtain ⟨sign, digits, hsign, rfl, hnumber⟩ := Decimal.unsignedOfChars?_eq_some_iff.1 hread
  exact ⟨hbound, sign, digits, hsign, behindWord?_eq_some_iff.1 hword,
    Decimal.natOfChars?_eq_some_iff.1 hnumber⟩

theorem Denotes.ascii {cs : List Char} {n : Nat} (h : Denotes cs n) : ∀ c ∈ cs, c.toNat < 128 := by
  obtain ⟨sign, digits, hsign, rfl, -, hdigits, -⟩ := h
  simp only [List.forall_mem_append]
  refine ⟨toNat_lt_of_mem_cursorWord, ?_, fun d hd => toNat_lt_of_isDigit (hdigits d hd)⟩
  rcases hsign with rfl | rfl
  · exact fun c hc => (List.not_mem_nil hc).elim
  · intro c hc
    rw [List.mem_singleton.1 hc]
    decide

/-- A text that names a number is read as the number, if it has 64 bits, and else is reported. -/
theorem Names.position_eq {text : String} {n : Nat} (h : Names text n) :
    position text = if n ≤ maxPosition then .ok n else .error (.content text) := by
  obtain ⟨cs, hdenotes, hspells⟩ := h
  rw [position_of_decode hdenotes.ascii (Text.Base64.decode_eq_ok_iff.2 hspells),
    positionOfChars?_of_denotes hdenotes]
  split <;> rfl

/-- Whatever is read as a position names it. -/
theorem names_of_position {text : String} {n : Nat} (h : position text = .ok n) :
    n ≤ maxPosition ∧ Names text n := by
  obtain ⟨bytes, hbytes, h⟩ := Outcome.bind_eq_ok_iff.1 h
  obtain ⟨cs, hcs, h⟩ := Outcome.bind_eq_ok_iff.1 h
  rw [Outcome.mapError_eq_ok_iff] at hbytes hcs
  split at h
  · next m hread =>
      obtain rfl := Except.ok.inj h
      obtain ⟨hbound, hdenotes⟩ := denotes_of_positionOfChars? hread
      have hcodes := Text.Utf8.eq_map_toNat_of_decodeFrom hcs hdenotes.ascii
      exact ⟨hbound, cs, hdenotes, Text.Base64.decode_eq_ok_iff.1 (hcodes ▸ hbytes)⟩
  · cases h

/-- A cursor names its position and no other one does.  What is read as a position is exactly what
names it, every other text is reported as no cursor, and one that names a number beyond 64 bits is
reported as it stands. -/
theorem position_exact :
    (∀ n < 2 ^ 64, position (cursor n) = .ok n) ∧
      (∀ m < 2 ^ 64, ∀ n < 2 ^ 64, cursor m = cursor n → m = n) ∧
      (∀ text n, position text = .ok n ↔ n < 2 ^ 64 ∧ Names text n) ∧
      (∀ text, (∀ n < 2 ^ 64, ¬Names text n) → ∃ fault, position text = .error fault) ∧
      ∀ text n, 2 ^ 64 ≤ n → Names text n → position text = .error (.content text) := by
  have hbound {n : Nat} : n < 2 ^ 64 ↔ n ≤ maxPosition := Nat.lt_succ_iff
  have hread (text : String) (n : Nat) :
      position text = .ok n ↔ n < 2 ^ 64 ∧ Names text n := by
    constructor
    · intro h
      exact ⟨hbound.2 (names_of_position h).1, (names_of_position h).2⟩
    · rintro ⟨hn, hnames⟩
      rw [hnames.position_eq, if_pos (hbound.1 hn)]
  refine ⟨fun n hn => position_cursor (hbound.1 hn), fun m hm n hn => ?_, hread, ?_, ?_⟩
  · exact cursor_inj (hbound.1 hm) (hbound.1 hn)
  · intro text hnone
    cases h : position text with
    | error fault => exact ⟨fault, rfl⟩
    | ok n =>
        obtain ⟨hn, hnames⟩ := (hread text n).1 h
        exact absurd hnames (hnone n hn)
  · intro text n hn hnames
    rw [hnames.position_eq, if_neg fun hle => absurd (hbound.2 hle) (Nat.not_lt.2 hn)]

/-- The base64 text of the word of cursors and `+007` is no cursor that is ever given out, and it
names the position of `cursor 7` nevertheless. -/
theorem position_exact_of_plus_sign :
    position "YXJyYXljb25uZWN0aW9uOiswMDc=" = .ok 7 ∧
      Names "YXJyYXljb25uZWN0aW9uOiswMDc=" 7 ∧
      cursor 7 ≠ "YXJyYXljb25uZWN0aW9uOiswMDc=" := by
  have hread : position "YXJyYXljb25uZWN0aW9uOiswMDc=" = .ok 7 := by decide +kernel
  have hnames := ((position_exact.2.2.1 _ 7).1 hread).2
  exact ⟨hread, hnames, by decide +kernel⟩

end Paging

end DexCache
