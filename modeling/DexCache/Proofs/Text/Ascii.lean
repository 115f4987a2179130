import DexCache.Proofs.Outcome
import DexCache.Text.Utf8
import Mathlib.Algebra.Group.Nat.Defs
import Mathlib.Tactic.SplitIfs

/-!
# ASCII as UTF-8

The bytes of an ASCII text are the codes of its characters, and bytes below 128 are such a text.
Every other character begins with a greater byte and is decoded to a code of 128 or more, so no
other bytes are decoded to an ASCII text, and no other text has bytes that are all below 128.
-/

namespace DexCache.Text.Utf8

/-- The bytes of an ASCII text are the codes of its characters. -/
theorem encode_ascii {cs : List Char} (h : ∀ c ∈ cs, c.toNat < 128) :
    encode cs = cs.map Char.toNat := by
  have hbyte {c : Char} (hc : c.toNat < 128) : String.utf8EncodeChar c = [c.toNat.toUInt8] := by
    have hval : c.toNat ≤ 127 := Nat.le_of_lt_succ hc
    simp [String.utf8EncodeChar, hval]
  induction cs with
  | nil => rfl
  | cons c cs ih =>
      obtain ⟨hc, hcs⟩ := List.forall_mem_cons.1 h
      have hrest := ih hcs
      unfold encode at hrest ⊢
      rw [List.flatMap_cons, hbyte hc, List.map_append, hrest, List.map_cons]
      have hsmall : c.toNat.toUInt8.toNat = c.toNat := Nat.mod_eq_of_lt (by omega)
      simp [hsmall]

theorem toNat_ofNat {code : Nat} (h : code.isValidChar) : (Char.ofNat code).toNat = code := by
  rw [Char.ofNat, dif_pos h]
  rfl

/-- The bytes of characters that were made of ASCII codes are these codes. -/
theorem encode_map_ofNat {codes : List Nat} (h : ∀ code ∈ codes, code < 128) :
    encode (codes.map Char.ofNat) = codes := by
  have hcode : ∀ code ∈ codes, (Char.ofNat code).toNat = code := fun code hmem =>
    toNat_ofNat (.inl (Nat.lt_trans (h code hmem) (by decide)))
  rw [encode_ascii]
  · rw [List.map_map]
    exact (List.map_congr_left hcode).trans (List.map_id _)
  · intro c hc
    obtain ⟨code, hmem, rfl⟩ := List.mem_map.1 hc
    rw [hcode code hmem]
    exact h code hmem

/-- A character whose bytes are all below 128 is ASCII. -/
theorem toNat_lt_of_encodeChar {c : Char}
    (h : ∀ b ∈ String.utf8EncodeChar c, b.toNat < 128) : c.toNat < 128 := by
  refine Nat.lt_of_not_le fun hc => ?_
  have hval : ¬c.val.toNat ≤ 127 := fun hle => absurd hc (Nat.not_le_of_lt (Nat.lt_succ_of_le hle))
  -- the first byte tells how many bytes follow, and it is 192 at least
  simp only [String.utf8EncodeChar, if_neg hval] at h
  split at h
  · have hfirst := h _ List.mem_cons_self
    simp only [UInt8.toNat_ofNat'] at hfirst
    omega
  · split at h
    all_goals
      have hfirst := h _ List.mem_cons_self
      simp only [UInt8.toNat_ofNat'] at hfirst
      omega

/-- A text whose bytes are all below 128 is ASCII. -/
theorem ascii_of_encode {cs : List Char} (h : ∀ b ∈ encode cs, b < 128) :
    ∀ c ∈ cs, c.toNat < 128 := by
  intro c hc
  refine toNat_lt_of_encodeChar fun b hb => h _ ?_
  exact List.mem_map_of_mem (List.mem_flatMap.2 ⟨c, hc, hb⟩)

theorem decodeFrom_ascii {codes : List Nat} (h : ∀ code ∈ codes, code < 128) (index : Nat) :
    decodeFrom codes.length index codes = .ok (codes.map Char.ofNat) := by
  induction codes generalizing index with
  | nil => rfl
  | cons code codes ih =>
      obtain ⟨hcode, hcodes⟩ := List.forall_mem_cons.1 h
      rw [List.length_cons, decodeFrom, if_pos hcode, ih hcodes]
      rfl

/-- The bytes that follow a lead byte add six bits each. -/
theorem continueChar_bounds {index seen code more code' : Nat} {bytes rest : List Nat}
    (h : continueChar index seen code 0x80 0xBF more bytes = .ok (code', rest)) :
    code * 64 ^ more ≤ code' ∧ code' < (code + 1) * 64 ^ more := by
  induction more generalizing seen code bytes with
  | zero =>
      obtain ⟨rfl, -⟩ := Prod.mk.inj (Except.ok.inj h)
      omega
  | succ more ih =>
      cases bytes with
      | nil => cases h
      | cons b bytes =>
          rw [continueChar] at h
          split at h
          · obtain ⟨hleast, hgreatest⟩ := ih h
            rw [Nat.pow_succ', ← Nat.mul_assoc, ← Nat.mul_assoc]
            constructor
            · exact Nat.le_trans (Nat.mul_le_mul_right _ (Nat.le_add_right _ _)) hleast
            · exact Nat.lt_of_lt_of_le hgreatest (Nat.mul_le_mul_right _ (by omega))
          · cases h

/-- The codes of characters of two bytes or more. -/
theorem continueChar_of_lead {index b low high more code : Nat} {bytes rest : List Nat}
    (hlead : lead? b = some (low, high, more))
    (h : continueChar index 1 (b % Nat.pow 2 (6 - more)) low high more bytes = .ok (code, rest)) :
    128 ≤ code ∧ code.isValidChar := by
  -- the second byte is within the range of its lead byte, and the others are any bytes that follow
  have hsecond (more : Nat) {least greatest payload : Nat}
      (h : continueChar index 1 payload least greatest (more + 1) bytes = .ok (code, rest)) :
      ∃ c, least ≤ c ∧ c ≤ greatest ∧
        (payload * 64 + c % 64) * 64 ^ more ≤ code ∧
          code < (payload * 64 + c % 64 + 1) * 64 ^ more := by
    cases bytes with
    | nil => cases h
    | cons c bytes =>
        rw [continueChar] at h
        split at h
        · next hrange => exact ⟨c, hrange.1, hrange.2, continueChar_bounds h⟩
        · cases h
  unfold lead? at hlead
  unfold Nat.isValidChar
  split_ifs at hlead
  all_goals
    cases hlead
    obtain ⟨c, hleast, hgreatest, hlow, hhigh⟩ := hsecond _ h
    simp only [Nat.pow_eq, Nat.reducePow, Nat.reduceSub] at hlow hhigh
    omega

/-- Bytes that are decoded to an ASCII text are the codes of its characters. -/
theorem eq_map_toNat_of_decodeFrom {fuel index : Nat} {bytes : List Nat} {cs : List Char}
    (h : decodeFrom fuel index bytes = .ok cs) (hascii : ∀ c ∈ cs, c.toNat < 128) :
    bytes = cs.map Char.toNat := by
  induction fuel generalizing index bytes cs with
  | zero =>
      cases bytes with
      | nil => cases h; rfl
      | cons b bytes => cases h
  | succ fuel ih =>
      cases bytes with
      | nil => cases h; rfl
      | cons b bytes =>
          rw [decodeFrom] at h
          split at h
          · next hb =>
              obtain ⟨cs, hrest, rfl⟩ := Outcome.map_eq_ok_iff.1 h
              rw [List.map_cons, toNat_ofNat (.inl (by omega)),
                ih hrest fun c hc => hascii c (List.mem_cons_of_mem _ hc)]
          · split at h
            · cases h
            · next low high more hlead =>
                obtain ⟨⟨code, rest⟩, hcode, h⟩ := Outcome.bind_eq_ok_iff.1 h
                obtain ⟨cs, -, h⟩ := Outcome.bind_eq_ok_iff.1 h
                obtain rfl := Outcome.pure_eq_ok_iff.1 h
                -- a character of more than one byte is not ASCII
                obtain ⟨hgreat, hvalid⟩ := continueChar_of_lead hlead hcode
                have hsmall := hascii _ List.mem_cons_self
                rw [toNat_ofNat hvalid] at hsmall
                omega

end DexCache.Text.Utf8
