import DexCache.Proofs.Outcome
import DexCache.Proofs.Text.Ascii
import DexCache.Proofs.Text.Base64
import Mathlib.Algebra.Group.Nat.Defs
import Mathlib.Data.List.Basic
import Mathlib.Data.Option.Basic

/-!
# The one base64 text of a byte sequence

A base64 text is a matter of bits: the values of its symbols, six bits each, hold the bits of the
bytes in order, and the last value is filled up with zeros.  Padding fills the text up to groups of
four.  This fixes the text, so each byte sequence has exactly one, the one that is encoded; and
decoding takes no other.
-/

namespace DexCache.Text.Base64

/-! ### Bits -/

/-- The lowest bits of a number, as many as asked for, the highest of them first. -/
def bits : Nat → Nat → List Bool
  | 0, _ => []
  | width + 1, n => bits width (n / 2) ++ [decide (n % 2 = 1)]

@[simp] theorem length_bits (width n : Nat) : (bits width n).length = width := by
  induction width generalizing n with
  | zero => rfl
  | succ width ih => rw [bits, List.length_append, ih, List.length_singleton]

/-- The higher of some bits, and then the lower ones. -/
theorem bits_add (high low n : Nat) :
    bits (high + low) n = bits high (n / 2 ^ low) ++ bits low (n % 2 ^ low) := by
  induction low generalizing n with
  | zero => simp [bits]
  | succ low ih =>
      have hdiv : n / 2 / 2 ^ low = n / 2 ^ (low + 1) := by
        rw [Nat.div_div_eq_div_mul, Nat.pow_succ']
      have hmod : n / 2 % 2 ^ low = n % 2 ^ (low + 1) / 2 := by
        rw [Nat.pow_succ', Nat.mod_mul_right_div_self]
      have hlast : n % 2 ^ (low + 1) % 2 = n % 2 :=
        Nat.mod_mod_of_dvd n (Nat.pow_succ' ▸ Nat.dvd_mul_right 2 (2 ^ low))
      rw [← Nat.add_assoc, bits, bits, ih, hdiv, hmod, hlast, List.append_assoc]

theorem bits_join (high : Nat) {low m n : Nat} (h : n < 2 ^ low) :
    bits (high + low) (m * 2 ^ low + n) = bits high m ++ bits low n := by
  rw [bits_add, Nat.mul_comm, Nat.mul_add_div (Nat.two_pow_pos low), Nat.div_eq_of_lt h,
    Nat.add_zero, Nat.mul_add_mod, Nat.mod_eq_of_lt h]

theorem bits_inj {width m n : Nat} (hm : m < 2 ^ width) (hn : n < 2 ^ width)
    (h : bits width m = bits width n) : m = n := by
  induction width generalizing m n with
  | zero => omega
  | succ width ih =>
      obtain ⟨hhigh, hlast⟩ := List.append_inj h (by simp)
      have hlow : m % 2 = 1 ↔ n % 2 = 1 := by simpa using hlast
      have hrest := ih (by omega) (by omega) hhigh
      omega

theorem length_flatMap_bits (width : Nat) (ns : List Nat) :
    (ns.flatMap (bits width)).length = width * ns.length := by
  induction ns with
  | nil => rfl
  | cons n ns ih =>
      rw [List.flatMap_cons, List.length_append, length_bits, ih, List.length_cons, Nat.mul_succ,
        Nat.add_comm]

/-- Numbers that fit into a width can be told from their bits. -/
theorem eq_of_flatMap_bits {width : Nat} {ms ns : List Nat} (hms : ∀ m ∈ ms, m < 2 ^ width)
    (hns : ∀ n ∈ ns, n < 2 ^ width) (hlength : ms.length = ns.length)
    (h : ms.flatMap (bits width) = ns.flatMap (bits width)) : ms = ns := by
  induction ms generalizing ns with
  | nil => exact (List.eq_nil_of_length_eq_zero hlength.symm).symm
  | cons m ms ih =>
      cases ns with
      | nil => cases hlength
      | cons n ns =>
          rw [List.forall_mem_cons] at hms hns
          rw [List.flatMap_cons, List.flatMap_cons] at h
          obtain ⟨hfirst, hrest⟩ := List.append_inj h (by simp)
          rw [bits_inj hms.1 hns.1 hfirst, ih hms.2 hns.2 (Nat.succ.inj hlength) hrest]

/-! ### The format -/

/-- The symbols in the order of their values. -/
def alphabet : List Char :=
  "ABCDEFGHIJKLMNOPQRSTUVWXYZabcdefghijklmnopqrstuvwxyz0123456789+/".toList

/-- The texts that are base64 of some bytes. -/
inductive Spells (bytes : List Nat) : List Char → Prop
  | mk (octets : ∀ b ∈ bytes, b < 256) (values : List Nat) (symbols : List Char) (zeros pads : Nat)
      (letters : symbols.map some = values.map (alphabet[·]?))
      (content : values.flatMap (bits 6) = bytes.flatMap (bits 8) ++ List.replicate zeros false)
      (fewZeros : zeros < 6) (fewPads : pads < 4)
      (quartets : (symbols ++ List.replicate pads '=').length % 4 = 0) :
      Spells bytes (symbols ++ List.replicate pads '=')

theorem getElem?_alphabet : ∀ v < 64, alphabet[v]? = some (Char.ofNat (symbol v)) := by decide

theorem lt_of_letters {values : List Nat} {symbols : List Char}
    (h : symbols.map some = values.map (alphabet[·]?)) : ∀ v ∈ values, v < 2 ^ 6 := by
  intro v hv
  obtain ⟨c, -, hc⟩ := List.mem_map.1 (h ▸ List.mem_map_of_mem hv)
  exact (List.getElem?_eq_some_iff.1 hc.symm).1

theorem Spells.octets {bytes : List Nat} {text : List Char} (h : Spells bytes text) :
    ∀ b ∈ bytes, b < 256 := by
  cases h with
  | mk octets => exact octets

/-- Bytes are spelled by one text only. -/
theorem Spells.unique {bytes : List Nat} {text text' : List Char} (h : Spells bytes text)
    (h' : Spells bytes text') : text = text' := by
  cases h with
  | mk octets values symbols zeros pads letters content fewZeros fewPads quartets =>
      cases h' with
      | mk _ values' symbols' zeros' pads' letters' content' fewZeros' fewPads' quartets' =>
          have hlength := congrArg List.length content
          have hlength' := congrArg List.length content'
          rw [List.length_append, length_flatMap_bits, length_flatMap_bits,
            List.length_replicate] at hlength hlength'
          have hcount : symbols.length = values.length := by
            simpa using congrArg List.length letters
          have hcount' : symbols'.length = values'.length := by
            simpa using congrArg List.length letters'
          -- the bytes tell how many values there are, and so how many zeros and how much padding
          have hzeros : zeros = zeros' := by omega
          have hvalues : values = values' := by
            refine eq_of_flatMap_bits (lt_of_letters letters) (lt_of_letters letters') (by omega) ?_
            rw [content, content', hzeros]
          have hsymbols : symbols = symbols' :=
            List.map_injective_iff.2 (Option.some_injective Char)
              (letters.trans (hvalues ▸ letters'.symm))
          have hpads : pads = pads' := by
            simp only [List.length_append, List.length_replicate] at quartets quartets'
            omega
          rw [hsymbols, hpads]

/-! ### What is encoded is base64 -/

/-- The symbol of a value as a character. -/
def letter (v : Nat) : Char :=
  Char.ofNat (symbol v)

theorem some_letter {v : Nat} (h : v < 64) : some (letter v) = alphabet[v]? :=
  (getElem?_alphabet v h).symm

section Pieces

variable {a b c : Nat}

theorem bits_first (a : Nat) : bits 8 a = bits 6 (a / 4) ++ bits 2 (a % 4) :=
  bits_add 6 2 a

theorem bits_second (hb : b < 256) :
    bits 6 (a % 4 * 16 + b / 16) = bits 2 (a % 4) ++ bits 4 (b / 16) :=
  bits_join 2 (show b / 16 < 2 ^ 4 by omega)

theorem bits_middle (b : Nat) : bits 8 b = bits 4 (b / 16) ++ bits 4 (b % 16) :=
  bits_add 4 4 b

theorem bits_third (hc : c < 256) :
    bits 6 (b % 16 * 4 + c / 64) = bits 4 (b % 16) ++ bits 2 (c / 64) :=
  bits_join 4 (show c / 64 < 2 ^ 2 by omega)

theorem bits_last (c : Nat) : bits 8 c = bits 2 (c / 64) ++ bits 6 (c % 64) :=
  bits_add 2 6 c

end Pieces

/-- Three bytes in front are four symbols in front. -/
theorem Spells.group {bytes : List Nat} {text : List Char} (h : Spells bytes text) {a b c : Nat}
    (ha : a < 256) (hb : b < 256) (hc : c < 256) :
    Spells (a :: b :: c :: bytes)
      (letter (a / 4) :: letter (a % 4 * 16 + b / 16) :: letter (b % 16 * 4 + c / 64) ::
        letter (c % 64) :: text) := by
  cases h with
  | mk octets values symbols zeros pads letters content fewZeros fewPads quartets =>
      refine .mk ?_
        (a / 4 :: (a % 4 * 16 + b / 16) :: (b % 16 * 4 + c / 64) :: (c % 64) :: values)
        (letter (a / 4) :: letter (a % 4 * 16 + b / 16) :: letter (b % 16 * 4 + c / 64) ::
          letter (c % 64) :: symbols) zeros pads ?_ ?_ fewZeros fewPads ?_
      · simp only [List.forall_mem_cons]
        exact ⟨ha, hb, hc, octets⟩
      · simp only [List.map_cons, letters]
        rw [some_letter (by omega), some_letter (by omega), some_letter (by omega),
          some_letter (by omega)]
      · simp only [List.flatMap_cons, content, bits_second hb, bits_third hc, bits_first a,
          bits_middle b, bits_last c, List.append_assoc]
      · simp only [List.cons_append, List.length_cons]
        omega

theorem spells_encode {bytes : List Nat} (h : ∀ b ∈ bytes, b < 256) :
    Spells bytes ((encode bytes).map Char.ofNat) := by
  induction bytes using encode.induct with
  | case1 => exact .mk h [] [] 0 0 rfl rfl (by decide) (by decide) rfl
  | case2 a =>
      have ha := h a (by simp)
      refine .mk h [a / 4, a % 4 * 16] [letter (a / 4), letter (a % 4 * 16)] 4 2 ?_ ?_ (by decide)
        (by decide) (by simp)
      · simp only [List.map_cons, List.map_nil]
        rw [some_letter (by omega), some_letter (by omega)]
      · have hfilled := bits_second (a := a) (b := 0) (by decide)
        simp only [List.flatMap_cons, List.flatMap_nil, List.append_nil, bits_first a]
        rw [List.append_assoc]
        exact congrArg (bits 6 (a / 4) ++ ·) hfilled
  | case3 a b =>
      have ha := h a (by simp)
      have hb := h b (by simp)
      refine .mk h [a / 4, a % 4 * 16 + b / 16, b % 16 * 4]
        [letter (a / 4), letter (a % 4 * 16 + b / 16), letter (b % 16 * 4)] 2 1 ?_ ?_ (by decide)
        (by decide) (by simp)
      · simp only [List.map_cons, List.map_nil]
        rw [some_letter (by omega), some_letter (by omega), some_letter (by omega)]
      · have hfilled := bits_third (b := b) (c := 0) (by decide)
        simp only [List.flatMap_cons, List.flatMap_nil, List.append_nil, bits_first a,
          bits_second hb, bits_middle b, List.append_assoc]
        exact congrArg (fun tail => bits 6 (a / 4) ++ (bits 2 (a % 4) ++ (bits 4 (b / 16) ++ tail)))
          hfilled
  | case4 a b c rest ih =>
      simp only [List.forall_mem_cons] at h
      exact (ih h.2.2.2).group h.1 h.2.1 h.2.2.1

/-! ### What is decoded was encoded -/

theorem valueAt_eq_ok_iff {byte offset v : Nat} :
    valueAt byte offset = .ok v ↔ v < 64 ∧ byte = symbol v := by
  constructor
  · intro h
    unfold valueAt at h
    split at h
    · next v' hvalue =>
        obtain rfl := Except.ok.inj h
        unfold value? at hvalue
        unfold symbol
        split_ifs at hvalue
        all_goals
          cases hvalue
          split_ifs
          all_goals omega
    · cases h
  · rintro ⟨hv, rfl⟩
    exact valueAt_symbol hv offset

/-- The last group is read as symbols and then padding. -/
theorem of_readTail {start place : Nat} {tail tail' : Tail} {codes : List Nat}
    (h : readTail start place tail codes = .ok tail') :
    ∃ values pads, codes = values.map symbol ++ List.replicate pads pad ∧
      (∀ v ∈ values, v < 64) ∧ (tail.pads ≠ 0 → values = []) ∧
      tail'.values = tail.values ++ values ∧ tail'.pads = tail.pads + pads := by
  induction codes generalizing place tail with
  | nil =>
      obtain rfl := Except.ok.inj h
      exact ⟨[], 0, rfl, by simp, fun _ => rfl, by simp, rfl⟩
  | cons code codes ih =>
      rw [readTail] at h
      split at h
      · next hpad =>
          split at h
          · cases h
          · obtain ⟨values, pads, rfl, -, hnone, hvalues, hpads⟩ := ih h
            obtain rfl := hnone (Nat.succ_ne_zero _)
            refine ⟨[], pads + 1, ?_, by simp, fun _ => rfl, hvalues, ?_⟩
            · rw [hpad]
              rfl
            · rw [hpads]
              simp only
              omega
      · split at h
        · cases h
        · next hpads =>
            obtain ⟨v, hv, h⟩ := Outcome.bind_eq_ok_iff.1 h
            obtain ⟨hsmall, rfl⟩ := valueAt_eq_ok_iff.1 hv
            obtain ⟨values, pads, rfl, hvalues, -, hread, hcount⟩ := ih h
            refine ⟨v :: values, pads, rfl, ?_, fun hne => absurd hne hpads, ?_, hcount⟩
            · exact List.forall_mem_cons.2 ⟨hsmall, hvalues⟩
            · rw [hread, List.append_assoc]
              rfl

/-- The bytes that four values make up are encoded as these values. -/
theorem encode_group {a b c d : Nat} (ha : a < 64) (hb : b < 64) (hc : c < 64) (hd : d < 64)
    (rest : List Nat) :
    encode ((a * 4 + b / 16) :: (b % 16 * 16 + c / 4) :: (c % 4 * 64 + d) :: rest) =
        symbol a :: symbol b :: symbol c :: symbol d :: encode rest ∧
      a * 4 + b / 16 < 256 ∧ b % 16 * 16 + c / 4 < 256 ∧ c % 4 * 64 + d < 256 := by
  have hfirst : (a * 4 + b / 16) / 4 = a := by omega
  have hsecond : (a * 4 + b / 16) % 4 * 16 + (b % 16 * 16 + c / 4) / 16 = b := by omega
  have hthird : (b % 16 * 16 + c / 4) % 16 * 4 + (c % 4 * 64 + d) / 64 = c := by omega
  have hlast : (c % 4 * 64 + d) % 64 = d := by omega
  refine ⟨?_, by omega, by omega, by omega⟩
  rw [encode, hfirst, hsecond, hthird, hlast]

/-- Three values whose lowest bits are zeros are those of two bytes. -/
theorem encode_two {a b c : Nat} (ha : a < 64) (hb : b < 64) (hc : c < 64) (hzeros : c % 4 = 0) :
    encode [a * 4 + b / 16, b % 16 * 16 + c / 4] = [symbol a, symbol b, symbol c, pad] ∧
      a * 4 + b / 16 < 256 ∧ b % 16 * 16 + c / 4 < 256 := by
  have hfirst : (a * 4 + b / 16) / 4 = a := by omega
  have hsecond : (a * 4 + b / 16) % 4 * 16 + (b % 16 * 16 + c / 4) / 16 = b := by omega
  have hthird : (b % 16 * 16 + c / 4) % 16 * 4 = c := by omega
  refine ⟨?_, by omega, by omega⟩
  rw [encode, hfirst, hsecond, hthird]

/-- Two values whose lowest bits are zeros are those of one byte. -/
theorem encode_one {a b : Nat} (ha : a < 64) (hb : b < 64) (hzeros : b % 16 = 0) :
    encode [a * 4 + b / 16] = [symbol a, symbol b, pad, pad] ∧ a * 4 + b / 16 < 256 := by
  have hfirst : (a * 4 + b / 16) / 4 = a := by omega
  have hsecond : (a * 4 + b / 16) % 4 * 16 = b := by omega
  refine ⟨?_, by omega⟩
  rw [encode, hfirst, hsecond]

/-- The last group is that of the bytes that it is read as. -/
theorem eq_encode_of_closeTail {start place : Nat} {tail : Tail} {codes bytes : List Nat}
    (hlength : codes.length ≤ 4) (hread : readTail start place ⟨[], 0, 0, 0⟩ codes = .ok tail)
    (h : closeTail start tail = .ok bytes) :
    codes = encode bytes ∧ ∀ b ∈ bytes, b < 256 := by
  obtain ⟨values, pads, rfl, hsmall, -, hvalues, hpads⟩ := of_readTail hread
  rw [List.nil_append] at hvalues
  rw [Nat.zero_add] at hpads
  rw [List.length_append, List.length_map, List.length_replicate] at hlength
  rw [closeTail, hvalues, hpads] at h
  split at h
  · cases h
  split at h
  · cases h
  have hpadding : pads = 4 - values.length := by omega
  subst hpadding
  -- the group has two, three or four values
  obtain htwo | hthree | hfour :
      values.length = 2 ∨ values.length = 3 ∨ values.length = 4 := by omega
  · obtain ⟨a, b, rfl⟩ := List.length_eq_two.1 htwo
    simp only [List.forall_mem_cons] at hsmall
    simp only [ne_eq, ite_not] at h
    split at h
    · next hzeros =>
        obtain rfl := Except.ok.inj h
        obtain ⟨hencode, hbyte⟩ := encode_one hsmall.1 hsmall.2.1 hzeros
        exact ⟨hencode.symm, by simpa using hbyte⟩
    · cases h
  · obtain ⟨a, b, c, rfl⟩ := List.length_eq_three.1 hthree
    simp only [List.forall_mem_cons] at hsmall
    simp only [ne_eq, ite_not] at h
    split at h
    · next hzeros =>
        obtain rfl := Except.ok.inj h
        obtain ⟨hencode, hbytes⟩ := encode_two hsmall.1 hsmall.2.1 hsmall.2.2.1 hzeros
        exact ⟨hencode.symm, by simpa using hbytes⟩
    · cases h
  · obtain ⟨a, b, c, d, rfl⟩ := List.length_eq_four.1 hfour
    simp only [List.forall_mem_cons] at hsmall
    obtain rfl := Except.ok.inj h
    obtain ⟨hencode, hbytes⟩ := encode_group hsmall.1 hsmall.2.1 hsmall.2.2.1 hsmall.2.2.2.1 []
    exact ⟨hencode.symm, by simpa using hbytes⟩

theorem eq_encode_of_decodeFrom {start : Nat} {codes bytes : List Nat}
    (h : decodeFrom start codes = .ok bytes) :
    codes = encode bytes ∧ ∀ b ∈ bytes, b < 256 := by
  induction start, codes using decodeFrom.induct generalizing bytes with
  | case1 start a b c d e rest ih =>
      rw [decodeFrom] at h
      obtain ⟨a, hfirst, h⟩ := Outcome.bind_eq_ok_iff.1 h
      obtain ⟨b, hsecond, h⟩ := Outcome.bind_eq_ok_iff.1 h
      obtain ⟨c, hthird, h⟩ := Outcome.bind_eq_ok_iff.1 h
      obtain ⟨d, hlast, h⟩ := Outcome.bind_eq_ok_iff.1 h
      obtain ⟨more, hmore, h⟩ := Outcome.bind_eq_ok_iff.1 h
      obtain rfl := Outcome.pure_eq_ok_iff.1 h
      obtain ⟨ha, rfl⟩ := valueAt_eq_ok_iff.1 hfirst
      obtain ⟨hb, rfl⟩ := valueAt_eq_ok_iff.1 hsecond
      obtain ⟨hc, rfl⟩ := valueAt_eq_ok_iff.1 hthird
      obtain ⟨hd, rfl⟩ := valueAt_eq_ok_iff.1 hlast
      obtain ⟨hrest, hoctets⟩ := ih hmore
      obtain ⟨hencode, hx, hy, hz⟩ := encode_group ha hb hc hd more
      refine ⟨by rw [hencode, ← hrest], ?_⟩
      simp only [List.forall_mem_cons]
      exact ⟨hx, hy, hz, hoctets⟩
  | case2 start last hlast =>
      rw [decodeFrom] at h
      · obtain ⟨tail, hread, h⟩ := Outcome.bind_eq_ok_iff.1 h
        refine eq_encode_of_closeTail ?_ hread h
        rcases last with _ | ⟨a, _ | ⟨b, _ | ⟨c, _ | ⟨d, _ | ⟨e, rest⟩⟩⟩⟩⟩
        -- at most four characters are left where no five are
        case cons.cons.cons.cons.cons => exact (hlast a b c d e rest rfl).elim
        all_goals simp
      · exact hlast

theorem eq_encode_of_decode {codes bytes : List Nat} (h : decode codes = .ok bytes) :
    codes = encode bytes ∧ ∀ b ∈ bytes, b < 256 := by
  unfold decode at h
  split at h
  · next hempty =>
      obtain rfl := Except.ok.inj h
      exact ⟨List.isEmpty_iff.1 hempty, by simp⟩
  · split at h
    · cases h
    · exact eq_encode_of_decodeFrom h

/-- Exactly the base64 texts of some bytes are decoded to these bytes. -/
theorem decode_eq_ok_iff {text : List Char} {bytes : List Nat} :
    decode (Utf8.encode text) = .ok bytes ↔ Spells bytes text := by
  constructor
  · intro h
    obtain ⟨hcodes, hoctets⟩ := eq_encode_of_decode h
    have hascii : ∀ c ∈ text, c.toNat < 128 := by
      refine Utf8.ascii_of_encode ?_
      rw [hcodes]
      exact lt_of_mem_encode hoctets
    have htext : text = (encode bytes).map Char.ofNat := by
      rw [← hcodes, Utf8.encode_ascii hascii, List.map_map]
      exact ((List.map_congr_left fun c _ => Char.ofNat_toNat c).trans (List.map_id text)).symm
    exact htext ▸ spells_encode hoctets
  · intro h
    have hoctets := h.octets
    rw [h.unique (spells_encode hoctets), Utf8.encode_map_ofNat (lt_of_mem_encode hoctets),
      decode_encode hoctets]

end DexCache.Text.Base64
