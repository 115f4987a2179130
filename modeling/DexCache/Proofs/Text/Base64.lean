import DexCache.Text.Base64

/-!
# Base64 is read back

Encoding takes bytes apart in groups of three, and decoding puts the groups together again; only
the last group may be padded.  So whatever bytes were encoded are decoded, and the text between
is ASCII.
-/

namespace DexCache.Text.Base64

theorem value?_symbol : ∀ v < 64, value? (symbol v) = some v ∧ symbol v ≠ pad ∧ symbol v < 128 := by
  decide

theorem valueAt_symbol {v : Nat} (h : v < 64) (offset : Nat) :
    valueAt (symbol v) offset = .ok v := by
  rw [valueAt, (value?_symbol v h).1]

theorem readTail_symbol {v : Nat} (h : v < 64) (start place : Nat) {tail : Tail}
    (hpads : tail.pads = 0) (rest : List Nat) :
    readTail start place tail (symbol v :: rest) =
      readTail start (place + 1)
        { tail with values := tail.values ++ [v], lastSymbol := symbol v } rest := by
  rw [readTail, if_neg (value?_symbol v h).2.1, if_neg (by simpa using hpads), valueAt_symbol h]
  rfl

/-- The last group is read back, whatever stands before it. -/
theorem decodeFrom_last (start : Nat) {bytes : List Nat} (h : ∀ b ∈ bytes, b < 256)
    (hone : 1 ≤ bytes.length) (hthree : bytes.length ≤ 3) :
    decodeFrom start (encode bytes) = .ok bytes := by
  match bytes with
  | [a] =>
      have ha := h a (by simp)
      simp only [encode, decodeFrom]
      rw [readTail_symbol (by omega) _ _ rfl, readTail_symbol (by omega) _ _ rfl]
      simp [readTail, bind, Except.bind, closeTail]
      omega
  | [a, b] =>
      have ha := h a (by simp)
      have hb := h b (by simp)
      simp only [encode, decodeFrom]
      rw [readTail_symbol (by omega) _ _ rfl, readTail_symbol (by omega) _ _ rfl,
        readTail_symbol (by omega) _ _ rfl]
      simp [readTail, bind, Except.bind, closeTail]
      omega
  | [a, b, c] =>
      have ha := h a (by simp)
      have hb := h b (by simp)
      have hc := h c (by simp)
      simp only [encode, decodeFrom]
      rw [readTail_symbol (by omega) _ _ rfl, readTail_symbol (by omega) _ _ rfl,
        readTail_symbol (by omega) _ _ rfl, readTail_symbol (by omega) _ _ rfl]
      simp [readTail, bind, Except.bind, closeTail]
      omega

theorem decodeFrom_encode {bytes : List Nat} (h : ∀ b ∈ bytes, b < 256) (hne : bytes ≠ [])
    (start : Nat) : decodeFrom start (encode bytes) = .ok bytes := by
  induction bytes using encode.induct generalizing start with
  | case1 => exact absurd rfl hne
  | case2 a => exact decodeFrom_last start h (by simp) (by simp)
  | case3 a b => exact decodeFrom_last start h (by simp) (by simp)
  | case4 a b c rest ih =>
      cases rest with
      | nil => exact decodeFrom_last start h (by simp) (by simp)
      | cons d rest =>
          have ha := h a (by simp)
          have hb := h b (by simp)
          have hc := h c (by simp)
          have hrest := ih (fun x hx => h x (by simp [hx])) (by simp) (start + 4)
          -- more follows, so the first group is not the last one
          obtain ⟨e, more, hmore⟩ : ∃ e more, encode (d :: rest) = e :: more := by
            match rest with
            | [] => exact ⟨_, _, rfl⟩
            | [_] => exact ⟨_, _, rfl⟩
            | _ :: _ :: _ => exact ⟨_, _, rfl⟩
          rw [hmore] at hrest
          rw [encode, hmore, decodeFrom, valueAt_symbol (by omega), valueAt_symbol (by omega),
            valueAt_symbol (by omega), valueAt_symbol (by omega)]
          simp only [bind, Except.bind, hrest, pure, Except.pure, Except.ok.injEq, List.cons.injEq,
            and_true]
          omega

theorem length_encode_mod (bytes : List Nat) : (encode bytes).length % 4 = 0 := by
  induction bytes using encode.induct with
  | case1 => rfl
  | case2 a => simp [encode]
  | case3 a b => simp [encode]
  | case4 a b c rest ih =>
      simp only [encode, List.length_cons]
      omega

/-- Bytes are read back from their base64 text. -/
theorem decode_encode {bytes : List Nat} (h : ∀ b ∈ bytes, b < 256) :
    decode (encode bytes) = .ok bytes := by
  by_cases hne : bytes = []
  · subst hne
    rfl
  · have hstray : strayLast? (encode bytes) = none := by
      rw [strayLast?, if_neg (by rw [length_encode_mod]; decide)]
    unfold decode
    split
    · next hempty =>
      have hdecoded := decodeFrom_encode h hne 0
      rw [List.isEmpty_iff.1 hempty] at hdecoded
      cases hdecoded
    · rw [hstray]
      exact decodeFrom_encode h hne 0

/-- The text is ASCII. -/
theorem lt_of_mem_encode {bytes : List Nat} (h : ∀ b ∈ bytes, b < 256) :
    ∀ code ∈ encode bytes, code < 128 := by
  have hsymbol {v : Nat} (hv : v < 64) : symbol v < 128 := (value?_symbol v hv).2.2
  have hpad : pad < 128 := by decide
  induction bytes using encode.induct with
  | case1 => simp [encode]
  | case2 a =>
      have ha := h a (by simp)
      simp only [encode, List.forall_mem_cons]
      exact ⟨hsymbol (by omega), hsymbol (by omega), hpad, hpad, by simp⟩
  | case3 a b =>
      have ha := h a (by simp)
      have hb := h b (by simp)
      simp only [encode, List.forall_mem_cons]
      exact ⟨hsymbol (by omega), hsymbol (by omega), hsymbol (by omega), hpad, by simp⟩
  | case4 a b c rest ih =>
      have ha := h a (by simp)
      have hb := h b (by simp)
      have hc := h c (by simp)
      simp only [encode, List.forall_mem_cons]
      exact ⟨hsymbol (by omega), hsymbol (by omega), hsymbol (by omega), hsymbol (by omega),
        ih fun x hx => h x (by simp [hx])⟩

end DexCache.Text.Base64
