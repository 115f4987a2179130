import DexCache.Query.Token

/-!
# Layout

The tokens of a document may be written with ignorable text before, between and behind them:
separators, and comments up to the end of their line.  Nothing need stand between two tokens
unless their characters would run together.  This module says which texts are layouts of a
list of tokens, and that skipping ignorable text finds the next token of a layout.
-/

namespace DexCache.Query

/-- Characters that run together with their like: those of names and numbers. -/
def isSticky (c : Char) : Bool :=
  c.isAlphanum || c = '_' || c = '-' || c = '+' || c = '.'

/-- A text of separators and of comments that end with their line. -/
inductive Ignorable : List Char → Prop
  | nil : Ignorable []
  | separator {c : Char} {rest : List Char} (hc : isSeparator c = true) (h : Ignorable rest) :
      Ignorable (c :: rest)
  | comment {text ending rest : List Char} (htext : ∀ c ∈ text, c ≠ '\n' ∧ c ≠ '\r')
      (hending : ending = ['\n'] ∨ ending = ['\r', '\n']) (h : Ignorable rest) :
      Ignorable ('#' :: (text ++ (ending ++ rest)))

/-- Do the characters at the seam of two texts keep them apart? -/
def Apart (left right : List Char) : Prop :=
  ∀ a ∈ left.getLast?, ∀ b ∈ right.head?, ¬(isSticky a = true ∧ isSticky b = true)

/-- A text that spells these tokens; a last comment may end with the text. -/
inductive Layout : List (List Char) → List Char → Prop
  | done {gap : List Char} (hgap : Ignorable gap) : Layout [] gap
  | comment {gap text : List Char} (hgap : Ignorable gap)
      (htext : ∀ c ∈ text, c ≠ '\n' ∧ c ≠ '\r') : Layout [] (gap ++ '#' :: text)
  | token {gap token rest : List Char} {tokens : List (List Char)} (hgap : Ignorable gap)
      (hapart : Apart token rest) (hrest : Layout tokens rest) :
      Layout (token :: tokens) (gap ++ (token ++ rest))

/-- A text that starts with a character that is not skipped. -/
def Opens (cs : List Char) : Prop :=
  ∃ c rest, cs = c :: rest ∧ isSeparator c = false ∧ c ≠ '#'

theorem opens_of_isSticky {c : Char} (hc : isSticky c = true) (rest : List Char) :
    Opens (c :: rest) := by
  have hne {d : Char} (hd : isSticky d = false) : c ≠ d := by
    rintro rfl
    rw [hc] at hd
    cases hd
  refine ⟨c, rest, rfl, ?_, hne (by decide)⟩
  simp [isSeparator, hne (d := ' ') (by decide), hne (d := '\t') (by decide),
    hne (d := '\n') (by decide), hne (d := '\r') (by decide), hne (d := ',') (by decide)]

/-- A mark is not skipped. -/
theorem opens_mark (c : Char) (rest : List Char) (hc : isSeparator c = false := by decide)
    (hcomment : c ≠ '#' := by decide) : Opens (c :: rest) :=
  ⟨c, rest, rfl, hc, hcomment⟩

section Skipping

theorem commentCloses_of_line {text ending : List Char}
    (htext : ∀ c ∈ text, c ≠ '\n' ∧ c ≠ '\r')
    (hending : ending = ['\n'] ∨ ending = ['\r', '\n']) (rest : List Char) :
    commentCloses (text ++ (ending ++ rest)) = true := by
  induction text with
  | nil => rcases hending with rfl | rfl <;> rfl
  | cons c text ih =>
      have hc := htext c List.mem_cons_self
      rw [List.cons_append, commentCloses.eq_4 _ _ hc.1 hc.2]
      exact ih fun d hd => htext d (List.mem_cons_of_mem _ hd)

theorem commentCloses_of_text {text : List Char} (htext : ∀ c ∈ text, c ≠ '\n' ∧ c ≠ '\r') :
    commentCloses text = true := by
  induction text with
  | nil => rfl
  | cons c text ih =>
      have hc := htext c List.mem_cons_self
      rw [commentCloses.eq_4 _ _ hc.1 hc.2]
      exact ih fun d hd => htext d (List.mem_cons_of_mem _ hd)

theorem skipFrom_text {text : List Char} (htext : ∀ c ∈ text, c ≠ '\n' ∧ c ≠ '\r')
    (rest : List Char) : skipFrom true (text ++ rest) = skipFrom true rest := by
  induction text with
  | nil => rfl
  | cons c text ih =>
      have hc := htext c List.mem_cons_self
      rw [List.cons_append, skipFrom]
      simp only [hc.1, hc.2, decide_false, Bool.or_self, Bool.false_eq_true, if_false]
      exact ih fun d hd => htext d (List.mem_cons_of_mem _ hd)

theorem skipFrom_ending {ending : List Char} (hending : ending = ['\n'] ∨ ending = ['\r', '\n'])
    (rest : List Char) : skipFrom true (ending ++ rest) = skipFrom false rest := by
  rcases hending with rfl | rfl
  · rfl
  · rfl

theorem skipIgnored_comment {rest : List Char} (h : commentCloses rest = true) :
    skipIgnored ('#' :: rest) = skipFrom true rest := by
  rw [skipIgnored, skipFrom, if_neg (by decide), if_pos (by simpa using h)]

/-- Ignorable text is skipped. -/
theorem Ignorable.skipIgnored_append {gap : List Char} (h : Ignorable gap) (rest : List Char) :
    skipIgnored (gap ++ rest) = skipIgnored rest := by
  induction h with
  | nil => rfl
  | separator hc _ ih =>
      rw [List.cons_append, skipIgnored, skipFrom, if_pos hc]
      exact ih
  | comment htext hending _ ih =>
      simp only [List.cons_append, List.append_assoc]
      rw [skipIgnored_comment (commentCloses_of_line htext hending _), skipFrom_text htext,
        skipFrom_ending hending]
      exact ih

theorem Ignorable.append {gap more : List Char} (h : Ignorable gap) (hmore : Ignorable more) :
    Ignorable (gap ++ more) := by
  induction h with
  | nil => exact hmore
  | separator hc _ ih => exact .separator hc ih
  | comment htext hending _ ih =>
      simp only [List.cons_append, List.append_assoc]
      exact .comment htext hending ih

theorem Opens.skipIgnored_eq {cs : List Char} (h : Opens cs) (rest : List Char) :
    skipIgnored (cs ++ rest) = cs ++ rest := by
  obtain ⟨c, cs, rfl, hseparator, hcomment⟩ := h
  simp [skipIgnored, skipFrom, hseparator, hcomment]

theorem isSeparator_of_skipFrom {inComment : Bool} {cs rest : List Char} {c : Char}
    (h : skipFrom inComment cs = c :: rest) : isSeparator c = false := by
  induction cs generalizing inComment with
  | nil => cases inComment <;> cases h
  | cons d cs ih =>
      cases inComment with
      | true =>
          rw [skipFrom] at h
          split at h
          · exact ih h
          · exact ih h
      | false =>
          rw [skipFrom] at h
          split at h
          · exact ih h
          · next hseparator =>
              split at h
              · exact ih h
              · cases h
                exact Bool.not_eq_true _ ▸ hseparator

/-- What is skipped in front of a token is ignorable. -/
theorem exists_ignorable_of_skipFrom {cs rest : List Char} {c : Char} (hc : c ≠ '#') :
    (skipFrom false cs = c :: rest → ∃ gap, Ignorable gap ∧ cs = gap ++ c :: rest) ∧
    (skipFrom true cs = c :: rest → commentCloses cs = true →
      ∃ text ending gap, (∀ d ∈ text, d ≠ '\n' ∧ d ≠ '\r') ∧
        (ending = ['\n'] ∨ ending = ['\r', '\n']) ∧ Ignorable gap ∧
        cs = text ++ (ending ++ (gap ++ c :: rest))) := by
  -- The two states of the skip call each other, so both halves are proved in one induction:
  -- outside a comment the gap grows at its front, inside one the comment's text does.
  induction cs with
  | nil => simp [skipFrom]
  | cons d cs ih =>
      constructor
      · intro h
        rw [skipFrom] at h
        split at h
        · next hseparator =>
            obtain ⟨gap, hgap, rfl⟩ := ih.1 h
            exact ⟨d :: gap, .separator hseparator hgap, rfl⟩
        · split at h
          · next hcomment =>
              rw [Bool.and_eq_true, decide_eq_true_eq] at hcomment
              obtain ⟨text, ending, gap, htext, hending, hgap, rfl⟩ := ih.2 h hcomment.2
              refine ⟨'#' :: (text ++ (ending ++ gap)), .comment htext hending hgap, ?_⟩
              simp [hcomment.1]
          · cases h
            exact ⟨[], .nil, rfl⟩
      · intro h hcloses
        rw [skipFrom] at h
        by_cases hline : d = '\n'
        · subst hline
          obtain ⟨gap, hgap, rfl⟩ := ih.1 (by simpa using h)
          exact ⟨[], ['\n'], gap, by simp, .inl rfl, hgap, rfl⟩
        · by_cases hreturn : d = '\r'
          · subst hreturn
            have hnext : cs.head? = some '\n' := by simpa [commentCloses] using hcloses
            obtain ⟨more, rfl⟩ := List.head?_eq_some_iff.1 hnext
            have hskip : skipFrom false ('\n' :: more) = c :: rest := by simpa [skipFrom] using h
            obtain ⟨gap, hgap, heq⟩ := ih.1 hskip
            -- the line feed behind the return is a separator, so it is the gap's first character
            cases hgap with
            | nil =>
                have hseparator := isSeparator_of_skipFrom hskip
                cases heq
                cases hseparator
            | separator _ hgap =>
                cases heq
                exact ⟨[], ['\r', '\n'], _, by simp, .inr rfl, hgap, rfl⟩
            | comment => simp at heq
          · rw [commentCloses.eq_4 _ _ hline hreturn] at hcloses
            obtain ⟨text, ending, gap, htext, hending, hgap, rfl⟩ :=
              ih.2 (by simpa [hline, hreturn] using h) hcloses
            refine ⟨d :: text, ending, gap, ?_, hending, hgap, rfl⟩
            intro e he
            rcases List.mem_cons.1 he with rfl | he
            · exact ⟨hline, hreturn⟩
            · exact htext e he

/-- The text in front of what is left after skipping is ignorable. -/
theorem exists_ignorable {cs rest : List Char} {c : Char} (h : skipIgnored cs = c :: rest)
    (hc : c ≠ '#') : ∃ gap, Ignorable gap ∧ cs = gap ++ c :: rest :=
  (exists_ignorable_of_skipFrom hc).1 h

end Skipping

namespace Layout

variable {tokens : List (List Char)} {cs gap token : List Char}

/-- Ignorable text may stand in front of a layout. -/
theorem prepend (hgap : Ignorable gap) (h : Layout tokens cs) : Layout tokens (gap ++ cs) := by
  cases h with
  | done hgap' => exact .done (hgap.append hgap')
  | comment hgap' htext =>
      rw [← List.append_assoc]
      exact .comment (hgap.append hgap') htext
  | token hgap' hapart hrest =>
      rw [← List.append_assoc]
      exact .token (hgap.append hgap') hapart hrest

theorem separate {c : Char} (hc : isSeparator c = true) (h : Layout tokens cs) :
    Layout tokens (c :: cs) :=
  prepend (.separator hc .nil) h

/-- Behind the last token nothing is left. -/
theorem skipIgnored_eq_nil (h : Layout [] cs) : skipIgnored cs = [] := by
  cases h with
  | done hgap =>
      have hskip := hgap.skipIgnored_append []
      rw [List.append_nil] at hskip
      exact hskip
  | comment hgap htext =>
      have htext' := skipFrom_text htext []
      rw [List.append_nil] at htext'
      rw [hgap.skipIgnored_append, skipIgnored_comment (commentCloses_of_text htext), htext']
      rfl

/-- Skipping finds the next token. -/
theorem exists_skipIgnored_eq (h : Layout (token :: tokens) cs) (hopens : Opens token) :
    ∃ rest, skipIgnored cs = token ++ rest ∧ Apart token rest ∧ Layout tokens rest := by
  cases h with
  | token hgap hapart hrest =>
      exact ⟨_, by rw [hgap.skipIgnored_append, hopens.skipIgnored_eq], hapart, hrest⟩

/-- There are no more tokens than characters. -/
theorem length_le (h : Layout tokens cs) (hne : ∀ token ∈ tokens, token ≠ []) :
    tokens.length ≤ cs.length := by
  induction h with
  | done => exact Nat.zero_le _
  | comment => exact Nat.zero_le _
  | token _ _ _ ih =>
      have hrest := ih fun t ht => hne t (List.mem_cons_of_mem _ ht)
      have htoken := List.length_pos_iff.2 (hne _ List.mem_cons_self)
      simp only [List.length_cons, List.length_append]
      omega

/-- Skipping leaves a layout of the same tokens. -/
theorem skip (h : Layout (token :: tokens) cs) (hopens : Opens token) :
    Layout (token :: tokens) (skipIgnored cs) := by
  obtain ⟨rest, hskip, hapart, hrest⟩ := h.exists_skipIgnored_eq hopens
  rw [hskip]
  exact .token .nil hapart hrest

/-- Skipping finds the first character of the next token. -/
theorem head?_skipIgnored (h : Layout (token :: tokens) cs) (hopens : Opens token) :
    (skipIgnored cs).head? = token.head? := by
  obtain ⟨rest, hskip, -, -⟩ := h.exists_skipIgnored_eq hopens
  obtain ⟨c, more, rfl, -⟩ := hopens
  rw [hskip]
  rfl

end Layout

end DexCache.Query
