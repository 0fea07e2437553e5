import PickUpLight.Theory.Machine

/-!
# The tokens of a statement

What a database server reads in the text of a statement: words, unquoted numbers, literals in
single quotes, and a few symbols. A quote ends a literal, two quotes are one, and a backslash
starts an escape. Characters that start anything else (comments, other quotes, operators) are not
read here: such a text has no tokens.

A program that splices a text into a statement wants it to come out as one token. `exec_digits` and
`exec_literal` say when it does: a number when all its characters are digits, a literal
when it is `Literal`, and `exec_literal_iff` says that nothing else comes out as itself.
-/

namespace PickUpLight.Sql

open PickUpLight.Theory

/-- A token. -/
inductive Token where
  /-- A keyword or a name. -/
  | word (s : String)
  /-- An unquoted number. -/
  | number (s : String)
  /-- A literal, as it is read. -/
  | text (s : String)
  /-- A symbol. -/
  | symbol (c : Char)
  deriving DecidableEq, Repr

/-- Where the lexer is, with what it has read of a token. -/
inductive Mode where
  /-- Between two tokens. -/
  | between
  /-- In a word or a number. -/
  | word (acc : List Char)
  /-- In a literal. -/
  | text (acc : List Char)
  /-- In a literal, after a quote: the end of it, or the first of two. -/
  | quoted (acc : List Char)
  /-- In a literal, after a backslash. -/
  | escaped (acc : List Char)
  deriving DecidableEq, Repr

/-- `'`. -/
def quote : Char := Char.ofNat 39

/-- `\`. -/
def backslash : Char := Char.ofNat 92

def isWordChar (c : Char) : Bool := c.isAlphanum || c == '_'

def isSymbol (c : Char) : Bool := c == '(' || c == ')' || c == ',' || c == '=' || c == '*'

/-- What a backslash and a character are read as. -/
def unescape (c : Char) : List Char :=
  match c with
  | '0' => [Char.ofNat 0]
  | 'b' => [Char.ofNat 8]
  | 'n' => [Char.ofNat 10]
  | 'r' => [Char.ofNat 13]
  | 't' => [Char.ofNat 9]
  | 'Z' => [Char.ofNat 26]
  | '%' => [backslash, '%']
  | '_' => [backslash, '_']
  | c => [c]

/-- The token of a run of word characters: all digits are a number, and no word starts with a
digit. -/
def classify (s : List Char) : Option Token :=
  if s.all Char.isDigit then some (.number (String.ofList s))
  else if s.headD 'a' |>.isDigit then none
  else some (.word (String.ofList s))

/-- The first character of a token, or between two. -/
def start (tokens : List Token) (c : Char) : Option (Mode × List Token) :=
  if c.isWhitespace then some (.between, tokens)
  else if isWordChar c then some (.word [c], tokens)
  else if c = quote then some (.text [], tokens)
  else if isSymbol c then some (.between, tokens ++ [.symbol c])
  else none

/-- **The lexer**, with the tokens it has read. -/
def lexer : Machine (Mode × List Token) Char := fun (mode, tokens) c =>
  match mode with
  | .between => start tokens c
  | .word acc =>
    if isWordChar c then some (.word (acc ++ [c]), tokens)
    else (classify acc).bind fun token => start (tokens ++ [token]) c
  | .text acc =>
    if c = quote then some (.quoted acc, tokens)
    else if c = backslash then some (.escaped acc, tokens)
    else some (.text (acc ++ [c]), tokens)
  | .quoted acc =>
    if c = quote then some (.text (acc ++ [quote]), tokens)
    else start (tokens ++ [.text (String.ofList acc)]) c
  | .escaped acc => some (.text (acc ++ unescape c), tokens)

/-- The tokens at the end of the text; a literal has to be closed. -/
def finish : Mode × List Token → Option (List Token)
  | (.between, tokens) => some tokens
  | (.word acc, tokens) => (classify acc).map fun token => tokens ++ [token]
  | (.quoted acc, tokens) => some (tokens ++ [.text (String.ofList acc)])
  | (.text _, _) | (.escaped _, _) => none

/-- The tokens read from a point on. -/
def tokensFrom (s : Mode × List Token) (text : List Char) : Option (List Token) :=
  (lexer.exec s text).bind finish

/-- The tokens of a text. -/
def lex (text : String) : Option (List Token) := tokensFrom (.between, []) text.toList

/-- The text of an unquoted number. -/
def IsNumber (s : String) : Prop := s.toList ≠ [] ∧ ∀ c ∈ s.toList, c.isDigit

/-- **Within quotes**, the first text is read as the second. -/
inductive Reads : List Char → List Char → Prop where
  | nil : Reads [] []
  /-- Most characters stand for themselves. -/
  | plain {c : Char} {s w : List Char} (hq : c ≠ quote) (hb : c ≠ backslash) :
      Reads s w → Reads (c :: s) (c :: w)
  /-- Two quotes are one. -/
  | pair {s w : List Char} : Reads s w → Reads (quote :: quote :: s) (quote :: w)
  /-- An escape. -/
  | escape (c : Char) {s w : List Char} : Reads s w → Reads (backslash :: c :: s) (unescape c ++ w)

/-- A text that stands for itself within quotes: it has no quote, and backslashes before `%` and `_`
only, which are read as both characters. -/
def Literal : List Char → Prop
  | [] => True
  | c :: cs =>
    if c = quote then False
    else if c = backslash then
      match cs with
      | [] => False
      | d :: cs => (d = '%' ∨ d = '_') ∧ Literal cs
    else Literal cs

variable {acc s rest : List Char} {tokens tokens' : List Token} {c : Char} {mode mode' : Mode}

theorem tokensFrom_append {t : Mode × List Token} (h : lexer.exec (mode, tokens) s = some t) :
    tokensFrom (mode, tokens) (s ++ rest) = tokensFrom t rest := by
  rw [tokensFrom, Machine.exec_append, h]
  rfl

/-! ### Numbers -/

theorem isWordChar_of_isDigit (h : c.isDigit) : isWordChar c = true := by
  simp [isWordChar, Char.isAlphanum, h]

theorem exec_word (h : ∀ c ∈ s, isWordChar c = true) :
    lexer.exec (.word acc, tokens) s = some (.word (acc ++ s), tokens) := by
  induction s generalizing acc with
  | nil => simp
  | cons c s ih =>
    have hc : lexer (.word acc, tokens) c = some (.word (acc ++ [c]), tokens) :=
      if_pos (h c (List.mem_cons_self ..))
    rw [Machine.exec_cons, hc, Option.bind_some, ih fun d hd => h d (List.mem_cons_of_mem _ hd)]
    simp

/-- A digit is no whitespace. -/
theorem isWhitespace_of_isDigit (h : c.isDigit) : c.isWhitespace = false := by
  have hrange := Char.isDigit_iff_toNat.mp h
  have hne : ∀ d : Char, d.toNat < 48 → c ≠ d := by
    rintro d hd rfl
    exact absurd hrange.1 (by simp only [Char.reduceToNat]; omega)
  simp [Char.isWhitespace, hne]

/-- **A number is one token**, once it is over. -/
theorem exec_digits (hs : s ≠ []) (h : ∀ c ∈ s, c.isDigit) :
    lexer.exec (.between, tokens) s = some (.word s, tokens) := by
  cases s with
  | nil => exact absurd rfl hs
  | cons c s =>
    have hc := h c (List.mem_cons_self ..)
    have hstart : lexer (.between, tokens) c = some (.word [c], tokens) := by
      simp [lexer, start, isWhitespace_of_isDigit hc, isWordChar_of_isDigit hc]
    rw [Machine.exec_cons, hstart, Option.bind_some,
      exec_word fun d hd => isWordChar_of_isDigit (h d (List.mem_cons_of_mem _ hd))]
    rfl

theorem classify_digits (h : ∀ c ∈ s, c.isDigit) :
    classify s = some (.number (String.ofList s)) := by
  rw [classify, if_pos (List.all_eq_true.mpr h)]

/-! ### Literals -/

variable {w : List Char}

theorem exec_of_step {t : Mode × List Token} (hc : lexer (mode, tokens) c = some t) :
    lexer.exec (mode, tokens) (c :: s) = lexer.exec t s := by
  rw [Machine.exec_cons, hc, Option.bind_some]

theorem lexer_quote : lexer (.text acc, tokens) quote = some (.quoted acc, tokens) := rfl

theorem lexer_backslash : lexer (.text acc, tokens) backslash = some (.escaped acc, tokens) := rfl

theorem lexer_plain (hq : c ≠ quote) (hb : c ≠ backslash) :
    lexer (.text acc, tokens) c = some (.text (acc ++ [c]), tokens) := by
  simp [lexer, hq, hb]

/-- **What a literal is read as**, character by character. -/
theorem exec_reads (h : Reads s w) :
    lexer.exec (.text acc, tokens) s = some (.text (acc ++ w), tokens) := by
  induction h generalizing acc with
  | nil => simp
  | plain hq hb _ ih =>
    rw [exec_of_step (lexer_plain hq hb), ih]
    simp
  | pair _ ih =>
    rw [exec_of_step lexer_quote, exec_of_step (t := (.text (acc ++ [quote]), tokens)) rfl, ih]
    simp
  | @escape c s w _ ih =>
    rw [exec_of_step lexer_backslash, exec_of_step (t := (.text (acc ++ unescape c), tokens)) rfl,
      ih]
    simp

/-- What `unescape` leaves alone. -/
theorem unescape_kept (h : c = '%' ∨ c = '_') : unescape c = [backslash, c] := by
  rcases h with rfl | rfl <;> rfl

theorem length_unescape (c : Char) : (unescape c).length = if c = '%' ∨ c = '_' then 2 else 1 := by
  by_cases h : c = '%' ∨ c = '_'
  · rw [if_pos h, unescape_kept h]
    rfl
  · rw [if_neg h]
    rw [not_or] at h
    unfold unescape
    split <;> simp_all

/-- Nothing is read as a longer text. -/
theorem Reads.length_le (h : Reads s w) : w.length ≤ s.length := by
  induction h with
  | nil => exact Nat.le_refl _
  | plain _ _ _ ih =>
    simp only [List.length_cons]
    omega
  | pair _ ih =>
    simp only [List.length_cons]
    omega
  | escape c _ ih =>
    have hc := length_unescape c
    simp only [List.length_append, List.length_cons]
    split at hc <;> omega

theorem literal_escape : Literal (backslash :: c :: s) ↔ (c = '%' ∨ c = '_') ∧ Literal s := Iff.rfl

theorem literal_plain (hq : c ≠ quote) (hb : c ≠ backslash) : Literal (c :: s) ↔ Literal s := by
  cases s <;> simp [Literal, hq, hb]

theorem not_literal_quote : ¬ Literal (quote :: s) := by
  cases s <;> exact id

theorem literal_cons_cons {d : Char} : Literal (c :: d :: s) ↔
    (c = backslash ∧ (d = '%' ∨ d = '_') ∧ Literal s) ∨
      (c ≠ quote ∧ c ≠ backslash ∧ Literal (d :: s)) := by
  by_cases hq : c = quote
  · subst hq
    exact ⟨fun h => absurd h not_literal_quote,
      fun h => h.elim (fun h => absurd h.1 (by decide)) fun h => absurd rfl h.1⟩
  · by_cases hb : c = backslash
    · subst hb
      rw [literal_escape]
      exact ⟨fun h => .inl ⟨rfl, h⟩, fun h => h.elim And.right fun h => absurd rfl h.2.1⟩
    · rw [literal_plain hq hb]
      exact ⟨fun h => .inr ⟨hq, hb, h⟩, fun h => h.elim (fun h => absurd h.1 hb) fun h => h.2.2⟩

theorem literal_singleton : Literal [c] ↔ c ≠ quote ∧ c ≠ backslash := by
  simp only [Literal]
  split
  · rename_i hq
    exact ⟨False.elim, fun h => h.1 hq⟩
  · rename_i hq
    split
    · rename_i hb
      exact ⟨False.elim, fun h => h.2 hb⟩
    · rename_i hb
      exact ⟨fun _ => ⟨hq, hb⟩, fun _ => trivial⟩

instance decidableLiteral : (s : List Char) → Decidable (Literal s)
  | [] => .isTrue trivial
  | [_] => decidable_of_iff _ literal_singleton.symm
  | _ :: d :: cs =>
    have := decidableLiteral cs
    have := decidableLiteral (d :: cs)
    decidable_of_iff _ literal_cons_cons.symm

/-- A `Literal` is read as itself. -/
theorem Literal.reads : ∀ {s : List Char}, Literal s → Reads s s
  | [], _ => .nil
  | [c], h => by
    simp only [Literal] at h
    split at h
    · exact h.elim
    · split at h
      · exact h.elim
      · rename_i hq hb
        exact .plain hq hb .nil
  | c :: d :: cs, h => by
    rw [Literal] at h
    split at h
    · exact h.elim
    · rename_i hq
      split at h
      · rename_i hb
        have hread := Reads.escape d (Literal.reads h.2)
        rw [unescape_kept h.1] at hread
        exact hb ▸ hread
      · rename_i hb
        exact .plain hq hb (Literal.reads h)

/-- **Nothing else is.** -/
theorem Reads.literal (h : Reads s w) (hlen : w.length = s.length) : Literal s := by
  induction h with
  | nil => trivial
  | plain hq hb _ ih =>
    exact (literal_plain hq hb).mpr (ih (by simpa using hlen))
  | pair h _ =>
    have hle := h.length_le
    simp only [List.length_cons] at hlen
    omega
  | escape c h ih =>
    have hle := h.length_le
    have hc := length_unescape c
    simp only [List.length_append, List.length_cons] at hlen
    split at hc
    · rename_i hkept
      exact literal_escape.mpr ⟨hkept, ih (by omega)⟩
    · omega

theorem literal_iff : Literal s ↔ Reads s s := ⟨Literal.reads, fun h => h.literal rfl⟩

/-- **A literal is one token.** -/
theorem exec_literal (h : Literal s) :
    lexer.exec (.text [], tokens) s = some (.text s, tokens) := exec_reads h.reads

/-! Tokens that have been read stay. -/

theorem start_extends (h : start tokens c = some (mode, tokens')) : tokens <+: tokens' := by
  unfold start at h
  split at h
  · cases h; exact List.prefix_refl _
  · split at h
    · cases h; exact List.prefix_refl _
    · split at h
      · cases h; exact List.prefix_refl _
      · split at h
        · cases h; exact List.prefix_append ..
        · cases h

theorem lexer_extends (h : lexer (mode, tokens) c = some (mode', tokens')) :
    tokens <+: tokens' := by
  cases mode with
  | between => exact start_extends h
  | word acc =>
    simp only [lexer] at h
    split at h
    · cases h; exact List.prefix_refl _
    · obtain ⟨token, -, h⟩ := Option.bind_eq_some_iff.mp h
      exact (List.prefix_append ..).trans (start_extends h)
  | text acc =>
    simp only [lexer] at h
    split at h
    · cases h; exact List.prefix_refl _
    · split at h
      · cases h; exact List.prefix_refl _
      · cases h; exact List.prefix_refl _
  | quoted acc =>
    simp only [lexer] at h
    split at h
    · cases h; exact List.prefix_refl _
    · exact (List.prefix_append ..).trans (start_extends h)
  | escaped acc => cases h; exact List.prefix_refl _

theorem finish_extends (h : finish (mode, tokens) = some tokens') : tokens <+: tokens' := by
  cases mode with
  | between => cases h; exact List.prefix_refl _
  | word acc =>
    obtain ⟨token, -, rfl⟩ := Option.map_eq_some_iff.mp h
    exact List.prefix_append ..
  | quoted acc => cases h; exact List.prefix_append ..
  | text acc => cases h
  | escaped acc => cases h

theorem tokensFrom_cons (s : Mode × List Token) (text : List Char) :
    tokensFrom s (c :: text) = (lexer s c).bind fun t => tokensFrom t text := by
  rw [tokensFrom, Machine.exec_cons, Option.bind_assoc]
  rfl

theorem tokensFrom_extends (h : tokensFrom (mode, tokens) s = some tokens') :
    tokens <+: tokens' := by
  induction s generalizing mode tokens with
  | nil => exact finish_extends h
  | cons c s ih =>
    rw [tokensFrom_cons] at h
    obtain ⟨⟨mode', t⟩, ht, h⟩ := Option.bind_eq_some_iff.mp h
    exact (lexer_extends ht).trans (ih h)

/-- A literal that ends here. -/
theorem tokensFrom_quoted (hs : s.head? ≠ some quote) :
    tokensFrom (.quoted acc, tokens) s =
      tokensFrom (.between, tokens ++ [.text (String.ofList acc)]) s := by
  cases s with
  | nil => rfl
  | cons c s =>
    have hc : c ≠ quote := fun hc => hs (by rw [hc]; rfl)
    rw [tokensFrom_cons, tokensFrom_cons]
    simp only [lexer, if_neg hc]

/-- **What is read in a literal**: the text up to where it ends. -/
theorem tokensFrom_text : ∀ {s acc : List Char}, tokensFrom (.text acc, tokens) s = some tokens' →
    ∃ raw w after, s = raw ++ quote :: after ∧ Reads raw w ∧
      tokensFrom (.between, tokens ++ [.text (String.ofList (acc ++ w))]) after = some tokens'
  | [], _, h => by cases h
  | c :: s, acc, h => by
    rw [tokensFrom_cons] at h
    by_cases hq : c = quote
    · subst hq
      rw [lexer_quote, Option.bind_some] at h
      cases s with
      | nil => exact ⟨[], [], [], rfl, .nil, by rw [List.append_nil]; exact h⟩
      | cons d s =>
        by_cases hd : d = quote
        · subst hd
          rw [tokensFrom_cons] at h
          obtain ⟨raw, w, after, rfl, hread, h⟩ := tokensFrom_text h
          exact ⟨quote :: quote :: raw, quote :: w, after, rfl, .pair hread, by simpa using h⟩
        · rw [tokensFrom_quoted (by simpa using hd)] at h
          exact ⟨[], [], d :: s, rfl, .nil, by rw [List.append_nil]; exact h⟩
    · by_cases hb : c = backslash
      · subst hb
        rw [lexer_backslash, Option.bind_some] at h
        cases s with
        | nil => cases h
        | cons d s =>
          rw [tokensFrom_cons] at h
          obtain ⟨raw, w, after, rfl, hread, h⟩ := tokensFrom_text h
          exact ⟨backslash :: d :: raw, unescape d ++ w, after, rfl,
            .escape d hread, by simpa using h⟩
      · rw [lexer_plain hq hb, Option.bind_some] at h
        obtain ⟨raw, w, after, rfl, hread, h⟩ := tokensFrom_text h
        exact ⟨c :: raw, c :: w, after, rfl, .plain hq hb hread, by simpa using h⟩

/-- Characters other than a quote do not start a literal. -/
theorem start_mode (hc : c ≠ quote) (h : start tokens c = some (mode, tokens')) :
    mode = .between ∨ ∃ acc, mode = .word acc := by
  unfold start at h
  split_ifs at h <;> cases h
  · exact .inl rfl
  · exact .inr ⟨_, rfl⟩
  · exact .inl rfl

/-- **A quote starts a literal**, outside one. -/
theorem text_of_quote (hmode : mode = .between ∨ ∃ acc, mode = .word acc) (hs : quote ∈ s)
    (h : tokensFrom (mode, tokens) s = some tokens') :
    ∃ more, tokens' = tokens ++ more ∧ ∃ w, Token.text w ∈ more := by
  induction s generalizing mode tokens with
  | nil => cases hs
  | cons c s ih =>
    rw [tokensFrom_cons] at h
    obtain ⟨⟨mode', t⟩, ht, h⟩ := Option.bind_eq_some_iff.mp h
    obtain ⟨more, hmore⟩ := lexer_extends ht
    by_cases hc : c = quote
    · subst hc
      have htext : mode' = .text [] := by
        rcases hmode with rfl | ⟨acc, rfl⟩
        · cases ht
          rfl
        · obtain ⟨token, -, hstart⟩ := Option.bind_eq_some_iff.mp ht
          cases hstart
          rfl
      subst htext hmore
      obtain ⟨raw, w, after, -, -, h⟩ := tokensFrom_text h
      obtain ⟨more', rfl⟩ := tokensFrom_extends h
      exact ⟨more ++ .text (String.ofList ([] ++ w)) :: more', by simp, _,
        List.mem_append_right _ (List.mem_cons_self ..)⟩
    · have hmode' : mode' = .between ∨ ∃ acc, mode' = .word acc := by
        rcases hmode with rfl | ⟨acc, rfl⟩
        · exact start_mode hc ht
        · simp only [lexer] at ht
          split_ifs at ht
          · cases ht
            exact .inr ⟨_, rfl⟩
          · obtain ⟨token, -, hstart⟩ := Option.bind_eq_some_iff.mp ht
            exact start_mode hc hstart
      have hs : quote ∈ s := (List.mem_cons.mp hs).resolve_left (Ne.symm hc)
      subst hmore
      obtain ⟨more', rfl, w, hw⟩ := ih hmode' hs h
      exact ⟨more ++ more', by simp, w, List.mem_append_right _ hw⟩

/-- **A text that is spliced in within quotes**, when no quote comes after it but the one that is to
end it: a text that is no longer is read in its place, and is the text itself only if that is a
`Literal`. The literal ends where it is to end, or another one follows. -/
theorem tokensFrom_spliced (hrest : quote ∉ rest)
    (h : tokensFrom (.text [], tokens) (s ++ quote :: rest) = some tokens') :
    ∃ w more, tokens' = tokens ++ .text w :: more ∧ w.toList.length ≤ s.length ∧
      (w.toList = s → Literal s) ∧
      ((∃ w', Token.text w' ∈ more) ∨
        tokensFrom (.between, tokens ++ [.text w]) rest = some tokens') := by
  obtain ⟨raw, w, after, hsplit, hread, h⟩ := tokensFrom_text h
  rw [List.nil_append] at h
  have hle := hread.length_le
  obtain ⟨more, hmore⟩ := tokensFrom_extends h
  have hmore' : tokens' = tokens ++ .text (String.ofList w) :: more := by
    rw [← hmore, List.append_assoc, List.singleton_append]
  rcases List.append_eq_append_iff.mp hsplit with ⟨mid, hraw, hmid⟩ | ⟨mid, hs, hmid⟩
  · -- the literal ends where it is to end: no quote comes after
    cases mid with
    | nil =>
      rw [List.append_nil] at hraw
      subst hraw
      cases hmid
      refine ⟨String.ofList w, more, hmore', ?_, ?_, .inr h⟩
      · rwa [String.toList_ofList]
      · rw [String.toList_ofList]
        exact fun hw => literal_iff.mpr (hw ▸ hread)
    | cons c mid =>
      rw [List.cons_append, List.cons.injEq] at hmid
      exact absurd (hmid.2 ▸ List.mem_append_right _ (List.mem_cons_self ..)) hrest
  · cases mid with
    | nil =>
      rw [List.append_nil] at hs
      subst hs
      cases hmid
      refine ⟨String.ofList w, more, hmore', ?_, ?_, .inr h⟩
      · rwa [String.toList_ofList]
      · rw [String.toList_ofList]
        exact fun hw => literal_iff.mpr (hw ▸ hread)
    | cons c mid =>
      -- the literal ends before: what is read is too short, and the quote is still to come
      rw [List.cons_append, List.cons.injEq] at hmid
      have hlt : w.length < s.length := by
        rw [hs, List.length_append, List.length_cons]
        omega
      have hquote : quote ∈ after := by
        rw [hmid.2]
        exact List.mem_append_right _ (List.mem_cons_self ..)
      obtain ⟨more', hmore'', w', hw'⟩ := text_of_quote (.inl rfl) hquote h
      have heq : more' = more := by
        rw [hmore', List.append_cons] at hmore''
        exact (List.append_cancel_left hmore'').symm
      refine ⟨String.ofList w, more, hmore', ?_, ?_, .inl ⟨w', heq ▸ hw'⟩⟩
      · rw [String.toList_ofList]
        exact hlt.le
      · rw [String.toList_ofList]
        intro hw
        exact absurd hlt (by rw [hw]; exact lt_irrefl _)

end PickUpLight.Sql
