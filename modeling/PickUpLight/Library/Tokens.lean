import PickUpLight.Library.Numbers
import PickUpLight.Library.Strings

/-!
# The tokens

A token is written as a word, a string or a numeral (`Lexeme`), after some space. The scanner takes
as much of the input as belongs to the token, and no other tokens than these (`scan_reads_iff`). It
finds the end of the input where there is none left, or a zero (`scan_end_iff`).
-/

namespace PickUpLight.Library

open Control Theory Theory.Utf8 Theory.Decimal

variable {strtod : List UInt8 → Option ℚ} {rest rest' w : List UInt8} {t : Token} {c : UInt8}

/-- The tokens that are always written the same. -/
def words : List (List UInt8 × Token) :=
  [([0x5B], .begin_array), ([0x5D], .end_array), ([0x7B], .begin_object), ([0x7D], .end_object),
    ([0x3A], .name_separator),
    ([0x2C], .value_separator), ([0x74, 0x72, 0x75, 0x65], .literal_true),
      ([0x66, 0x61, 0x6C, 0x73, 0x65], .literal_false),
    ([0x6E, 0x75, 0x6C, 0x6C], .literal_null)]

/-- **How tokens are written.** -/
inductive Lexeme (strtod : List UInt8 → Option ℚ) : List UInt8 → Token → Prop where
  | word {w : List UInt8} {t : Token} : (w, t) ∈ words → Lexeme strtod w t
  | string {spelled : List UInt8} {cs : List Char} : Spelled spelled cs →
    Lexeme strtod (0x22 :: spelled ++ [0x22]) (.value_string (encode cs))
  | number {lexeme : List UInt8} {t : Token} : IsNumeral lexeme → NumeralToken strtod lexeme t →
    Lexeme strtod lexeme t

/-- Space between tokens. -/
def IsSpace (space : List UInt8) : Prop := ∀ c ∈ space, IsWhitespace c

/-- A numeral that does not go on here. -/
def Stops (lexeme rest : List UInt8) : Prop :=
  IsNumeral lexeme → ∀ c more, rest = c :: more → ¬OpensNumeral (lexeme ++ [c])

/-- The token is one of a value; the scanner has not failed, and not come to the end. -/
def Token.Ordinary : Token → Prop
  | .parse_error _ | .end_of_input => False
  | _ => True

/-- A token that is not ordinary is a fault or the end. -/
theorem Token.cases_of_not_ordinary (h : ¬t.Ordinary) :
    (∃ error_message, t = .parse_error error_message) ∨ t = .end_of_input := by
  cases t with
  | parse_error error_message => exact .inl ⟨error_message, rfl⟩
  | end_of_input => exact .inr rfl
  | _ => exact absurd trivial h

/-! ### Where a token begins -/

theorem skip_whitespace_space {space : List UInt8} (h : IsSpace space) (rest : List UInt8) :
    skip_whitespace (space ++ rest) = skip_whitespace rest := by
  induction space with
  | nil => rfl
  | cons c space ih =>
    rw [List.cons_append, skip_whitespace, if_pos (h c List.mem_cons_self)]
    exact ih fun x hx => h x (List.mem_cons_of_mem c hx)

theorem skip_whitespace_cons (hc : ¬IsWhitespace c) (rest : List UInt8) :
    skip_whitespace (c :: rest) = c :: rest := by
  rw [skip_whitespace, if_neg hc]

/-- What is skipped is space. -/
theorem skip_whitespace_spec (rest : List UInt8) :
    ∃ space, IsSpace space ∧ rest = space ++ skip_whitespace rest ∧
    ∀ c more, skip_whitespace rest = c :: more → ¬IsWhitespace c := by
  induction rest with
  | nil => exact ⟨[], by simp [IsSpace], rfl, fun c more h => by cases h⟩
  | cons c rest ih =>
    rw [skip_whitespace]
    split_ifs with hc
    · obtain ⟨space, hspace, hrest, hnext⟩ := ih
      refine ⟨c :: space, ?_, by rw [List.cons_append, ← hrest], hnext⟩
      rintro x (_ | ⟨_, hx⟩)
      · exact hc
      · exact hspace x hx
    · refine ⟨[], by simp [IsSpace], rfl, fun x more h => ?_⟩
      cases h
      exact hc

/-- A word is read byte by byte. -/
theorem scan_literal_iff (ht : t.Ordinary) {return_type : Token} :
    scan_literal return_type w rest = (t, rest') ↔ t = return_type ∧ rest = w ++ rest' := by
  induction w generalizing rest with
  | nil =>
    rw [scan_literal, Prod.mk.injEq, eq_comm]
    rfl
  | cons x w ih =>
    cases rest with
    | nil =>
      refine iff_of_false (fun h => ?_) fun h => by cases h.2
      cases h
      exact ht
    | cons c rest =>
      rw [scan_literal]
      split_ifs with hc
      · rw [ih, hc, List.cons_append, List.cons.injEq, eq_self_iff_true, true_and]
      · refine iff_of_false (fun h => ?_) fun h => hc (List.cons.inj h.2).1
        cases h
        exact ht

theorem scan_token_word (h : (c :: w, t) ∈ words) (rest : List UInt8) :
    scan_token strtod (c :: rest) = scan_literal t w rest := by
  simp only [words, List.mem_cons, Prod.mk.injEq, List.cons.injEq, List.not_mem_nil, or_false] at h
  rcases h with ⟨⟨rfl, rfl⟩, rfl⟩ | ⟨⟨rfl, rfl⟩, rfl⟩ | ⟨⟨rfl, rfl⟩, rfl⟩ | ⟨⟨rfl, rfl⟩,
    rfl⟩ | ⟨⟨rfl, rfl⟩, rfl⟩ |
    ⟨⟨rfl, rfl⟩, rfl⟩ | ⟨⟨rfl, rfl⟩, rfl⟩ | ⟨⟨rfl, rfl⟩, rfl⟩ | ⟨⟨rfl, rfl⟩, rfl⟩
  all_goals rfl

/-- A number begins with no other token. -/
theorem number_first (hc : c = 0x2D ∨ IsDigit c) :
    ¬IsWhitespace c ∧ c ∉ words.map (fun p => p.1.headD 0) ∧ c ≠ 0x22 := by
  have htable : ∀ n < 256, UInt8.ofNat n = 0x2D ∨ IsDigit (UInt8.ofNat n) →
    ¬IsWhitespace (UInt8.ofNat n) ∧
      UInt8.ofNat n ∉ words.map (fun p => p.1.headD 0) ∧ UInt8.ofNat n ≠ 0x22 := by decide +kernel
  have h := htable c.toNat c.toNat_lt
  rw [UInt8.ofNat_toNat] at h
  exact h hc

/-- A token that is no word. -/
theorem scan_token_other (hc : c ∉ words.map fun p => p.1.headD 0) (rest : List UInt8) :
    scan_token strtod (c :: rest) =
    if c = 0x22 then scan_string rest
    else if c = 0x2D ∨ IsDigit c then scan_number strtod c rest
    else if c = 0 then (.end_of_input, rest)
    else (.parse_error "invalid literal", rest) := by
  simp only [words, List.map_cons, List.map_nil, List.headD_cons, List.mem_cons, List.not_mem_nil,
    or_false, not_or] at hc
  obtain ⟨h1, h2, h3, h4, h5, h6, h7, h8, h9⟩ := hc
  rw [scan_token, if_neg h1, if_neg h2, if_neg h3, if_neg h4, if_neg h5, if_neg h6, if_neg h7,
    if_neg h8, if_neg h9]

theorem scan_number_token (hc : c = 0x2D ∨ IsDigit c) (rest : List UInt8) :
    scan strtod (c :: rest) = scan_number strtod c rest := by
  obtain ⟨hspace, hword, hquote⟩ := number_first hc
  rw [scan, skip_whitespace_cons hspace, scan_token_other hword, if_neg hquote, if_pos hc]

/-- A number is a numeral that does not go on, or it is none. -/
theorem scan_number_cases (strtod : List UInt8 → Option ℚ) (hc : c = 0x2D ∨ IsDigit c)
    (rest : List UInt8) :
    (∃ taken t rest', c :: rest = taken ++ rest' ∧ IsNumeral taken ∧ NumeralToken strtod taken t ∧
      Stops taken rest' ∧
      scan_number strtod c rest = (t, rest')) ∨
    ∃ error_message rest', scan_number strtod c rest = (.parse_error error_message, rest') := by
  obtain ⟨htaken, hexec, hstuck⟩ :=
    Machine.longest_eq_iff.mp (rfl : number_table.longest .init (c :: rest) = _)
  obtain ⟨haccepts, hrejects⟩ := scan_number_stops strtod htaken hc hexec hstuck
  by_cases haccepting : NumberState.accepting (number_table.longest .init (c :: rest)).1 = true
  · obtain ⟨t, ht, hscan⟩ := haccepts haccepting
    refine .inl
      ⟨_, t, _, htaken, (numeral_iff _).mpr ⟨_, hexec, haccepting⟩, ht, fun _ x more hrest => ?_,
      hscan⟩
    rw [opensNumeral_iff, Machine.exec_append, hexec, Option.bind_some, Machine.exec_singleton,
      hstuck x more hrest]
    exact Bool.false_ne_true
  · obtain ⟨error_message, hscan⟩ := hrejects (Bool.eq_false_of_not_eq_true haccepting)
    exact .inr ⟨error_message, _, hscan⟩

/-! ### The tokens of the input -/

/-- A numeral begins as a number does. -/
theorem numeral_first {lexeme : List UInt8} (h : IsNumeral lexeme) :
    ∃ c more, lexeme = c :: more ∧ (c = 0x2D ∨ IsDigit c) := by
  obtain ⟨sg, n, f, e, hsg, -, -, rfl⟩ := h
  rcases hsg with rfl | rfl
  · obtain ⟨c, more, hcons⟩ := List.exists_cons_of_ne_nil (digits_ne_nil n)
    refine ⟨c, more ++ f ++ e, by rw [List.nil_append, hcons]; rfl, .inr ?_⟩
    exact isDigit_of_mem_digits (n := n) (by rw [hcons]; exact List.mem_cons_self)
  · exact ⟨0x2D, digits n ++ f ++ e, rfl, .inl rfl⟩

/-- A numeral has one token. -/
theorem NumeralToken.unique {lexeme : List UInt8} {t t' : Token} (h : NumeralToken strtod lexeme t)
    (h' : NumeralToken strtod lexeme t') : t = t' := by
  generalize hlexeme : lexeme = lexeme' at h'
  cases h with
  | @unsigned n hn =>
    cases h' with
    | unsigned => rw [digits_injective hlexeme]
    | integer => exact absurd hlexeme (digits_ne_minus _ _)
    | float hlarge _ => exact absurd (hlarge n hlexeme.symm) (Nat.not_le.mpr hn)
  | @integer n hn =>
    cases h' with
    | unsigned => exact absurd hlexeme.symm (digits_ne_minus _ _)
    | integer => rw [digits_injective (List.cons.inj hlexeme).2]
    | float _ hlarge => exact absurd (hlarge n hlexeme.symm) (Nat.not_lt.mpr hn)
  | float hlarge hlarge' =>
    cases h' with
    | @unsigned n hn => exact absurd (hlarge n hlexeme) (Nat.not_le.mpr hn)
    | @integer n hn => exact absurd (hlarge' n hlexeme) (Nat.not_lt.mpr hn)
    | float => rw [hlexeme]

theorem stops_of_first (hc : ¬(c = 0x2D ∨ IsDigit c)) (more rest : List UInt8) :
    Stops (c :: more) rest := by
  intro hnumeral
  obtain ⟨c', more', hcons, hc'⟩ := numeral_first hnumeral
  obtain ⟨rfl, -⟩ := List.cons.inj hcons
  exact absurd hc' hc

/-- A word begins with no space and is no number. -/
theorem word_first (h : (c :: w, t) ∈ words) : ¬IsWhitespace c ∧ ¬(c = 0x2D ∨ IsDigit c) := by
  have htable : ∀ p ∈ words, ¬IsWhitespace (p.1.headD 0) ∧
    ¬(p.1.headD 0 = 0x2D ∨ IsDigit (p.1.headD 0)) := by decide
  exact htable _ h

theorem word_cons (h : (w, t) ∈ words) : ∃ c more, w = c :: more := by
  have htable : ∀ p ∈ words, p.1 = p.1.headD 0 :: p.1.tail := by decide
  exact ⟨_, _, htable _ h⟩

theorem string_first : ¬IsWhitespace 0x22 ∧ ¬((0x22 : UInt8) = 0x2D ∨ IsDigit 0x22) := by decide

theorem scan_space {space : List UInt8} (h : IsSpace space) (rest : List UInt8) :
    scan strtod (space ++ rest) = scan strtod rest := by
  rw [scan, scan, skip_whitespace_space h]

theorem lexeme_read {lexeme : List UInt8} (h : Lexeme strtod lexeme t)
    (hstops : Stops lexeme rest) :
    scan strtod (lexeme ++ rest) = (t, rest) := by
  cases h with
  | word hw =>
    have hordinary : ∀ p ∈ words, p.2.Ordinary := by simp [words, Token.Ordinary]
    obtain ⟨c, more, rfl⟩ := word_cons hw
    rw [scan, List.cons_append, skip_whitespace_cons (word_first hw).1, scan_token_word hw]
    exact (scan_literal_iff (hordinary _ hw)).mpr ⟨rfl, rfl⟩
  | @string spelled cs hspelled =>
    rw [List.append_assoc, scan, List.cons_append, skip_whitespace_cons string_first.1]
    exact StringScan.reads_loop (s := ⟨_, []⟩) (r := (encode cs, rest)).mp
      ⟨spelled, cs, hspelled, rfl, rfl⟩
  | number hnumeral ht =>
    obtain ⟨c, more, hcons, hc⟩ := numeral_first hnumeral
    obtain ⟨s, hexec, haccepting⟩ := (numeral_iff _).mp hnumeral
    have hstuck : number_table.Stuck s rest := by
      intro x more hrest
      have hnot := hstops hnumeral x more hrest
      rw [opensNumeral_iff, Machine.exec_append, hexec, Option.bind_some,
        Machine.exec_singleton] at hnot
      exact Option.not_isSome_iff_eq_none.mp hnot
    have htaken : c :: (more ++ rest) = lexeme ++ rest := by rw [hcons, List.cons_append]
    obtain ⟨t', ht', hscan⟩ := (scan_number_stops strtod htaken hc hexec hstuck).1 haccepting
    rw [← htaken, scan_number_token hc, hscan, ht.unique ht']

/-- A token has been read. -/
theorem lexeme_of_scan (ht : t.Ordinary) (h : scan strtod rest = (t, rest')) :
    ∃ space lexeme, IsSpace space ∧ Lexeme strtod lexeme t ∧ Stops lexeme rest' ∧
      rest = space ++ lexeme ++ rest' := by
  have hnot : ∀ {t' r}, (t', r) = (t, rest') → ¬t'.Ordinary → False := by
    rintro _ _ ⟨⟩ hnot
    exact hnot ht
  obtain ⟨space, hspace, hrest, hnext⟩ := skip_whitespace_spec rest
  rw [scan] at h
  cases hskip : skip_whitespace rest with
  | nil =>
    rw [hskip] at h
    exact (hnot h id).elim
  | cons c more =>
    rw [hskip] at h hrest
    suffices hlexeme : ∃ lexeme, Lexeme strtod lexeme t ∧ Stops lexeme rest' ∧
      c :: more = lexeme ++ rest' by
      obtain ⟨lexeme, hlexeme, hstops, hmore⟩ := hlexeme
      exact ⟨space, lexeme, hspace, hlexeme, hstops, by rw [hrest, hmore, List.append_assoc]⟩
    by_cases hword : c ∈ words.map fun p => p.1.headD 0
    · obtain ⟨⟨w, t'⟩, hw, rfl⟩ := List.mem_map.mp hword
      obtain ⟨c, w, rfl⟩ := word_cons hw
      rw [List.headD_cons] at h ⊢
      rw [scan_token_word hw] at h
      obtain ⟨rfl, rfl⟩ := (scan_literal_iff ht).mp h
      exact ⟨c :: w, .word hw, stops_of_first (word_first hw).2 _ _, rfl⟩
    rw [scan_token_other hword] at h
    split_ifs at h with hquote hnumber
    · rcases scan_string_token more with ⟨buf, hbuf⟩ | ⟨_, herror⟩
      · rw [h] at hbuf
        cases hbuf
        obtain ⟨spelled, cs, hspelled, hmore, hcs⟩ :=
          StringScan.reads_loop (s := ⟨more, []⟩) (r := (buf, rest')).mpr h
        dsimp only at hmore hcs
        rw [hquote, hmore, hcs]
        exact ⟨_, .string hspelled, stops_of_first string_first.2 _
          _, by rw [List.append_assoc]; rfl⟩
      · rw [h] at herror
        change t = _ at herror
        rw [herror] at ht
        exact ht.elim
    · rcases scan_number_cases strtod hnumber more with
        ⟨taken, t', rest₁, htaken, hnumeral, ht', hstops, hscan⟩ | ⟨_, _, hscan⟩
      · rw [h] at hscan
        cases hscan
        exact ⟨taken, .number hnumeral ht', hstops, htaken⟩
      · rw [h] at hscan
        cases hscan
        exact ht.elim
    · exact (hnot h id).elim
    · exact (hnot h id).elim

/-- **The tokens**: the scanner takes some space, and then as much of the input as belongs to a
token. -/
theorem scan_reads_iff (ht : t.Ordinary) : scan strtod rest = (t, rest') ↔
    ∃ space lexeme, IsSpace space ∧ Lexeme strtod lexeme t ∧ Stops lexeme rest' ∧
      rest = space ++ lexeme ++ rest' := by
  constructor
  · exact lexeme_of_scan ht
  · rintro ⟨space, lexeme, hspace, hlexeme, hstops, rfl⟩
    rw [List.append_assoc, scan_space hspace]
    exact lexeme_read hlexeme hstops

/-- A bracket after a blank. -/
theorem scan_reads_bracket : scan (fun _ => none) [0x20, 0x5B, 0x5D] = (.begin_array, [0x5D]) ↔
    ∃ space lexeme, IsSpace space ∧ Lexeme (fun _ => none) lexeme .begin_array ∧
      Stops lexeme [0x5D] ∧
      [0x20, 0x5B, 0x5D] = space ++ lexeme ++ [0x5D] :=
  scan_reads_iff trivial

theorem scan_literal_token (return_type : Token) (w rest : List UInt8) :
    (scan_literal return_type w rest).1 = return_type ∨
      ∃ error_message, (scan_literal return_type w rest).1 = .parse_error error_message := by
  induction w generalizing rest with
  | nil => exact .inl rfl
  | cons x w ih =>
    cases rest with
    | nil => exact .inr ⟨_, rfl⟩
    | cons c rest =>
      rw [scan_literal]
      split_ifs
      · exact ih rest
      · exact .inr ⟨_, rfl⟩

/-- Nothing but a zero is the end of the input. -/
theorem zero_of_end (h : (scan_token strtod (c :: rest)).1 = .end_of_input) : c = 0 := by
  have hword : ∀ p ∈ words, p.2 ≠ .end_of_input := by decide
  by_cases hc : c ∈ words.map fun p => p.1.headD 0
  · obtain ⟨⟨w, t'⟩, hw, rfl⟩ := List.mem_map.mp hc
    obtain ⟨c, w, rfl⟩ := word_cons hw
    rw [List.headD_cons, scan_token_word hw] at h
    rcases scan_literal_token t' w rest with htoken | ⟨_, htoken⟩
    · exact absurd (htoken.symm.trans h) (hword _ hw)
    · cases htoken.symm.trans h
  rw [scan_token_other hc] at h
  split_ifs at h with hquote hnumber hzero
  · rcases scan_string_token rest with ⟨_, htoken⟩ | ⟨_, htoken⟩
    · cases htoken.symm.trans h
    · cases htoken.symm.trans h
  · rcases scan_number_cases strtod hnumber rest with
      ⟨_, t', _, -, -, ht', -, hscan⟩ | ⟨_, _, hscan⟩
    · rw [hscan] at h
      change t' = _ at h
      rw [h] at ht'
      cases ht'
    · rw [hscan] at h
      cases h
  · exact hzero

/-- The input ends where there is none left, or at a zero. -/
theorem scan_end_iff : (scan strtod rest).1 = .end_of_input ↔
    ∃ space, IsSpace space ∧ (rest = space ∨ ∃ more, rest = space ++ 0 :: more) := by
  constructor
  · intro h
    obtain ⟨space, hspace, hrest, -⟩ := skip_whitespace_spec rest
    refine ⟨space, hspace, ?_⟩
    rw [scan] at h
    cases hskip : skip_whitespace rest with
    | nil =>
      rw [hskip, List.append_nil] at hrest
      exact .inl hrest
    | cons c more =>
      rw [hskip] at h hrest
      exact .inr ⟨more, zero_of_end h ▸ hrest⟩
  · rintro ⟨space, hspace, rfl | ⟨more, rfl⟩⟩
    · rw [← List.append_nil rest, scan_space hspace]
      rfl
    · rw [scan_space hspace]
      rfl

end PickUpLight.Library
