import PickUpLight.Control.JsonText
import PickUpLight.Library.Lexer

/-!
# Strings are read as they should be

A string is written as its characters one after the other: as they are, or with a backslash
and a letter, or with the digits of their code, or with those of a surrogate pair (`Piece`). A
round of `scan_string` reads exactly one of these (`scan_string_pass_iff`), and so the scanner
takes exactly the strings that are written so, and has their characters (`scan_string_iff`).
-/

namespace PickUpLight.Library

open Control Theory Theory.Utf8

/-! ### How characters are written -/

/-- The letters after a backslash, and their characters. -/
def shorts : List (UInt8 × ℕ) :=
  [(0x22, 0x22), (0x5C, 0x5C), (0x2F, 0x2F), (0x62, 0x08), (0x66, 0x0C), (0x6E, 0x0A), (0x72, 0x0D),
    (0x74, 0x09)]

/-- Four hexadecimal digits, and their value. -/
inductive Hex : List UInt8 → ℕ → Prop where
  | intro {a b c d : UInt8} {i j k l : ℕ} : hexValue a = some i → hexValue b = some j →
    hexValue c = some k →
    hexValue d = some l → Hex [a, b, c, d] (((i * 16 + j) * 16 + k) * 16 + l)

/-- The digits of a character: of its code, or of two surrogates. -/
inductive Coded : List UInt8 → Char → Prop where
  | one {ds : List UInt8} {c : Char} : Hex ds c.toNat → Coded ds c
  | two {ds ds' : List UInt8} {n n' : ℕ} {c : Char} :
    Hex ds n → Hex ds' n' → 0xD800 ≤ n → n ≤ 0xDBFF →
    0xDC00 ≤ n' → n' ≤ 0xDFFF → c.toNat = 0x10000 + (n - 0xD800) * 0x400 + (n' - 0xDC00) →
    Coded (ds ++ 0x5C :: 0x75 :: ds') c

/-- A character as it is written after a backslash. -/
inductive Slashed : List UInt8 → Char → Prop where
  | letter {x : UInt8} {c : Char} : (x, c.toNat) ∈ shorts → Slashed [x] c
  | code {ds : List UInt8} {c : Char} : Coded ds c → Slashed (0x75 :: ds) c

/-- **A character as it is written within a string.** -/
inductive Piece : List UInt8 → Char → Prop where
  | plain {c : Char} : 0x20 ≤ c.toNat → c.toNat ≠ 0x22 → c.toNat ≠ 0x5C →
    Piece (String.utf8EncodeChar c) c
  | slashed {ds : List UInt8} {c : Char} : Slashed ds c → Piece (0x5C :: ds) c

/-- Characters as they are written within a string. -/
inductive Spelled : List UInt8 → List Char → Prop where
  | nil : Spelled [] []
  | cons {piece rest : List UInt8} {c : Char} {cs : List Char} : Piece piece c → Spelled rest cs →
    Spelled (piece ++ rest) (c :: cs)

/-! ### The parts of a round -/

variable {rest rest' buf buf' us : List UInt8} {ranges : List Range} {n : ℕ} {c : UInt8}

theorem next_byte_in_range_iff : next_byte_in_range ranges rest buf = .inl ⟨rest', buf'⟩ ↔
    ∃ us, List.Forall₂ Range.Has ranges us ∧ rest = us ++ rest' ∧ buf' = buf ++ us := by
  induction ranges generalizing rest buf with
  | nil =>
    simp only [next_byte_in_range, Sum.inl.injEq, StringScan.mk.injEq, List.forall₂_nil_left_iff]
    constructor
    · rintro ⟨rfl, rfl⟩
      exact ⟨[], rfl, rfl, (List.append_nil _).symm⟩
    · rintro ⟨_, rfl, rfl, rfl⟩
      exact ⟨rfl, (List.append_nil _).symm⟩
  | cons r ranges ih =>
    cases rest with
    | nil =>
      constructor
      · intro h
        cases h
      · rintro ⟨us, hus, hnil, -⟩
        obtain ⟨u, us', -, -, rfl⟩ := List.forall₂_cons_left_iff.mp hus
        cases hnil
    | cons c rest =>
      rw [next_byte_in_range]
      constructor
      · intro h
        split_ifs at h with hc
        · obtain ⟨us, hus, rfl, rfl⟩ := ih.mp h
          exact ⟨c :: us, .cons hc hus, rfl, by rw [List.append_assoc]; rfl⟩
        · cases h
      · rintro ⟨us, hus, hrest, rfl⟩
        obtain ⟨u, us', hu, hus', rfl⟩ := List.forall₂_cons_left_iff.mp hus
        obtain ⟨rfl, rfl⟩ := List.cons.inj hrest
        rw [if_pos hu]
        exact ih.mpr ⟨us', hus', rfl, by rw [List.append_assoc]; rfl⟩

theorem hexValue_lt {i : ℕ} (h : hexValue c = some i) : i < 16 := by
  unfold hexValue at h
  simp only [UInt8.le_iff_toNat_le] at h
  have h30 : (0x30 : UInt8).toNat = 0x30 := rfl
  have h39 : (0x39 : UInt8).toNat = 0x39 := rfl
  have h41 : (0x41 : UInt8).toNat = 0x41 := rfl
  have h46 : (0x46 : UInt8).toNat = 0x46 := rfl
  have h61 : (0x61 : UInt8).toNat = 0x61 := rfl
  have h66 : (0x66 : UInt8).toNat = 0x66 := rfl
  split_ifs at h <;> (cases h; omega)

theorem get_codepoint_digits_cons {factor codepoint : ℕ} {factors : List ℕ} :
    get_codepoint_digits (factor :: factors) codepoint rest = (some n, rest') ↔
      ∃ c d r, rest = c :: r ∧ hexValue c = some d ∧
        get_codepoint_digits factors (codepoint + d <<< factor) r = (some n, rest') := by
  cases rest with
  | nil =>
    constructor
    · intro h
      cases h
    · rintro ⟨c, d, r, hnil, -⟩
      cases hnil
  | cons c rest =>
    rw [get_codepoint_digits]
    cases hc : hexValue c with
    | none =>
      constructor
      · intro h
        cases h
      · rintro ⟨c', d, r, hcons, hd, -⟩
        obtain ⟨rfl, -⟩ := List.cons.inj hcons
        rw [hc] at hd
        cases hd
    | some d =>
      constructor
      · intro h
        exact ⟨c, d, rest, rfl, hc, h⟩
      · rintro ⟨c', d', r, hcons, hd, h⟩
        obtain ⟨rfl, rfl⟩ := List.cons.inj hcons
        obtain rfl := Option.some.inj (hc.symm.trans hd)
        exact h

/-- **The digits of a code point.** -/
theorem get_codepoint_iff : get_codepoint rest = (some n, rest') ↔ ∃ ds, Hex ds n ∧
      rest = ds ++ rest' := by
  have hvalue : ∀ i j k l : ℕ, 0 + i <<< 12 + j <<< 8 + k <<< 4 + l <<< 0 =
      ((i * 16 + j) * 16 + k) * 16 + l := by
    intro i j k l
    simp only [Nat.shiftLeft_eq]
    omega
  constructor
  · intro h
    obtain ⟨a, i, r, rfl, hi, h⟩ := get_codepoint_digits_cons.mp h
    obtain ⟨b, j, r, rfl, hj, h⟩ := get_codepoint_digits_cons.mp h
    obtain ⟨c, k, r, rfl, hk, h⟩ := get_codepoint_digits_cons.mp h
    obtain ⟨d, l, r, rfl, hl, h⟩ := get_codepoint_digits_cons.mp h
    rw [hvalue] at h
    cases h
    exact ⟨[a, b, c, d], .intro hi hj hk hl, rfl⟩
  · rintro ⟨ds, ⟨hi, hj, hk, hl⟩, rfl⟩
    rw [← hvalue]
    exact get_codepoint_digits_cons.mpr
      ⟨_, _, _, rfl, hi, get_codepoint_digits_cons.mpr ⟨_, _, _, rfl, hj,
      get_codepoint_digits_cons.mpr
        ⟨_, _, _, rfl, hk, get_codepoint_digits_cons.mpr ⟨_, _, _, rfl, hl, rfl⟩⟩⟩⟩

theorem Hex.lt {ds : List UInt8} (h : Hex ds n) : n < 0x10000 := by
  obtain ⟨hi, hj, hk, hl⟩ := h
  have hi := hexValue_lt hi
  have hj := hexValue_lt hj
  have hk := hexValue_lt hk
  have hl := hexValue_lt hl
  omega

theorem Hex.length {ds : List UInt8} (h : Hex ds n) : ds.length = 4 := by
  cases h
  rfl

/-- The bytes of a code point are those of its character. -/
theorem add_codepoint_eq (h : n < 0x110000) : add_codepoint n = units n := by
  have hor : ∀ a b i : ℕ, b < 2 ^ i → a * 2 ^ i ||| b = b + a * 2 ^ i := by
    intro a b i hb
    rw [← Nat.shiftLeft_eq, ← Nat.shiftLeft_add_eq_or_of_lt hb, Nat.add_comm]
  have hlow : ∀ m : ℕ, 0x80 ||| m &&& 0x3F = m % 64 + 0x80 := by
    intro m
    have hand : m &&& 0x3F = m % 64 := Nat.and_two_pow_sub_one_eq_mod m 6
    rw [hand]
    exact hor 2 (m % 64) 6 (by omega)
  unfold add_codepoint units
  simp only [hlow, Nat.shiftRight_eq_div_pow]
  by_cases h1 : n < 0x80
  · rw [if_pos h1, if_pos (show n ≤ 0x7F by omega)]
  rw [if_neg h1, if_neg (show ¬n ≤ 0x7F by omega)]
  by_cases h2 : n ≤ 0x7FF
  · have hfirst : 0xC0 ||| n / 2 ^ 6 = n / 64 % 32 + 0xC0 := by
      rw [Nat.mod_eq_of_lt (by omega)]
      exact hor 3 (n / 64) 6 (by omega)
    rw [if_pos h2, if_pos h2, hfirst]
  rw [if_neg h2, if_neg h2]
  by_cases h3 : n ≤ 0xFFFF
  · have hfirst : 0xE0 ||| n / 2 ^ 12 = n / 4096 % 16 + 0xE0 := by
      rw [Nat.mod_eq_of_lt (by omega)]
      exact hor 14 (n / 4096) 4 (by omega)
    rw [if_pos h3, if_pos h3, hfirst]
  · have hfirst : 0xF0 ||| n / 2 ^ 18 = n / 262144 % 8 + 0xF0 := by
      rw [Nat.mod_eq_of_lt (by omega)]
      exact hor 30 (n / 262144) 3 (by omega)
    rw [if_neg h3, if_neg h3, hfirst]

theorem ranges_after_eq {b : UInt8} (hb : 0x7F < b.toNat) : ranges_after b = follow b := by
  have htable : ∀ n < 256, 0x7F < n → ranges_after (UInt8.ofNat n) = follow (UInt8.ofNat n) := by
    decide +kernel
  have h := htable b.toNat b.toNat_lt hb
  rwa [UInt8.ofNat_toNat] at h

/-! ### A round goes on -/

theorem scan_low_surrogate_iff (hn : 0xD800 ≤ n) (hn' : n ≤ 0xDBFF) :
    scan_low_surrogate n rest buf = .inl ⟨rest', buf'⟩ ↔ ∃ ds n', ∃ c : Char, Hex ds n' ∧
      0xDC00 ≤ n' ∧ n' ≤ 0xDFFF ∧
      c.toNat = 0x10000 + (n - 0xD800) * 0x400 + (n' - 0xDC00) ∧ rest = ds ++ rest' ∧
        buf' = buf ++ String.utf8EncodeChar c := by
  have hvalue : ∀ n', 0xDC00 ≤ n' → n <<< 10 + n' - 0x35FDC00 = 0x10000 + (n - 0xD800) * 0x400 +
      (n' - 0xDC00) := by
    intro n' h
    rw [Nat.shiftLeft_eq]
    omega
  constructor
  · intro h
    unfold scan_low_surrogate at h
    split at h
    · cases h
    · rename_i n' r hcode
      split_ifs at h with hrange
      · obtain ⟨ds, hds, rfl⟩ := get_codepoint_iff.mp hcode
        have hlt : 0x10000 + (n - 0xD800) * 0x400 + (n' - 0xDC00) < 0x110000 := by omega
        rw [hvalue n' hrange.1, add_codepoint_eq hlt] at h
        cases h
        exact ⟨ds, n', Char.ofNatAux _ (.inr ⟨by omega, hlt⟩), hds, hrange.1, hrange.2, rfl, rfl,
          rfl⟩
      · cases h
  · rintro ⟨ds, n', c, hds, hlow, hhigh, hc, rfl, rfl⟩
    unfold scan_low_surrogate
    rw [get_codepoint_iff.mpr ⟨ds, hds, rfl⟩]
    dsimp only
    rw [if_pos ⟨hlow, hhigh⟩, hvalue n' hlow, add_codepoint_eq (by omega), utf8EncodeChar_eq, hc]

theorem scan_unicode_iff : scan_unicode rest buf = .inl ⟨rest', buf'⟩ ↔
    ∃ ds c, Coded ds c ∧ rest = ds ++ rest' ∧ buf' = buf ++ String.utf8EncodeChar c := by
  constructor
  · intro h
    unfold scan_unicode at h
    split at h
    · cases h
    · rename_i n r hcode
      obtain ⟨ds, hds, rfl⟩ := get_codepoint_iff.mp hcode
      split_ifs at h with hfirst hsecond
      · split at h
        · cases h
        · split_ifs at h with hslash
          · split at h
            · cases h
            · split_ifs at h with hu
              · obtain ⟨ds', n', c, hds', hlow, hhigh, hc, rfl, rfl⟩ :=
                  (scan_low_surrogate_iff hfirst.1 hfirst.2).mp h
                subst hslash hu
                exact ⟨ds ++ 0x5C :: 0x75 :: ds', c, .two hds hds' hfirst.1 hfirst.2 hlow hhigh hc,
                  by rw [List.append_assoc]; rfl, rfl⟩
              · cases h
          · cases h
      · cases h
      · have hlt := hds.lt
        rw [add_codepoint_eq (by omega)] at h
        cases h
        exact ⟨ds, Char.ofNatAux n (by unfold Nat.isValidChar; omega), .one hds, rfl, rfl⟩
  · rintro ⟨ds, c, hcoded, rfl, rfl⟩
    cases hcoded with
    | one hds =>
      have hc := valid c
      unfold scan_unicode
      rw [get_codepoint_iff.mpr ⟨ds, hds, rfl⟩]
      dsimp only
      rw [if_neg (by omega), if_neg (by omega), add_codepoint_eq (by omega), utf8EncodeChar_eq]
    | @two ds ds' n n' c hds hds' hlow hhigh hlow' hhigh' hc =>
      unfold scan_unicode
      rw [List.append_assoc, get_codepoint_iff.mpr ⟨ds, hds, rfl⟩]
      dsimp only [List.cons_append]
      rw [if_pos ⟨hlow, hhigh⟩, if_pos rfl, if_pos rfl]
      exact (scan_low_surrogate_iff hlow hhigh).mpr ⟨ds', n', c, hds', hlow', hhigh', hc, rfl, rfl⟩

theorem scan_escape_letter {x : UInt8} {m : ℕ} (h : (x, m) ∈ shorts) :
    scan_escape (x :: rest) buf = .inl ⟨rest, buf ++ units m⟩ := by
  simp only [shorts, List.mem_cons, Prod.mk.injEq, List.not_mem_nil, or_false] at h
  rcases h with ⟨rfl, rfl⟩ | ⟨rfl, rfl⟩ | ⟨rfl, rfl⟩ | ⟨rfl, rfl⟩ | ⟨rfl, rfl⟩ | ⟨rfl, rfl⟩ | ⟨rfl,
    rfl⟩ | ⟨rfl, rfl⟩
  all_goals rfl

/-- Any other letter than these and the u is none. -/
theorem scan_escape_other {x : UInt8} (h : x ∉ shorts.map Prod.fst) (hu : x ≠ 0x75) :
    scan_escape (x :: rest) buf = .fail "invalid string: forbidden character after backslash"
      rest := by
  simp only [shorts, List.map_cons, List.map_nil, List.mem_cons, List.not_mem_nil, or_false,
    not_or] at h
  obtain ⟨h1, h2, h3, h4, h5, h6, h7, h8⟩ := h
  rw [scan_escape, if_neg h1, if_neg h2, if_neg h3, if_neg h4, if_neg h5, if_neg h6, if_neg h7,
    if_neg h8, if_neg hu]

theorem scan_escape_iff : scan_escape rest buf = .inl ⟨rest', buf'⟩ ↔
    ∃ ds c, Slashed ds c ∧ rest = ds ++ rest' ∧ buf' = buf ++ String.utf8EncodeChar c := by
  constructor
  · intro h
    cases rest with
    | nil => cases h
    | cons x rest =>
      by_cases hx : x ∈ shorts.map Prod.fst
      · obtain ⟨⟨x, m⟩, hm, rfl⟩ := List.mem_map.mp hx
        rw [scan_escape_letter hm] at h
        cases h
        have hcode : ∀ p ∈ shorts, (Char.ofNat p.2).toNat = p.2 := by decide
        refine ⟨[x], Char.ofNat m, .letter ?_, rfl, ?_⟩
        · rwa [hcode _ hm]
        · rw [utf8EncodeChar_eq, hcode _ hm]
      by_cases hu : x = 0x75
      · subst hu
        obtain ⟨ds, c, hcoded, rfl, rfl⟩ := scan_unicode_iff.mp h
        exact ⟨0x75 :: ds, c, .code hcoded, rfl, rfl⟩
      · rw [scan_escape_other hx hu] at h
        cases h
  · rintro ⟨ds, c, hslashed, rfl, rfl⟩
    cases hslashed with
    | letter hx => exact scan_escape_letter hx
    | code hcoded => exact scan_unicode_iff.mpr ⟨_, c, hcoded, rfl, rfl⟩

/-- **A round that goes on reads a character.** -/
theorem scan_string_pass_iff : scan_string_pass ⟨rest, buf⟩ = .inl ⟨rest', buf'⟩ ↔
    ∃ piece c, Piece piece c ∧ rest = piece ++ rest' ∧ buf' = buf ++ String.utf8EncodeChar c := by
  constructor
  · intro h
    cases rest with
    | nil => cases h
    | cons b rest =>
      unfold scan_string_pass at h
      dsimp only at h
      split_ifs at h with hquote hslash hcontrol hascii
      · obtain ⟨ds, c, hslashed, rfl, rfl⟩ := scan_escape_iff.mp h
        exact ⟨0x5C :: ds, c, .slashed hslashed, by rw [hslash]; rfl, rfl⟩
      · cases h
      · -- an ASCII character is the byte of its code
        cases h
        rw [UInt8.le_iff_toNat_le] at hcontrol hascii
        change ¬b.toNat ≤ 0x1F at hcontrol
        change b.toNat ≤ 0x7F at hascii
        have hunits : String.utf8EncodeChar (Char.ofNatAux b.toNat (.inl (by omega))) = [b] := by
          change units b.toNat = [b]
          rw [units, if_pos hascii, UInt8.ofNat_toNat]
        refine ⟨[b], Char.ofNatAux b.toNat (.inl (by omega)), ?_, rfl, by rw [hunits]⟩
        rw [← hunits]
        refine .plain (Nat.lt_of_not_le hcontrol) ?_ ?_
        · exact fun heq => hquote (UInt8.toNat_inj.mp heq)
        · exact fun heq => hslash (UInt8.toNat_inj.mp heq)
      · rw [UInt8.le_iff_toNat_le] at hascii
        change ¬b.toNat ≤ 0x7F at hascii
        rw [ranges_after_eq (Nat.lt_of_not_le hascii)] at h
        split at h
        · rename_i rs hrs
          obtain ⟨us, hus, rfl, rfl⟩ := next_byte_in_range_iff.mp h
          obtain ⟨c, hchar, hcode⟩ := read_char hrs hus
          have hbig : 0x80 ≤ c.toNat := by
            by_contra hlt
            have hone : String.utf8EncodeChar c = [UInt8.ofNat c.toNat] := by
              rw [utf8EncodeChar_eq, units, if_pos (by omega)]
            obtain ⟨hb, -⟩ := List.cons.inj (hone.symm.trans hchar)
            rw [← hb, toNat_ofNat] at hascii
            omega
          refine ⟨b :: us, c, ?_, rfl, by rw [hchar, List.append_assoc]; rfl⟩
          rw [← hchar]
          exact .plain (by omega) (by omega) (by omega)
        · cases h
  · rintro ⟨piece, c, hpiece, rfl, rfl⟩
    cases hpiece with
    | slashed hslashed =>
      unfold scan_string_pass
      dsimp only [List.cons_append]
      rw [if_neg (by decide), if_pos rfl]
      exact scan_escape_iff.mpr ⟨_, c, hslashed, rfl, rfl⟩
    | plain hcontrol hquote hslash =>
      obtain ⟨b, rs, us, hunits, hb, hus, hcode⟩ := units_read (valid c)
      rw [utf8EncodeChar_eq, hunits, List.cons_append]
      have hfirst : rs = [] ∧ b.toNat = c.toNat ∨ 0xC2 ≤ b.toNat := by
        rcases follow_some hb with ⟨h, rfl⟩ | h | h | h
        · cases hus
          exact .inl ⟨rfl, hcode⟩
        · exact .inr h.1
        · exact .inr (by omega)
        · exact .inr (by omega)
      have hne : ∀ x : UInt8, x.toNat < 0xC2 → c.toNat ≠ x.toNat → b ≠ x := by
        rintro x hx hcx rfl
        rcases hfirst with ⟨-, heq⟩ | hge
        · exact hcx heq.symm
        · omega
      have hcontrol' : ¬b ≤ 0x1F := by
        rw [UInt8.le_iff_toNat_le]
        change ¬b.toNat ≤ 0x1F
        omega
      unfold scan_string_pass
      dsimp only
      rw [if_neg (hne 0x22 (by decide) hquote), if_neg (hne 0x5C (by decide) hslash),
        if_neg hcontrol']
      split_ifs with hascii
      · rw [UInt8.le_iff_toNat_le] at hascii
        change b.toNat ≤ 0x7F at hascii
        obtain ⟨rfl, -⟩ := hfirst.resolve_right (by omega)
        cases hus
        rfl
      · rw [UInt8.le_iff_toNat_le] at hascii
        change ¬b.toNat ≤ 0x7F at hascii
        rw [ranges_after_eq (Nat.lt_of_not_le hascii), hb]
        exact next_byte_in_range_iff.mpr ⟨us, hus, rfl, by rw [List.append_assoc]; rfl⟩

/-! ### A round goes no further -/

/-- The round has found no token. -/
def Pass.Tokenless : Pass → Prop
  | .inl _ => True
  | .inr (t, _) => ∃ error_message, t = .parse_error error_message

theorem tokenless_fail (error_message : String) (rest : List UInt8) :
    (Pass.fail error_message rest).Tokenless :=
  ⟨error_message, rfl⟩

theorem next_byte_in_range_tokenless (ranges : List Range) (rest buf : List UInt8) :
    (next_byte_in_range ranges rest buf).Tokenless := by
  induction ranges generalizing rest buf with
  | nil => trivial
  | cons r ranges ih =>
    cases rest with
    | nil => exact tokenless_fail _ _
    | cons c rest =>
      rw [next_byte_in_range]
      split_ifs
      · exact ih _ _
      · exact tokenless_fail _ _

theorem scan_unicode_tokenless (rest buf : List UInt8) : (scan_unicode rest buf).Tokenless := by
  have hlow : ∀ n rest, (scan_low_surrogate n rest buf).Tokenless := by
    intro n rest
    unfold scan_low_surrogate
    split
    · exact tokenless_fail _ _
    · split_ifs
      · trivial
      · exact tokenless_fail _ _
  unfold scan_unicode
  split
  · exact tokenless_fail _ _
  · split_ifs
    · split
      · exact tokenless_fail _ _
      · split_ifs
        · split
          · exact tokenless_fail _ _
          · split_ifs
            · exact hlow _ _
            · exact tokenless_fail _ _
        · exact tokenless_fail _ _
    · exact tokenless_fail _ _
    · trivial

theorem scan_escape_tokenless (rest buf : List UInt8) : (scan_escape rest buf).Tokenless := by
  cases rest with
  | nil => exact tokenless_fail _ _
  | cons x rest =>
    by_cases hx : x ∈ shorts.map Prod.fst
    · obtain ⟨⟨x, m⟩, hm, rfl⟩ := List.mem_map.mp hx
      rw [scan_escape_letter hm]
      trivial
    by_cases hu : x = 0x75
    · subst hu
      exact scan_unicode_tokenless _ _
    · rw [scan_escape_other hx hu]
      exact tokenless_fail _ _

/-- The scan ends at the quotation mark or with an error. -/
theorem scan_string_pass_out {r : Token × List UInt8} (h : scan_string_pass ⟨rest, buf⟩ = .inr r) :
    rest = 0x22 :: r.2 ∧ r.1 = .value_string buf ∨
      ∃ error_message, r.1 = .parse_error error_message := by
  have herror : ∀ {x : Pass}, x.Tokenless → x = .inr r →
      ∃ error_message, r.1 = .parse_error error_message := by
    rintro x hx rfl
    exact hx
  cases rest with
  | nil => exact .inr (herror (tokenless_fail _ _) h)
  | cons c rest =>
    unfold scan_string_pass at h
    dsimp only at h
    split_ifs at h with hquote
    · cases h
      exact .inl ⟨by rw [hquote], rfl⟩
    · exact .inr (herror (scan_escape_tokenless _ _) h)
    · exact .inr (herror (tokenless_fail _ _) h)
    · split at h
      · exact .inr (herror (next_byte_in_range_tokenless _ _ _) h)
      · exact .inr (herror (tokenless_fail _ _) h)

/-! ### The string -/

/-- What is left of a string, from here on. -/
def StringScan.Reads (s : StringScan) (r : List UInt8 × List UInt8) : Prop :=
  ∃ spelled cs, Spelled spelled cs ∧ s.rest = spelled ++ 0x22 :: r.2 ∧
    r.1 = s.token_buffer ++ encode cs

/-- A round reads the first of the characters, or the quotation mark that ends them. -/
theorem StringScan.reads_iff {s : StringScan} {r : List UInt8 × List UInt8} : s.Reads r ↔
    scan_string_pass s = .inr (.value_string r.1, r.2) ∨ ∃ t, scan_string_pass s = .inl t ∧
      t.Reads r := by
  obtain ⟨rest, buf⟩ := s
  obtain ⟨b, rest'⟩ := r
  constructor
  · rintro ⟨spelled, cs, hspelled, hrest, hb⟩
    dsimp only at hrest hb
    cases hspelled with
    | nil =>
      rw [encode_nil, List.append_nil] at hb
      rw [hrest, hb]
      exact .inl rfl
    | @cons piece more c cs hpiece hmore =>
      refine .inr ⟨⟨more ++ 0x22 :: rest', buf ++ String.utf8EncodeChar c⟩, ?_, more, cs, hmore,
        rfl, ?_⟩
      · exact scan_string_pass_iff.mpr ⟨piece, c, hpiece, by rw [hrest, List.append_assoc], rfl⟩
      · rw [hb, encode_cons, List.append_assoc]
  · rintro (h | ⟨⟨rest₁, buf₁⟩, h, spelled, cs, hspelled, hrest, hb⟩)
    · rcases scan_string_pass_out h with ⟨rfl, hb⟩ | ⟨_, herror⟩
      · cases hb
        exact ⟨[], [], .nil, rfl, (List.append_nil _).symm⟩
      · cases herror
    · dsimp only at hrest hb
      obtain ⟨piece, c, hpiece, rfl, rfl⟩ := scan_string_pass_iff.mp h
      refine ⟨piece ++ spelled, c :: cs, .cons hpiece hspelled, ?_, ?_⟩
      · rw [hrest, List.append_assoc]
      · rw [hb, encode_cons, List.append_assoc]

/-- What the loop of `scan_string` reads from here on. -/
theorem StringScan.reads_loop {s : StringScan} {r : List UInt8 × List UInt8} :
    s.Reads r ↔ loop scan_string_falls s = (.value_string r.1, r.2) := by
  refine loop_means (I := fun _ => True) (D := StringScan.Reads)
    (E := fun (t : Token × List UInt8) x => t = (.value_string x.1, x.2)) ?_ ?_ trivial r
  · intro s t _ hs
    refine ⟨trivial, fun x => ?_⟩
    rw [StringScan.reads_iff, hs]
    simp only [reduceCtorEq, Sum.inl.injEq, exists_eq_left', false_or]
  · intro s r _ hs x
    rw [StringScan.reads_iff, hs]
    simp only [reduceCtorEq, Sum.inr.injEq, false_and, exists_false, or_false]

/-- It has a string or an error. -/
theorem scan_string_token (rest : List UInt8) :
    (∃ buf, (scan_string rest).1 = .value_string buf) ∨
      ∃ error_message, (scan_string rest).1 = .parse_error error_message := by
  refine loop_inv (I := fun _ => True) (Q := fun r : Token × List UInt8 =>
    (∃ buf, r.1 = .value_string buf) ∨ ∃ error_message, r.1 = .parse_error error_message)
      (fun _ _ _ _ => trivial) ?_ trivial
  rintro ⟨rest, buf⟩ r _ h
  exact (scan_string_pass_out h).imp_left fun h => ⟨buf, h.2⟩

/-- **The strings**: the scanner takes those bytes, up to a quotation mark, that characters are
written as, and has their characters. -/
theorem scan_string_iff : scan_string rest = (.value_string buf, rest') ↔
    ∃ spelled cs, Spelled spelled cs ∧ rest = spelled ++ 0x22 :: rest' ∧ buf = encode cs :=
  (StringScan.reads_loop (s := ⟨rest, []⟩) (r := (buf, rest'))).symm

/-! ### What is written is read -/

/-- The writer writes a character so that it is read. -/
theorem piece_escapeChar (c : Char) : Piece (Json.escapeChar c) c := by
  have hletter : ∀ {x : UInt8} {m : ℕ}, (x, m) ∈ shorts → c.toNat = m → Piece [0x5C, x] c :=
    fun hx hc => .slashed (.letter (hc ▸ hx))
  unfold Json.escapeChar
  split
  · exact hletter (x := 0x62) (m := 8) (by decide) ‹_›
  · exact hletter (x := 0x74) (m := 9) (by decide) ‹_›
  · exact hletter (x := 0x6E) (m := 10) (by decide) ‹_›
  · exact hletter (x := 0x66) (m := 12) (by decide) ‹_›
  · exact hletter (x := 0x72) (m := 13) (by decide) ‹_›
  · exact hletter (x := 0x22) (m := 34) (by decide) ‹_›
  · exact hletter (x := 0x5C) (m := 92) (by decide) ‹_›
  · rename_i hquote hslash
    split_ifs with hcontrol
    · have hdigit : ∀ i < 16, hexValue (Json.hexDigit i) = some i := by decide
      have hhex :=
        Hex.intro (hdigit 0 (by omega)) (hdigit 0 (by omega)) (hdigit (c.toNat / 16) (by omega))
        (hdigit (c.toNat % 16) (by omega))
      have hvalue : ((0 * 16 + 0) * 16 + c.toNat / 16) * 16 + c.toNat % 16 = c.toNat := by omega
      rw [hvalue] at hhex
      exact .slashed (.code (.one hhex))
    · exact .plain (by omega) (fun h => hquote h) (fun h => hslash h)

theorem spelled_escaped (cs : List Char) : Spelled (cs.flatMap Json.escapeChar) cs := by
  induction cs with
  | nil => exact .nil
  | cons c cs ih => exact .cons (piece_escapeChar c) ih

/-- No other way to write a character is shorter. -/
theorem Piece.length_le {piece : List UInt8} {c : Char} (h : Piece piece c) :
    (Json.escapeChar c).length ≤ piece.length := by
  cases h with
  | plain hcontrol hquote hslash =>
    unfold Json.escapeChar
    split
    all_goals first | omega | skip
    rw [if_neg (by omega)]
  | slashed h =>
    cases h with
    | @letter x c hx =>
      have hshort : ∀ p ∈ shorts, (Json.escapeChar (Char.ofNat p.2)).length ≤ 2 := by decide +kernel
      have hle := hshort _ hx
      rwa [Char.ofNat_toNat] at hle
    | code h =>
      have hle := Json.length_escapeChar_le c
      cases h with
      | one hds =>
        rw [List.length_cons, List.length_cons, hds.length]
        exact hle
      | two hds hds' =>
        simp only [List.length_cons, List.length_append, hds.length, hds'.length]
        omega

theorem Spelled.length_le {spelled : List UInt8} {cs : List Char} (h : Spelled spelled cs) :
    (cs.flatMap Json.escapeChar).length ≤ spelled.length := by
  induction h with
  | nil => exact Nat.le_refl _
  | cons hpiece _ ih =>
    rw [List.flatMap_cons, List.length_append, List.length_append]
    exact Nat.add_le_add hpiece.length_le ih

end PickUpLight.Library
