import Mathlib.Data.Rat.Defs
import PickUpLight.Theory.Decimal
import PickUpLight.Theory.Longest
import PickUpLight.Theory.Loop
import PickUpLight.Theory.Utf8

/-!
# The scanner of the JSON library

`lexer.hpp`. The scanner reads bytes; an input that has ended reads as nothing. A token
comes with what the scanner keeps of it: the bytes of a string, the value of a number. To
`unget` a byte is not to take it from the input. Where the scanner is in the text, and what it
last read, are only for the texts of exceptions and are left out, and so are comments, which
`parse` does not ignore. The decimal point is the one of the "C" locale.

`strtod` is a parameter: it has the number of a numeral, or nothing where that is not finite.
-/

namespace PickUpLight.Library

open Theory Theory.Utf8 Theory.Decimal

/-- A token, with its value. -/
inductive Token where
  | literal_true
  | literal_false
  | literal_null
  /-- A string, with its bytes. -/
  | value_string (token_buffer : List UInt8)
  | value_unsigned (n : ℕ)
  | value_integer (n : ℤ)
  /-- A number that is not one of the integers, nothing where it is not finite. -/
  | value_float (q : Option ℚ)
  | begin_array
  | begin_object
  | end_array
  | end_object
  | name_separator
  | value_separator
  | parse_error (error_message : String)
  | end_of_input
  deriving DecidableEq, Repr

/-! ### Strings -/

/-- The value of a hexadecimal digit. -/
def hexValue (c : UInt8) : Option ℕ :=
  if 0x30 ≤ c ∧ c ≤ 0x39 then some (c.toNat - 0x30)
  else if 0x41 ≤ c ∧ c ≤ 0x46 then some (c.toNat - 0x37)
  else if 0x61 ≤ c ∧ c ≤ 0x66 then some (c.toNat - 0x57)
  else none

/-- The loop of `get_codepoint`, over its factors. -/
def get_codepoint_digits : List ℕ → ℕ → List UInt8 → Option ℕ × List UInt8
  | [], codepoint, rest => (some codepoint, rest)
  | _ :: _, _, [] => (none, [])
  | factor :: factors, codepoint, c :: rest =>
    match hexValue c with
    | some d => get_codepoint_digits factors (codepoint + d <<< factor) rest
    | none => (none, rest)

/-- The code point of four digits, nothing for -1. -/
def get_codepoint (rest : List UInt8) : Option ℕ × List UInt8 :=
  get_codepoint_digits [12, 8, 4, 0] 0 rest

/-- The bytes of a code point. -/
def add_codepoint (codepoint : ℕ) : List UInt8 :=
  if codepoint < 0x80 then [UInt8.ofNat codepoint]
  else if codepoint ≤ 0x7FF then
    [UInt8.ofNat (0xC0 ||| codepoint >>> 6), UInt8.ofNat (0x80 ||| codepoint &&& 0x3F)]
  else if codepoint ≤ 0xFFFF then
    [UInt8.ofNat (0xE0 ||| codepoint >>> 12), UInt8.ofNat (0x80 ||| codepoint >>> 6 &&& 0x3F),
      UInt8.ofNat (0x80 ||| codepoint &&& 0x3F)]
  else
    [UInt8.ofNat (0xF0 ||| codepoint >>> 18), UInt8.ofNat (0x80 ||| codepoint >>> 12 &&& 0x3F),
      UInt8.ofNat (0x80 ||| codepoint >>> 6 &&& 0x3F), UInt8.ofNat (0x80 ||| codepoint &&& 0x3F)]

/-- The scanner within a string. -/
structure StringScan where
  /-- What is left of the input. -/
  rest : List UInt8
  /-- The bytes of the string so far. -/
  token_buffer : List UInt8
  deriving DecidableEq, Repr

/-- What a round of a scan comes to: the next round, or a token and what is left of the input. -/
abbrev Pass := StringScan ⊕ (Token × List UInt8)

/-- The scan has failed. -/
def Pass.fail (error_message : String) (rest : List UInt8) : Pass :=
  .inr (.parse_error error_message, rest)

/-- `next_byte_in_range`, with the ranges of the bytes to come; the byte before them is in the
buffer. -/
def next_byte_in_range : List Range → List UInt8 → List UInt8 → Pass
  | [], rest, token_buffer => .inl ⟨rest, token_buffer⟩
  | _ :: _, [], _ => .fail "invalid string: ill-formed UTF-8 byte" []
  | r :: ranges, c :: rest, token_buffer =>
    if r.Has c then next_byte_in_range ranges rest (token_buffer ++ [c])
    else .fail "invalid string: ill-formed UTF-8 byte" rest

/-- A surrogate pair ends with this code point. -/
def scan_low_surrogate (codepoint1 : ℕ) (rest token_buffer : List UInt8) : Pass :=
  match get_codepoint rest with
  | (none, rest) => .fail "invalid string: '\\u' must be followed by 4 hex digits" rest
  | (some codepoint2, rest) =>
    if 0xDC00 ≤ codepoint2 ∧ codepoint2 ≤ 0xDFFF then
      .inl ⟨rest, token_buffer ++ add_codepoint (codepoint1 <<< 10 + codepoint2 - 0x35FDC00)⟩
    else .fail "invalid string: surrogate U+D800..U+DBFF must be followed by U+DC00..U+DFFF" rest

/-- `\u` has been read. -/
def scan_unicode (rest token_buffer : List UInt8) : Pass :=
  match get_codepoint rest with
  | (none, rest) => .fail "invalid string: '\\u' must be followed by 4 hex digits" rest
  | (some codepoint1, rest) =>
    if 0xD800 ≤ codepoint1 ∧ codepoint1 ≤ 0xDBFF then
      match rest with
      | [] => .fail "invalid string: surrogate U+D800..U+DBFF must be followed by U+DC00..U+DFFF" []
      | c :: rest =>
        if c = 0x5C then
          match rest with
          | [] => .fail
            "invalid string: surrogate U+D800..U+DBFF must be followed by U+DC00..U+DFFF" []
          | c :: rest =>
            if c = 0x75 then scan_low_surrogate codepoint1 rest token_buffer
            else .fail "invalid string: surrogate U+D800..U+DBFF must be followed by U+DC00..U+DFFF"
              rest
        else .fail "invalid string: surrogate U+D800..U+DBFF must be followed by U+DC00..U+DFFF"
          rest
    else if 0xDC00 ≤ codepoint1 ∧ codepoint1 ≤ 0xDFFF then
      .fail "invalid string: surrogate U+DC00..U+DFFF must follow U+D800..U+DBFF" rest
    else .inl ⟨rest, token_buffer ++ add_codepoint codepoint1⟩

/-- A backslash has been read. -/
def scan_escape (rest token_buffer : List UInt8) : Pass :=
  match rest with
  | [] => .fail "invalid string: forbidden character after backslash" []
  | c :: rest =>
    if c = 0x22 then .inl ⟨rest, token_buffer ++ [0x22]⟩
    else if c = 0x5C then .inl ⟨rest, token_buffer ++ [0x5C]⟩
    else if c = 0x2F then .inl ⟨rest, token_buffer ++ [0x2F]⟩
    else if c = 0x62 then .inl ⟨rest, token_buffer ++ [0x08]⟩
    else if c = 0x66 then .inl ⟨rest, token_buffer ++ [0x0C]⟩
    else if c = 0x6E then .inl ⟨rest, token_buffer ++ [0x0A]⟩
    else if c = 0x72 then .inl ⟨rest, token_buffer ++ [0x0D]⟩
    else if c = 0x74 then .inl ⟨rest, token_buffer ++ [0x09]⟩
    else if c = 0x75 then scan_unicode rest token_buffer
    else .fail "invalid string: forbidden character after backslash" rest

/-- The names of the control characters, and how they must be escaped. -/
def control_characters : List (String × String) :=
  [("U+0000 (NUL)", "\\u0000"), ("U+0001 (SOH)", "\\u0001"), ("U+0002 (STX)", "\\u0002"),
    ("U+0003 (ETX)", "\\u0003"),
    ("U+0004 (EOT)", "\\u0004"), ("U+0005 (ENQ)", "\\u0005"), ("U+0006 (ACK)", "\\u0006"),
      ("U+0007 (BEL)", "\\u0007"),
    ("U+0008 (BS)", "\\u0008 or \\b"), ("U+0009 (HT)", "\\u0009 or \\t"),
      ("U+000A (LF)", "\\u000A or \\n"),
    ("U+000B (VT)", "\\u000B"), ("U+000C (FF)", "\\u000C or \\f"),
      ("U+000D (CR)", "\\u000D or \\r"),
    ("U+000E (SO)", "\\u000E"), ("U+000F (SI)", "\\u000F"), ("U+0010 (DLE)", "\\u0010"),
      ("U+0011 (DC1)", "\\u0011"),
    ("U+0012 (DC2)", "\\u0012"), ("U+0013 (DC3)", "\\u0013"), ("U+0014 (DC4)", "\\u0014"),
      ("U+0015 (NAK)", "\\u0015"),
    ("U+0016 (SYN)", "\\u0016"), ("U+0017 (ETB)", "\\u0017"), ("U+0018 (CAN)", "\\u0018"),
      ("U+0019 (EM)", "\\u0019"),
    ("U+001A (SUB)", "\\u001A"), ("U+001B (ESC)", "\\u001B"), ("U+001C (FS)", "\\u001C"),
      ("U+001D (GS)", "\\u001D"),
    ("U+001E (RS)", "\\u001E"), ("U+001F (US)", "\\u001F")]

/-- The error a control character is. -/
def control_message (c : UInt8) : String :=
  let (name, escape) := control_characters.getD c.toNat ("", "")
  "invalid string: control character " ++ name ++ " must be escaped to " ++ escape

/-- The ranges `next_byte_in_range` is called with after a byte that is no ASCII character; no other
bytes are well-formed. -/
def ranges_after (c : UInt8) : Option (List Range) :=
  if 0xC2 ≤ c ∧ c ≤ 0xDF then some [⟨0x80, 0xBF⟩]
  else if c = 0xE0 then some [⟨0xA0, 0xBF⟩, ⟨0x80, 0xBF⟩]
  else if 0xE1 ≤ c ∧ c ≤ 0xEC ∨ c = 0xEE ∨ c = 0xEF then some [⟨0x80, 0xBF⟩, ⟨0x80, 0xBF⟩]
  else if c = 0xED then some [⟨0x80, 0x9F⟩, ⟨0x80, 0xBF⟩]
  else if c = 0xF0 then some [⟨0x90, 0xBF⟩, ⟨0x80, 0xBF⟩, ⟨0x80, 0xBF⟩]
  else if 0xF1 ≤ c ∧ c ≤ 0xF3 then some [⟨0x80, 0xBF⟩, ⟨0x80, 0xBF⟩, ⟨0x80, 0xBF⟩]
  else if c = 0xF4 then some [⟨0x80, 0x8F⟩, ⟨0x80, 0xBF⟩, ⟨0x80, 0xBF⟩]
  else none

/-- One round of `scan_string`. -/
def scan_string_pass (s : StringScan) : Pass :=
  match s.rest with
  | [] => .fail "invalid string: missing closing quote" []
  | c :: rest =>
    if c = 0x22 then .inr (.value_string s.token_buffer, rest)
    else if c = 0x5C then scan_escape rest s.token_buffer
    else if c ≤ 0x1F then .fail (control_message c) rest
    else if c ≤ 0x7F then .inl ⟨rest, s.token_buffer ++ [c]⟩
    else
      match ranges_after c with
      | some ranges => next_byte_in_range ranges rest (s.token_buffer ++ [c])
      | none => .fail "invalid string: ill-formed UTF-8 byte" rest

/-! What is left of the input is its end. -/

/-- What is left of the input after a round. -/
def Pass.rest : Pass → List UInt8
  | .inl s => s.rest
  | .inr (_, rest) => rest

theorem get_codepoint_digits_suffix (factors : List ℕ) (codepoint : ℕ) (rest : List UInt8) :
    (get_codepoint_digits factors codepoint rest).2 <:+ rest := by
  induction factors generalizing codepoint rest with
  | nil => exact List.suffix_rfl
  | cons factor factors ih =>
    cases rest with
    | nil => exact List.suffix_rfl
    | cons c rest =>
      rw [get_codepoint_digits]
      split
      · exact (ih _ rest).trans (List.suffix_cons c rest)
      · exact List.suffix_cons c rest

theorem get_codepoint_suffix {rest rest' : List UInt8} {codepoint : Option ℕ}
    (h : get_codepoint rest = (codepoint, rest')) : rest' <:+ rest := by
  have hsuffix := get_codepoint_digits_suffix [12, 8, 4, 0] 0 rest
  rw [get_codepoint] at h
  rwa [h] at hsuffix

theorem next_byte_in_range_suffix (ranges : List Range) (rest token_buffer : List UInt8) :
    (next_byte_in_range ranges rest token_buffer).rest <:+ rest := by
  induction ranges generalizing rest token_buffer with
  | nil => exact List.suffix_rfl
  | cons r ranges ih =>
    cases rest with
    | nil => exact List.suffix_rfl
    | cons c rest =>
      rw [next_byte_in_range]
      split
      · exact (ih rest _).trans (List.suffix_cons c rest)
      · exact List.suffix_cons c rest

theorem scan_low_surrogate_suffix (codepoint1 : ℕ) (rest token_buffer : List UInt8) :
    (scan_low_surrogate codepoint1 rest token_buffer).rest <:+ rest := by
  unfold scan_low_surrogate
  split
  · rename_i h
    exact get_codepoint_suffix h
  · rename_i h
    split
    · exact get_codepoint_suffix h
    · exact get_codepoint_suffix h

theorem scan_unicode_suffix (rest token_buffer : List UInt8) :
    (scan_unicode rest token_buffer).rest <:+ rest := by
  unfold scan_unicode
  split
  · rename_i h
    exact get_codepoint_suffix h
  · rename_i h
    have hsuffix := get_codepoint_suffix h
    split
    · split
      · exact List.nil_suffix
      · rename_i c rest'
        have hrest := (List.suffix_cons c rest').trans hsuffix
        split
        · split
          · exact List.nil_suffix
          · rename_i c' rest''
            have hrest' := (List.suffix_cons c' rest'').trans hrest
            split
            · exact (scan_low_surrogate_suffix _ _ _).trans hrest'
            · exact hrest'
        · exact hrest
    · split
      · exact hsuffix
      · exact hsuffix

theorem scan_escape_suffix (rest token_buffer : List UInt8) :
    (scan_escape rest token_buffer).rest <:+ rest := by
  unfold scan_escape
  split
  · exact List.suffix_rfl
  · rename_i c rest
    have hcons := List.suffix_cons c rest
    repeat'
      refine iteInduction (motive := fun x : Pass => x.rest <:+ c :: rest) (fun _ => ?_) fun _ => ?_
    all_goals first | exact hcons | exact (scan_unicode_suffix _ _).trans hcons

/-- Every round of `scan_string` reads a byte at least. -/
theorem scan_string_pass_suffix (c : UInt8) (rest token_buffer : List UInt8) :
    (scan_string_pass ⟨c :: rest, token_buffer⟩).rest <:+ rest := by
  unfold scan_string_pass
  dsimp only
  split_ifs
  · exact List.suffix_rfl
  · exact scan_escape_suffix _ _
  · exact List.suffix_rfl
  · exact List.suffix_rfl
  · split
    · exact next_byte_in_range_suffix _ _ _
    · exact List.suffix_rfl

theorem scan_string_falls : Falls scan_string_pass fun s => s.rest.length := by
  rintro ⟨rest, token_buffer⟩ t h
  cases rest with
  | nil => cases h
  | cons c rest =>
    have hsuffix := scan_string_pass_suffix c rest token_buffer
    rw [h] at hsuffix
    exact Nat.lt_succ_of_le hsuffix.length_le

/-- `scan_string`; the quotation mark before the string has been read. -/
def scan_string (rest : List UInt8) : Token × List UInt8 := loop scan_string_falls ⟨rest, []⟩

theorem scan_string_suffix (rest : List UInt8) : (scan_string rest).2 <:+ rest := by
  refine loop_inv (I := fun s : StringScan => s.rest <:+ rest)
    (Q := fun r : Token × List UInt8 => r.2 <:+ rest) ?_ ?_ List.suffix_rfl
  · rintro ⟨rest', token_buffer⟩ t hs h
    cases rest' with
    | nil => cases h
    | cons c rest' =>
      have hsuffix := scan_string_pass_suffix c rest' token_buffer
      rw [h] at hsuffix
      exact hsuffix.trans ((List.suffix_cons c rest').trans hs)
  · rintro ⟨rest', token_buffer⟩ r hs h
    cases rest' with
    | nil =>
      cases h
      exact List.nil_suffix
    | cons c rest' =>
      have hsuffix := scan_string_pass_suffix c rest' token_buffer
      rw [h] at hsuffix
      exact hsuffix.trans ((List.suffix_cons c rest').trans hs)

/-! ### Numbers -/

/-- The types a number may have while it is read. -/
inductive NumberType where
  | value_unsigned
  | value_integer
  | value_float
  deriving DecidableEq, Repr

/-- A numeral that has been read: its type, its bytes, and what is left of the input. -/
structure Numeral where
  number_type : NumberType
  token_buffer : List UInt8
  rest : List UInt8
  deriving DecidableEq, Repr

/-- What reading a numeral comes to: it, or an error and what is left of the input. -/
abbrev NumberScan := Except (String × List UInt8) Numeral

/-- The state after the digits of an exponent. -/
def scan_number_any2 : List UInt8 → List UInt8 → NumberScan
  | [], token_buffer => .ok ⟨.value_float, token_buffer, []⟩
  | c :: rest, token_buffer =>
    if IsDigit c then scan_number_any2 rest (token_buffer ++ [c]) else .ok
      ⟨.value_float, token_buffer, c :: rest⟩

/-- The state after the sign of an exponent. -/
def scan_number_sign : List UInt8 → List UInt8 → NumberScan
  | [], _ => .error ("invalid number; expected digit after exponent sign", [])
  | c :: rest, token_buffer =>
    if IsDigit c then scan_number_any2 rest (token_buffer ++ [c])
    else .error ("invalid number; expected digit after exponent sign", rest)

/-- The state after the letter of an exponent. -/
def scan_number_exponent : List UInt8 → List UInt8 → NumberScan
  | [], _ => .error ("invalid number; expected '+', '-', or digit after exponent", [])
  | c :: rest, token_buffer =>
    if c = 0x2B ∨ c = 0x2D then scan_number_sign rest (token_buffer ++ [c])
    else if IsDigit c then scan_number_any2 rest (token_buffer ++ [c])
    else .error ("invalid number; expected '+', '-', or digit after exponent", rest)

/-- The state after the digits of a fraction. -/
def scan_number_decimal2 : List UInt8 → List UInt8 → NumberScan
  | [], token_buffer => .ok ⟨.value_float, token_buffer, []⟩
  | c :: rest, token_buffer =>
    if IsDigit c then scan_number_decimal2 rest (token_buffer ++ [c])
    else if c = 0x65 ∨ c = 0x45 then scan_number_exponent rest (token_buffer ++ [c])
    else .ok ⟨.value_float, token_buffer, c :: rest⟩

/-- The state after the decimal point. -/
def scan_number_decimal1 : List UInt8 → List UInt8 → NumberScan
  | [], _ => .error ("invalid number; expected digit after '.'", [])
  | c :: rest, token_buffer =>
    if IsDigit c then scan_number_decimal2 rest (token_buffer ++ [c])
    else .error ("invalid number; expected digit after '.'", rest)

/-- The state after the digits of an integer. -/
def scan_number_any1 (number_type : NumberType) : List UInt8 → List UInt8 → NumberScan
  | [], token_buffer => .ok ⟨number_type, token_buffer, []⟩
  | c :: rest, token_buffer =>
    if IsDigit c then scan_number_any1 number_type rest (token_buffer ++ [c])
    else if c = 0x2E then scan_number_decimal1 rest (token_buffer ++ [c])
    else if c = 0x65 ∨ c = 0x45 then scan_number_exponent rest (token_buffer ++ [c])
    else .ok ⟨number_type, token_buffer, c :: rest⟩

/-- The state after a zero that begins an integer. -/
def scan_number_zero (number_type : NumberType) : List UInt8 → List UInt8 → NumberScan
  | [], token_buffer => .ok ⟨number_type, token_buffer, []⟩
  | c :: rest, token_buffer =>
    if c = 0x2E then scan_number_decimal1 rest (token_buffer ++ [c])
    else if c = 0x65 ∨ c = 0x45 then scan_number_exponent rest (token_buffer ++ [c])
    else .ok ⟨number_type, token_buffer, c :: rest⟩

/-- The state after the sign of a number. -/
def scan_number_minus : List UInt8 → List UInt8 → NumberScan
  | [], _ => .error ("invalid number; expected digit after '-'", [])
  | c :: rest, token_buffer =>
    if c = 0x30 then scan_number_zero .value_integer rest (token_buffer ++ [c])
    else if IsDigit c then scan_number_any1 .value_integer rest (token_buffer ++ [c])
    else .error ("invalid number; expected digit after '-'", rest)

/-- The first state: `scan` has read a sign or a digit. -/
def scan_number_init (current : UInt8) (rest : List UInt8) : NumberScan :=
  if current = 0x2D then scan_number_minus rest [current]
  else if current = 0x30 then scan_number_zero .value_unsigned rest [current]
  else scan_number_any1 .value_unsigned rest [current]

/-! The comment of `scan_number` has its states in a table. -/

/-- The states of the table that go on. -/
inductive NumberState where
  | init
  | minus
  | zero
  | any1
  | decimal1
  | decimal2
  | exponent
  | sign
  | any2
  deriving DecidableEq, Repr

/-- **The table**, without the states it ends in. -/
def number_table : Machine NumberState UInt8
  | .init, c =>
    if c = 0x2D then some .minus
    else if c = 0x30 then some .zero
    else if IsDigit c then some .any1
    else none
  | .minus, c =>
    if c = 0x30 then some .zero
    else if IsDigit c then some .any1
    else none
  | .zero, c =>
    if c = 0x2E then some .decimal1
    else if c = 0x65 ∨ c = 0x45 then some .exponent
    else none
  | .any1, c =>
    if IsDigit c then some .any1
    else if c = 0x2E then some .decimal1
    else if c = 0x65 ∨ c = 0x45 then some .exponent
    else none
  | .decimal1, c => if IsDigit c then some .decimal2 else none
  | .decimal2, c =>
    if IsDigit c then some .decimal2
    else if c = 0x65 ∨ c = 0x45 then some .exponent
    else none
  | .exponent, c =>
    if c = 0x2B ∨ c = 0x2D then some .sign
    else if IsDigit c then some .any2
    else none
  | .sign, c => if IsDigit c then some .any2 else none
  | .any2, c => if IsDigit c then some .any2 else none

/-- What a state that does not go on comes to, after the bytes of `token_buffer` and those that
have been taken. -/
def NumberState.outcome (number_type : NumberType) (token_buffer : List UInt8) :
    NumberState × List UInt8 × List UInt8 → NumberScan
  | (.init, _, rest) => .error ("", rest.tail)
  | (.minus, _, rest) => .error ("invalid number; expected digit after '-'", rest.tail)
  | (.zero, taken, rest) | (.any1, taken, rest) => .ok ⟨number_type, token_buffer ++ taken, rest⟩
  | (.decimal1, _, rest) => .error ("invalid number; expected digit after '.'", rest.tail)
  | (.exponent, _, rest) =>
    .error ("invalid number; expected '+', '-', or digit after exponent", rest.tail)
  | (.sign, _, rest) => .error ("invalid number; expected digit after exponent sign", rest.tail)
  | (.decimal2, taken, rest) | (.any2, taken, rest) =>
    .ok ⟨.value_float, token_buffer ++ taken, rest⟩

/-- A byte that has been taken is one of the buffer. -/
theorem outcome_cons (number_type : NumberType) (token_buffer taken rest : List UInt8) (c : UInt8)
    (s : NumberState) :
    NumberState.outcome number_type token_buffer (s, c :: taken, rest) =
      NumberState.outcome number_type (token_buffer ++ [c]) (s, taken, rest) := by
  cases s <;> simp [NumberState.outcome]

section Table

variable {number_type : NumberType} {token_buffer rest : List UInt8} {c : UInt8} {t : NumberState}

theorem outcome_some (s : NumberState) (h : number_table s c = some t) :
    NumberState.outcome number_type token_buffer (number_table.longest s (c :: rest)) =
      NumberState.outcome number_type (token_buffer ++ [c]) (number_table.longest t rest) := by
  rw [Machine.longest_some h, outcome_cons]

theorem outcome_none (s : NumberState) (h : number_table s c = none) :
    NumberState.outcome number_type token_buffer (number_table.longest s (c :: rest)) =
      NumberState.outcome number_type token_buffer (s, [], c :: rest) := by
  rw [Machine.longest_none h]

variable (number_type rest token_buffer)

theorem scan_number_any2_eq : scan_number_any2 rest token_buffer =
    NumberState.outcome number_type token_buffer (number_table.longest .any2 rest) := by
  induction rest generalizing token_buffer with
  | nil => simp only [scan_number_any2, Machine.longest, NumberState.outcome, List.append_nil]
  | cons c rest ih =>
    rw [scan_number_any2]
    split_ifs with h
    · rw [outcome_some .any2 (if_pos h), ih]
    · rw [outcome_none .any2 (if_neg h), NumberState.outcome, List.append_nil]

theorem scan_number_sign_eq : scan_number_sign rest token_buffer =
    NumberState.outcome number_type token_buffer (number_table.longest .sign rest) := by
  cases rest with
  | nil => rfl
  | cons c rest =>
    rw [scan_number_sign]
    split_ifs with h
    · rw [outcome_some .sign (if_pos h), ← scan_number_any2_eq]
    · rw [outcome_none .sign (if_neg h)]
      rfl

theorem scan_number_exponent_eq : scan_number_exponent rest token_buffer =
    NumberState.outcome number_type token_buffer (number_table.longest .exponent rest) := by
  cases rest with
  | nil => rfl
  | cons c rest =>
    rw [scan_number_exponent]
    split_ifs with h h'
    · rw [outcome_some .exponent (if_pos h), ← scan_number_sign_eq]
    · rw [outcome_some .exponent ((if_neg h).trans (if_pos h')), ← scan_number_any2_eq]
    · rw [outcome_none .exponent ((if_neg h).trans (if_neg h'))]
      rfl

theorem scan_number_decimal2_eq : scan_number_decimal2 rest token_buffer =
    NumberState.outcome number_type token_buffer (number_table.longest .decimal2 rest) := by
  induction rest generalizing token_buffer with
  | nil => simp only [scan_number_decimal2, Machine.longest, NumberState.outcome, List.append_nil]
  | cons c rest ih =>
    rw [scan_number_decimal2]
    split_ifs with h h'
    · rw [outcome_some .decimal2 (if_pos h), ih]
    · rw [outcome_some .decimal2 ((if_neg h).trans (if_pos h')), ← scan_number_exponent_eq]
    · rw [outcome_none .decimal2 ((if_neg h).trans (if_neg h')), NumberState.outcome,
        List.append_nil]

theorem scan_number_decimal1_eq : scan_number_decimal1 rest token_buffer =
    NumberState.outcome number_type token_buffer (number_table.longest .decimal1 rest) := by
  cases rest with
  | nil => rfl
  | cons c rest =>
    rw [scan_number_decimal1]
    split_ifs with h
    · rw [outcome_some .decimal1 (if_pos h), ← scan_number_decimal2_eq]
    · rw [outcome_none .decimal1 (if_neg h)]
      rfl

theorem scan_number_any1_eq : scan_number_any1 number_type rest token_buffer =
    NumberState.outcome number_type token_buffer (number_table.longest .any1 rest) := by
  induction rest generalizing token_buffer with
  | nil => simp only [scan_number_any1, Machine.longest, NumberState.outcome, List.append_nil]
  | cons c rest ih =>
    rw [scan_number_any1]
    split_ifs with h h' h''
    · rw [outcome_some .any1 (if_pos h), ih]
    · rw [outcome_some .any1 ((if_neg h).trans (if_pos h')), ← scan_number_decimal1_eq]
    · rw [outcome_some .any1 ((if_neg h).trans ((if_neg h').trans (if_pos h''))),
        ← scan_number_exponent_eq]
    · rw [outcome_none .any1 ((if_neg h).trans ((if_neg h').trans (if_neg h''))),
        NumberState.outcome, List.append_nil]

theorem scan_number_zero_eq : scan_number_zero number_type rest token_buffer =
    NumberState.outcome number_type token_buffer (number_table.longest .zero rest) := by
  cases rest with
  | nil => simp only [scan_number_zero, Machine.longest, NumberState.outcome, List.append_nil]
  | cons c rest =>
    rw [scan_number_zero]
    split_ifs with h h'
    · rw [outcome_some .zero (if_pos h), ← scan_number_decimal1_eq]
    · rw [outcome_some .zero ((if_neg h).trans (if_pos h')), ← scan_number_exponent_eq]
    · rw [outcome_none .zero ((if_neg h).trans (if_neg h')), NumberState.outcome, List.append_nil]

theorem scan_number_minus_eq : scan_number_minus rest token_buffer =
    NumberState.outcome .value_integer token_buffer (number_table.longest .minus rest) := by
  cases rest with
  | nil => rfl
  | cons c rest =>
    rw [scan_number_minus]
    split_ifs with h h'
    · rw [outcome_some .minus (if_pos h), ← scan_number_zero_eq]
    · rw [outcome_some .minus ((if_neg h).trans (if_pos h')), ← scan_number_any1_eq]
    · rw [outcome_none .minus ((if_neg h).trans (if_neg h'))]
      rfl

/-- The sign or the digit that begins a number is taken. -/
theorem number_table_init (h : c = 0x2D ∨ IsDigit c) : ∃ t, number_table .init c = some t := by
  by_cases h1 : c = 0x2D
  · exact ⟨.minus, if_pos h1⟩
  by_cases h2 : c = 0x30
  · exact ⟨.zero, (if_neg h1).trans (if_pos h2)⟩
  · exact ⟨.any1, (if_neg h1).trans ((if_neg h2).trans (if_pos (h.resolve_left h1)))⟩

/-- **The labels of `scan_number` are the states of its table.** -/
theorem scan_number_init_eq (h : c = 0x2D ∨ IsDigit c) : scan_number_init c rest =
    NumberState.outcome (if c = 0x2D then .value_integer else .value_unsigned) []
      (number_table.longest .init (c :: rest)) := by
  rw [scan_number_init]
  split_ifs with h1 h2
  · rw [outcome_some .init (if_pos h1), ← scan_number_minus_eq]
    rfl
  · rw [outcome_some .init ((if_neg h1).trans (if_pos h2)), ← scan_number_zero_eq]
    rfl
  · rw [outcome_some .init ((if_neg h1).trans ((if_neg h2).trans (if_pos (h.resolve_left h1)))),
      ← scan_number_any1_eq]
    rfl

end Table

/-- `strtoull` of digits, nothing where it sets `errno`. -/
def strtoull (digits : List UInt8) : Option ℕ :=
  if value digits < 2 ^ 64 then some (value digits) else none

/-- `strtoll` of digits that may have a sign, nothing where it sets `errno`. -/
def strtoll : List UInt8 → Option ℤ
  | [] => some 0
  | c :: digits =>
    if c = 0x2D then if value digits ≤ 2 ^ 63 then some (-value digits) else none
    else if value (c :: digits) < 2 ^ 63 then some (value (c :: digits)) else none

/-- The token of a numeral: integers first, and then the other numbers. -/
def scan_number_done (strtod : List UInt8 → Option ℚ) (n : Numeral) : Token :=
  match n.number_type with
  | .value_unsigned =>
    match strtoull n.token_buffer with
    | some x => .value_unsigned x
    | none => .value_float (strtod n.token_buffer)
  | .value_integer =>
    match strtoll n.token_buffer with
    | some x => .value_integer x
    | none => .value_float (strtod n.token_buffer)
  | .value_float => .value_float (strtod n.token_buffer)

/-- `scan_number`. -/
def scan_number (strtod : List UInt8 → Option ℚ) (current : UInt8) (rest : List UInt8) :
    Token × List UInt8 :=
  match scan_number_init current rest with
  | .ok n => (scan_number_done strtod n, n.rest)
  | .error (error_message, rest) => (.parse_error error_message, rest)

/-- What is left of the input after a numeral. -/
def NumberScan.rest : NumberScan → List UInt8
  | .ok n => n.rest
  | .error (_, rest) => rest

theorem outcome_suffix (number_type : NumberType) (token_buffer taken rest : List UInt8)
    (s : NumberState) :
    (NumberState.outcome number_type token_buffer (s, taken, rest)).rest <:+ rest := by
  cases s <;> first | exact List.suffix_rfl | exact List.tail_suffix rest

theorem scan_number_suffix (strtod : List UInt8 → Option ℚ) {c : UInt8} (h : c = 0x2D ∨ IsDigit c)
    (rest : List UInt8) :
    (scan_number strtod c rest).2 <:+ rest := by
  obtain ⟨t, ht⟩ := number_table_init h
  have hsuffix : (scan_number_init c rest).rest <:+ rest := by
    rw [scan_number_init_eq rest h, Machine.longest_some ht]
    refine (outcome_suffix _ _ _ _ _).trans ?_
    exact ⟨_, Machine.longest_append t rest⟩
  unfold scan_number
  split
  · rename_i n hn
    rw [hn] at hsuffix
    exact hsuffix
  · rename_i hn
    rw [hn] at hsuffix
    exact hsuffix

/-! ### Tokens -/

/-- `scan_literal`; the first byte of the literal has been read. -/
def scan_literal (return_type : Token) : List UInt8 → List UInt8 → Token × List UInt8
  | [], rest => (return_type, rest)
  | _ :: _, [] => (.parse_error "invalid literal", [])
  | x :: literal_text, c :: rest =>
    if c = x then scan_literal return_type literal_text rest else
      (.parse_error "invalid literal", rest)

/-- The bytes between tokens. -/
def IsWhitespace (c : UInt8) : Prop := c = 0x20 ∨ c = 0x09 ∨ c = 0x0A ∨ c = 0x0D

instance (c : UInt8) : Decidable (IsWhitespace c) := inferInstanceAs (Decidable (_ ∨ _))

/-- `skip_whitespace`; the byte it stops at is read next. -/
def skip_whitespace : List UInt8 → List UInt8
  | [] => []
  | c :: rest => if IsWhitespace c then skip_whitespace rest else c :: rest

/-- The token that begins here. -/
def scan_token (strtod : List UInt8 → Option ℚ) : List UInt8 → Token × List UInt8
  | [] => (.end_of_input, [])
  | c :: rest =>
    if c = 0x5B then (.begin_array, rest)
    else if c = 0x5D then (.end_array, rest)
    else if c = 0x7B then (.begin_object, rest)
    else if c = 0x7D then (.end_object, rest)
    else if c = 0x3A then (.name_separator, rest)
    else if c = 0x2C then (.value_separator, rest)
    else if c = 0x74 then scan_literal .literal_true [0x72, 0x75, 0x65] rest
    else if c = 0x66 then scan_literal .literal_false [0x61, 0x6C, 0x73, 0x65] rest
    else if c = 0x6E then scan_literal .literal_null [0x75, 0x6C, 0x6C] rest
    else if c = 0x22 then scan_string rest
    else if c = 0x2D ∨ IsDigit c then scan_number strtod c rest
    else if c = 0 then (.end_of_input, rest)
    else (.parse_error "invalid literal", rest)

/-- `scan`, but for the byte order mark. -/
def scan (strtod : List UInt8 → Option ℚ) (rest : List UInt8) : Token × List UInt8 :=
  scan_token strtod (skip_whitespace rest)

theorem scan_literal_suffix (return_type : Token) (literal_text rest : List UInt8) :
    (scan_literal return_type literal_text rest).2 <:+ rest := by
  induction literal_text generalizing rest with
  | nil => exact List.suffix_rfl
  | cons x literal_text ih =>
    cases rest with
    | nil => exact List.suffix_rfl
    | cons c rest =>
      rw [scan_literal]
      split
      · exact (ih rest).trans (List.suffix_cons c rest)
      · exact List.suffix_cons c rest

theorem skip_whitespace_suffix (rest : List UInt8) : skip_whitespace rest <:+ rest := by
  induction rest with
  | nil => exact List.suffix_rfl
  | cons c rest ih =>
    rw [skip_whitespace]
    split
    · exact ih.trans (List.suffix_cons c rest)
    · exact List.suffix_rfl

/-- A token is a byte at least. -/
theorem scan_token_suffix (strtod : List UInt8 → Option ℚ) (c : UInt8) (rest : List UInt8) :
    (scan_token strtod (c :: rest)).2 <:+ rest := by
  rw [scan_token]
  repeat'
    refine iteInduction (motive := fun x : Token × List UInt8 => x.2 <:+ rest)
      (fun _ => ?_) fun _ => ?_
  all_goals first
    | exact List.suffix_rfl
    | exact scan_literal_suffix _ _ _
    | exact scan_string_suffix rest
    | (apply scan_number_suffix; assumption)

/-- **Every token but the end of the input is taken from it.** -/
theorem scan_shorter (strtod : List UInt8 → Option ℚ) (rest : List UInt8) :
    (scan strtod rest).2.length < rest.length ∨ scan strtod rest = (.end_of_input, []) := by
  have hle := (skip_whitespace_suffix rest).length_le
  unfold scan
  cases h : skip_whitespace rest with
  | nil => exact .inr rfl
  | cons c rest' =>
    have hlt := (scan_token_suffix strtod c rest').length_le
    rw [h, List.length_cons] at hle
    exact .inl (by omega)

/-- `skip_bom`. -/
def skip_bom : List UInt8 → Bool × List UInt8
  | [] => (true, [])
  | c :: rest =>
    if c = 0xEF then
      match rest with
      | [] => (false, [])
      | c :: rest =>
        if c = 0xBB then
          match rest with
          | [] => (false, [])
          | c :: rest => (c = 0xBF, rest)
        else (false, rest)
    else (true, c :: rest)

/-- The first `scan`, which skips the byte order mark. -/
def scan_first (strtod : List UInt8 → Option ℚ) (rest : List UInt8) : Token × List UInt8 :=
  match skip_bom rest with
  | (true, rest) => scan strtod rest
  | (false, rest) => (.parse_error "invalid BOM; must be 0xEF 0xBB 0xBF if given", rest)

end PickUpLight.Library
