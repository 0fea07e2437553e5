import PickUpLight.Control.JsonText
import PickUpLight.Theory.Loop

/-!
# The serializer of the JSON library

`serializer.hpp`, as `dump` is called without arguments: no indentation, characters are not made
ASCII, and bytes that are not UTF-8 are an exception. Strings and integers are written
through buffers of fixed sizes. The source does not check that it stays inside of them; here
to write past the end of one is an error of its own. How numbers that are not integers are
written is a parameter, `dump_float`.
-/

namespace PickUpLight.Library

open Control Theory

/-- What writing a value may end with. -/
inductive DumpError where
  /-- `type_error.316`: an invalid UTF-8 byte, and its index. -/
  | invalid (index : ℕ) (byte : UInt8)
  /-- `type_error.316`: an incomplete UTF-8 string, and its last byte. -/
  | incomplete (byte : UInt8)
  /-- Something is written past the end of a buffer. -/
  | overrun
  deriving DecidableEq, Repr

/-! ### Strings -/

def UTF8_ACCEPT : ℕ := 0

def UTF8_REJECT : ℕ := 1

/-- The table: the types of the bytes, and then what every state goes to with every type. -/
def utf8d (i : ℕ) : ℕ :=
  if i < 0x80 then 0 -- 00..7F
  else if i < 0x90 then 1 else if i < 0xA0 then 9 -- 80..9F
  else if i < 0xC0 then 7 -- A0..BF
  else if i < 0xC2 then 8 else if i < 0xE0 then 2 -- C0..DF
  else if i < 0x100 then
    [0xA, 0x3, 0x3, 0x3, 0x3, 0x3, 0x3, 0x3, 0x3, 0x3, 0x3, 0x3, 0x3, 0x4, 0x3, 0x3, -- E0..EF
      0xB, 0x6, 0x6, 0x6, 0x5, 0x8, 0x8, 0x8, 0x8, 0x8, 0x8, 0x8, 0x8, 0x8, 0x8, 0x8] -- F0..FF
        |>.getD (i - 0xE0) 0
  else
    [0x0, 0x1, 0x2, 0x3, 0x5, 0x8, 0x7, 0x1, 0x1, 0x1, 0x4, 0x6, 0x1, 0x1, 0x1, 0x1, -- s0..s0
      1, 1, 1, 1, 1, 1, 1, 1, 1, 1, 1, 1, 1, 1, 1, 1, 1, 0, 1, 1, 1, 1, 1, 0, 1, 0, 1, 1, 1, 1, 1, 1, -- s1..s2
      1, 2, 1, 1, 1, 1, 1, 2, 1, 2, 1, 1, 1, 1, 1, 1, 1, 1, 1, 1, 1, 1, 1, 2, 1, 1, 1, 1, 1, 1, 1, 1, -- s3..s4
      1, 2, 1, 1, 1, 1, 1, 1, 1, 2, 1, 1, 1, 1, 1, 1, 1, 1, 1, 1, 1, 1, 1, 3, 1, 3, 1, 1, 1, 1, 1, 1, -- s5..s6
      1, 3, 1, 1, 1, 1, 1, 3, 1, 3, 1, 1, 1, 1, 1, 1, 1, 3, 1, 1, 1, 1, 1, 1, 1, 1, 1, 1, 1, 1, 1, 1] -- s7..s8
        |>.getD (i - 0x100) 0

/-- `decode`: the next state and code point. -/
def decode (state codep : ℕ) (byte : UInt8) : ℕ × ℕ :=
  let type := utf8d byte.toNat
  (utf8d (256 + state * 16 + type),
    if state ≠ UTF8_ACCEPT then (byte.toNat &&& 0x3F) ||| (codep <<< 6) % 2 ^ 32 else
      (0xFF >>> type) &&& byte.toNat)

/-- The size of `string_buffer`. -/
def string_buffer_size : ℕ := 512

/-- `dump_escaped` in its loop. -/
structure Escaping where
  codepoint : ℕ
  state : ℕ
  /-- The bytes written to `string_buffer`, as many as `bytes` says. -/
  string_buffer : List UInt8
  output : List UInt8
  deriving DecidableEq, Repr

/-- Some bytes are written to the buffer, and so many more after them that do not count. -/
def Escaping.put (written : List UInt8) (beyond : ℕ) (e : Escaping) : Except DumpError Escaping :=
  if e.string_buffer.length + written.length + beyond ≤ string_buffer_size then
    .ok { e with string_buffer := e.string_buffer ++ written }
  else .error .overrun

/-- What is written for a code point that ends with a byte, and how many bytes after it that do not
count: what `snprintf` writes ends with a zero. -/
def escape (codepoint : ℕ) (byte : UInt8) : List UInt8 × ℕ :=
  match codepoint with
  | 0x08 => ([0x5C, 0x62], 0)
  | 0x09 => ([0x5C, 0x74], 0)
  | 0x0A => ([0x5C, 0x6E], 0)
  | 0x0C => ([0x5C, 0x66], 0)
  | 0x0D => ([0x5C, 0x72], 0)
  | 0x22 => ([0x5C, 0x22], 0)
  | 0x5C => ([0x5C, 0x5C], 0)
  | codepoint =>
    if codepoint ≤ 0x1F then
      ([0x5C, 0x75, 0x30, 0x30, Json.hexDigit (codepoint / 16), Json.hexDigit (codepoint % 16)], 1)
    else ([byte], 0)

/-- The buffer is written out when there is not much left of it. -/
def Escaping.flush (e : Escaping) : Escaping :=
  if string_buffer_size - e.string_buffer.length < 13 then
    { e with output := e.output ++ e.string_buffer, string_buffer := [] }
  else e

/-- One round of the loop. -/
def dump_byte (i : ℕ) (byte : UInt8) (e : Escaping) : Except DumpError Escaping :=
  let (state, codepoint) := decode e.state e.codepoint byte
  let e := { e with state := state, codepoint := codepoint }
  if state = UTF8_ACCEPT then (e.put (escape codepoint byte).1 (escape codepoint byte).2).map
    Escaping.flush
  else if state = UTF8_REJECT then .error (.invalid i byte)
  else e.put [byte] 0

/-- The loop, from a byte with an index. -/
def dump_bytes : ℕ → List UInt8 → Escaping → Except DumpError Escaping
  | _, [], e => .ok e
  | i, byte :: s, e => (dump_byte i byte e).bind (dump_bytes (i + 1) s)

/-- `dump_escaped`. -/
def dump_escaped (s : List UInt8) : Except DumpError (List UInt8) :=
  (dump_bytes 0 s ⟨0, UTF8_ACCEPT, [], []⟩).bind fun e =>
    if e.state = UTF8_ACCEPT then .ok (e.output ++ e.string_buffer) else .error
      (.incomplete (s.getLastD 0))

/-! ### Integers -/

/-- One round of `count_digits`. -/
def count_digits_pass : ℕ × ℕ → (ℕ × ℕ) ⊕ ℕ
  | (x, n_digits) =>
    if x < 10 then .inr n_digits
    else if x < 100 then .inr (n_digits + 1)
    else if x < 1000 then .inr (n_digits + 2)
    else if x < 10000 then .inr (n_digits + 3)
    else .inl (x / 10000, n_digits + 4)

theorem count_digits_falls : Falls count_digits_pass Prod.fst := by
  rintro ⟨x, n_digits⟩ t h
  dsimp only [count_digits_pass] at h
  split_ifs at h
  cases h
  exact Nat.div_lt_self (by omega) (by decide)

/-- `count_digits`. -/
def count_digits (x : ℕ) : ℕ := loop count_digits_falls (x, 1)

/-- The digits of a number below a hundred. -/
def digits_to_99 (i : ℕ) : UInt8 × UInt8 :=
  (UInt8.ofNat (0x30 + i / 10), UInt8.ofNat (0x30 + i % 10))

/-- The size of `number_buffer`. -/
def number_buffer_size : ℕ := 64

/-- `dump_integer` in its loop. -/
structure Digits where
  abs_value : ℕ
  /-- How far `buffer_ptr` is from the beginning of the buffer. -/
  buffer_ptr : ℕ
  number_buffer : List UInt8
  deriving DecidableEq, Repr

/-- `*(--buffer_ptr) = c`. -/
def Digits.put (c : UInt8) (d : Digits) : Except DumpError Digits :=
  if 0 < d.buffer_ptr ∧ d.buffer_ptr ≤ d.number_buffer.length then
    .ok { d with
      buffer_ptr := d.buffer_ptr - 1
      number_buffer := d.number_buffer.set (d.buffer_ptr - 1) c }
  else .error .overrun

/-- Two digits. -/
def Digits.put_two (digits_index : ℕ) (d : Digits) : Except DumpError Digits :=
  (d.put (digits_to_99 digits_index).2).bind fun d => d.put (digits_to_99 digits_index).1

/-- One round of the loop of `dump_integer`, and what comes after it. -/
def dump_integer_pass (d : Digits) : Digits ⊕ Except DumpError Digits :=
  if 100 ≤ d.abs_value then
    match { d with abs_value := d.abs_value / 100 }.put_two (d.abs_value % 100) with
    | .ok d => .inl d
    | .error e => .inr (.error e)
  else if 10 ≤ d.abs_value then .inr (d.put_two d.abs_value)
  else .inr (d.put (UInt8.ofNat (0x30 + d.abs_value)))

theorem put_abs_value {c : UInt8} {d d' : Digits} (h : d.put c = .ok d') :
    d'.abs_value = d.abs_value := by
  unfold Digits.put at h
  split_ifs at h
  cases h
  rfl

theorem put_two_abs_value {i : ℕ} {d d' : Digits} (h : d.put_two i = .ok d') :
    d'.abs_value = d.abs_value := by
  unfold Digits.put_two at h
  cases hput : d.put (digits_to_99 i).2 with
  | error e =>
    rw [hput] at h
    cases h
  | ok d₁ =>
    rw [hput] at h
    exact (put_abs_value h).trans (put_abs_value hput)

theorem dump_integer_falls : Falls dump_integer_pass Digits.abs_value := by
  intro d t h
  unfold dump_integer_pass at h
  split_ifs at h
  split at h
  · rename_i hput
    cases h
    rw [put_two_abs_value hput]
    exact Nat.div_lt_self (by omega) (by decide)
  · cases h

/-- `remove_sign`. -/
def remove_sign (x : ℤ) : ℕ := ((-(x + 1)).toNat + 1) % 2 ^ 64

/-- The part of `dump_integer` after the digits have been counted. The sign, if there is one, is in
the buffer. -/
def dump_digits (n_chars abs_value : ℕ) (number_buffer : List UInt8) :
    Except DumpError (List UInt8) :=
  (loop dump_integer_falls ⟨abs_value, n_chars, number_buffer⟩).map fun d =>
    d.number_buffer.take n_chars

/-- `dump_integer`, of a number with 64 bits, with a sign or without one. -/
def dump_integer (x : ℤ) : Except DumpError (List UInt8) :=
  if x = 0 then .ok [0x30]
  else if x < 0 then
    dump_digits (1 + count_digits (remove_sign x)) (remove_sign x)
      (0x2D :: List.replicate (number_buffer_size - 1) 0)
  else dump_digits (count_digits x.toNat) x.toNat (List.replicate number_buffer_size 0)

/-! ### Values -/

/-- All elements, with commas between them. -/
def dump_elements : List (Except DumpError (List UInt8)) → Except DumpError (List UInt8)
  | [] => .ok []
  | [x] => x
  | x :: xs => x.bind fun a => (dump_elements xs).map fun b => a ++ 0x2C :: b

/-- A string between its quotation marks. -/
def dump_string (s : String) : Except DumpError (List UInt8) :=
  (dump_escaped (utf8 s)).map fun a => 0x22 :: (a ++ [0x22])

mutual

/-- **`dump`.** Members are written in the order of their keys, which is the one the map has them
in. -/
def dump (dump_float : ℚ → List UInt8) : Json → Except DumpError (List UInt8)
  | .null => .ok [0x6E, 0x75, 0x6C, 0x6C]
  | .bool true => .ok [0x74, 0x72, 0x75, 0x65]
  | .bool false => .ok [0x66, 0x61, 0x6C, 0x73, 0x65]
  | .int n => dump_integer n
  | .float q => .ok (dump_float q)
  | .str s => dump_string s
  | .arr items => (dump_elements (dump_items dump_float items)).map fun a => 0x5B :: (a ++ [0x5D])
  | .obj members =>
    (dump_elements
    (((dump_members dump_float members).insertionSort fun a b => a.1 ≤ b.1).map Prod.snd)).map
      fun a => 0x7B :: (a ++ [0x7D])

/-- The items of an array. -/
def dump_items (dump_float : ℚ → List UInt8) : List Json → List (Except DumpError (List UInt8))
  | [] => []
  | j :: items => dump dump_float j :: dump_items dump_float items

/-- The members of an object, by their keys. -/
def dump_members (dump_float : ℚ → List UInt8) :
    List (String × Json) → List (String × Except DumpError (List UInt8))
  | [] => []
  | m :: members =>
    (m.1, (dump_string m.1).bind fun a => (dump dump_float m.2).map fun b => a ++ 0x3A :: b) ::
      dump_members dump_float members

end

end PickUpLight.Library
