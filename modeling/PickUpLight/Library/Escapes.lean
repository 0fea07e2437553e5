import PickUpLight.Library.Serializer
import PickUpLight.Theory.Utf8

/-!
# Strings are written as they should be

The table of `decode` is a reader of UTF-8: its states wait for the bytes that the reader waits for
(`decode_reads`). So `dump_escaped` goes through a string character by character, writes every
character as `escapeChar` has it, and stops at the first byte that no text goes on with; its buffer
is never written past its end (`dump_bytes_spec`).
-/

namespace PickUpLight.Library

open Control Theory Theory.Utf8

/-! ### The table -/

/-- The ranges of the bytes a state waits for; the state that rejects waits for none. -/
def awaits : ℕ → Option (List Range)
  | 0 => some []
  | 2 => some [tail]
  | 3 => some [tail, tail]
  | 4 => some [⟨0xA0, 0xBF⟩, tail]
  | 5 => some [⟨0x80, 0x9F⟩, tail]
  | 6 => some [⟨0x90, 0xBF⟩, tail, tail]
  | 7 => some [tail, tail, tail]
  | 8 => some [⟨0x80, 0x8F⟩, tail, tail]
  | _ => none

/-- What is waited for after a byte. -/
def after (b : UInt8) : List Range → Option (List Range)
  | [] => follow b
  | r :: rs => if r.Has b then some rs else none

/-- A byte of each of the types. -/
def specimen (type : ℕ) : UInt8 :=
  [0x00, 0x80, 0xC2, 0xE1, 0xED, 0xF4, 0xF1, 0xA0, 0xC0, 0x90, 0xE0, 0xF0].getD type 0

/-- Bytes of one type are alike. -/
theorem follow_specimen : ∀ n < 256, follow (UInt8.ofNat n) = follow (specimen (utf8d n)) ∧
      utf8d n < 12 := by
  decide +kernel

theorem has_specimen :
    ∀ n < 256, ∀ r ∈ [tail, ⟨0xA0, 0xBF⟩, ⟨0x80, 0x9F⟩, ⟨0x90, 0xBF⟩, ⟨0x80, 0x8F⟩],
    (r.Has (UInt8.ofNat n) ↔ r.Has (specimen (utf8d n))) := by
  decide +kernel

/-- What every state goes to with every type. -/
theorem utf8d_states : ∀ type < 12, ∀ s ∈ [0, 2, 3, 4, 5, 6, 7, 8],
    awaits (utf8d (256 + s * 16 + type)) = (awaits s).bind (after (specimen type)) ∧
      utf8d (256 + s * 16 + type) < 9 := by
  decide +kernel

/-- What a first byte says of the code. -/
theorem decode_lead : ∀ n < 256,
    (follow (UInt8.ofNat n)).map (fun rs => lead (UInt8.ofNat n) rs.length) =
      (follow (UInt8.ofNat n)).map fun _ => (0xFF >>> utf8d n) &&& n := by
  decide +kernel

variable {s v : ℕ} {b : UInt8} {r : Range} {rs rs' : List Range}

theorem mem_of_awaits (hs : awaits s = some rs) : s ∈ [0, 2, 3, 4, 5, 6, 7, 8] := by
  unfold awaits at hs
  split at hs <;> first | decide | cases hs

/-- The first range that any state waits for. -/
theorem head_of_awaits (hs : awaits s = some (r :: rs)) :
    r ∈ [tail, ⟨0xA0, 0xBF⟩, ⟨0x80, 0x9F⟩, ⟨0x90, 0xBF⟩, ⟨0x80, 0x8F⟩] := by
  unfold awaits at hs
  split at hs <;> cases hs <;> decide

theorem after_specimen (hs : awaits s = some rs) (b : UInt8) :
    after (specimen (utf8d b.toNat)) rs = after b rs := by
  have hb : UInt8.ofNat b.toNat = b := UInt8.ofNat_toNat
  cases rs with
  | nil =>
    have hfollow := (follow_specimen b.toNat b.toNat_lt).1
    rw [hb] at hfollow
    exact hfollow.symm
  | cons r rs =>
    have hhas := has_specimen b.toNat b.toNat_lt r (head_of_awaits hs)
    rw [hb] at hhas
    simp only [after, hhas]

/-- **The states of the table wait for what the reader waits for.** -/
theorem awaits_decode (hs : awaits s = some rs) (v : ℕ) (b : UInt8) :
    awaits (decode s v b).1 = after b rs ∧ (decode s v b).1 < 9 := by
  have htype := (follow_specimen b.toNat b.toNat_lt).2
  obtain ⟨hstate, hlt⟩ := utf8d_states _ htype s (mem_of_awaits hs)
  refine ⟨?_, hlt⟩
  rw [hs, Option.bind_some, after_specimen hs] at hstate
  exact hstate

/-- A state that waits for nothing is the one that accepts, and one that does not wait rejects. -/
theorem state_of_awaits_nil (hs : awaits s = some []) : s = UTF8_ACCEPT := by
  unfold awaits at hs
  split at hs <;> first | rfl | cases hs

theorem state_of_awaits_none : ∀ s < 9, awaits s = none → s = UTF8_REJECT := by decide

theorem ne_of_awaits_cons (hs : awaits s = some (r :: rs)) : s ≠ UTF8_ACCEPT ∧ s ≠ UTF8_REJECT := by
  constructor
  · rintro rfl
    cases hs
  · rintro rfl
    cases hs

/-- There is room for the code of a character until its last byte. -/
theorem codepoint_next (hv : v < 2 ^ 26) (hs : s ≠ UTF8_ACCEPT) (b : UInt8) :
    (decode s v b).2 = v * 64 + b.toNat % 64 := by
  change (if s ≠ UTF8_ACCEPT then (b.toNat &&& 0x3F) ||| (v <<< 6) % 2 ^ 32 else _) = _
  have hshift : v <<< 6 = v * 64 := Nat.shiftLeft_eq v 6
  have hlow : b.toNat &&& 0x3F = b.toNat % 64 := Nat.and_two_pow_sub_one_eq_mod b.toNat 6
  have hfits : v <<< 6 < 2 ^ 32 := by omega
  rw [if_pos hs, hlow, Nat.mod_eq_of_lt hfits, Nat.or_comm,
    ← Nat.shiftLeft_add_eq_or_of_lt (Nat.mod_lt _ (by decide)), hshift]

theorem codepoint_first (h : follow b = some rs) (v : ℕ) :
    (decode UTF8_ACCEPT v b).2 = lead b rs.length := by
  have hlead := decode_lead b.toNat b.toNat_lt
  rw [UInt8.ofNat_toNat, h] at hlead
  exact (Option.some.inj hlead).symm

/-- **`decode` is the reader.** -/
theorem decode_reads (hs : awaits s = some rs) (hv : s ≠ UTF8_ACCEPT → v < 2 ^ 26) (b : UInt8) :
    (reader ⟨rs, v⟩ b = none ∧ (decode s v b).1 = UTF8_REJECT) ∨
      ∃ rs', reader ⟨rs, v⟩ b = some ⟨rs', (decode s v b).2⟩ ∧
      awaits (decode s v b).1 = some rs' := by
  obtain ⟨hawaits, hlt⟩ := awaits_decode hs v b
  cases rs with
  | nil =>
    have hacc := state_of_awaits_nil hs
    subst hacc
    cases hfollow : follow b with
    | none =>
      rw [after, hfollow] at hawaits
      exact .inl
        ⟨by simp only [reader, hfollow, Option.map_none], state_of_awaits_none _ hlt hawaits⟩
    | some rs' =>
      rw [after, hfollow] at hawaits
      exact .inr ⟨rs', by rw [reader_first hfollow, codepoint_first hfollow], hawaits⟩
  | cons r rs =>
    by_cases hb : r.Has b
    · rw [after, if_pos hb] at hawaits
      obtain ⟨hs, -⟩ := ne_of_awaits_cons hs
      exact .inr ⟨rs, by rw [reader_next hb, codepoint_next (hv hs) hs], hawaits⟩
    · rw [after, if_neg hb] at hawaits
      exact .inl ⟨by simp only [reader, if_neg hb], state_of_awaits_none _ hlt hawaits⟩

/-! ### The loop -/

variable {e : Escaping} {us pre : List UInt8}

/-- The bytes of a character that is not complete. -/
structure Begun (e : Escaping) (us : List UInt8) : Prop where
  intro ::
  parts : ∃ b done r rs taken, us = b :: taken ∧ follow b = some (done ++ r :: rs) ∧
    List.Forall₂ Range.Has done taken ∧ awaits e.state = some (r :: rs) ∧
    e.codepoint = codeOf (lead b (done ++ r :: rs).length) taken

/-- What has been written is what has been read, character by character, and the bytes of the
character that is not complete. -/
def Escaped (pre : List UInt8) (e : Escaping) : Prop :=
  ∃ cs us, pre = encode cs ++ us ∧ e.output ++ e.string_buffer = cs.flatMap Json.escapeChar ++ us ∧
    e.string_buffer.length ≤ 499 + us.length ∧ (us = [] ∧ e.state = UTF8_ACCEPT ∨ Begun e us)

theorem put_eq {written : List UInt8} {beyond : ℕ}
    (h : e.string_buffer.length + written.length + beyond ≤ 512) :
    e.put written beyond = .ok { e with string_buffer := e.string_buffer ++ written } := if_pos h

/-- A character of one byte. -/
theorem escape_ascii_table :
    ∀ n < 0x80, (escape n (UInt8.ofNat n)).1 = Json.escapeChar (Char.ofNat n) ∧
    (escape n (UInt8.ofNat n)).1.length + (escape n (UInt8.ofNat n)).2 ≤ 7 := by
  decide +kernel

/-- A character of more bytes than one; all but the last have been written. -/
theorem escape_last {n : ℕ} (hn : 0x80 ≤ n) (b : UInt8) : escape n b = ([b], 0) := by
  unfold escape
  split
  all_goals first | omega | skip
  exact if_neg (by omega)

theorem escapeChar_eq {c : Char} (hc : 0x80 ≤ c.toNat) :
    Json.escapeChar c = String.utf8EncodeChar c := by
  unfold Json.escapeChar
  split
  all_goals first | omega | skip
  exact if_neg (by omega)

theorem flush_written (e : Escaping) :
    e.flush.output ++ e.flush.string_buffer = e.output ++ e.string_buffer := by
  unfold Escaping.flush
  split_ifs
  · exact List.append_nil _
  · rfl

theorem flush_length {e : Escaping} (h : e.string_buffer.length ≤ 512) :
    e.flush.string_buffer.length ≤ 499 := by
  unfold Escaping.flush string_buffer_size
  split_ifs
  · exact Nat.zero_le _
  · omega

theorem flush_state (e : Escaping) : e.flush.state = e.state := by
  unfold Escaping.flush
  split_ifs <;> rfl

/-- A character that is not complete has a code that is not, and three bytes at most. -/
theorem Begun.bounds (h : Begun e us) : e.codepoint < 2 ^ 26 ∧ us.length ≤ 3 := by
  obtain ⟨b, done, r, rs, taken, rfl, hb, htaken, -, hcode⟩ := h.parts
  have hlength := htaken.length_eq
  have hlt := codeOf_lt (lead b (done ++ r :: rs).length) taken
  have hb256 := b.toNat_lt
  have hlead : ∀ k, lead b k ≤ b.toNat := by
    intro k
    unfold lead
    split <;> omega
  have hdone : done.length ≤ 2 := by
    have hle : (done ++ r :: rs).length ≤ 3 := by
      rcases follow_some hb with ⟨-, h⟩ | ⟨-, -, h⟩ | ⟨-, -, h⟩ | ⟨-, -, h⟩ <;> simp [h]
    rw [List.length_append, List.length_cons] at hle
    omega
  constructor
  · rw [hcode]
    calc codeOf _ taken < (lead b (done ++ r :: rs).length + 1) * 64 ^ taken.length := hlt
      _ ≤ 256 * 64 ^ 2 := Nat.mul_le_mul (by have := hlead (done ++ r :: rs).length; omega)
          (Nat.pow_le_pow_right (by decide) (by omega))
      _ ≤ 2 ^ 26 := by decide
  · rw [List.length_cons]
    omega

/-- The reader reads what has been read. -/
theorem Escaped.exec (h : Escaped pre e) : ∃ rs v, awaits e.state = some rs ∧
    (e.state ≠ UTF8_ACCEPT → e.codepoint = v ∧ v < 2 ^ 26) ∧
      reader.exec ⟨[], 0⟩ pre = some ⟨rs, v⟩ := by
  obtain ⟨cs, us, rfl, -, -, hus⟩ := h
  obtain ⟨w, hw⟩ := exec_encode cs 0
  rcases hus with ⟨rfl, hstate⟩ | hbegun
  · exact ⟨[], w, by rw [hstate]; rfl, fun hne => absurd hstate hne, by rw [List.append_nil, hw]⟩
  · have hcode := hbegun.bounds.1
    obtain ⟨b, done, r, rs, taken, rfl, hb, htaken, hawaits, hcodepoint⟩ := hbegun.parts
    have hread := exec_owed_append htaken (r :: rs) (lead b (done ++ r :: rs).length) []
    rw [List.append_nil] at hread
    refine ⟨r :: rs, e.codepoint, hawaits, fun _ => ⟨rfl, hcode⟩, ?_⟩
    rw [Machine.exec_append, hw, Option.bind_some, Machine.exec_cons, reader_first hb,
      Option.bind_some, hread, hcodepoint, Machine.exec_nil]

/-- A round that completes a character. -/
theorem dump_byte_complete {cs : List Char} {c : Char}
    (hwritten : e.output ++ e.string_buffer = cs.flatMap Json.escapeChar ++ us)
    (hlen : e.string_buffer.length ≤ 499 + us.length) (hus : us.length ≤ 3)
    (hchar : String.utf8EncodeChar c = us ++ [b])
    (hcode : c.toNat = (decode e.state e.codepoint b).2)
    (hstate : (decode e.state e.codepoint b).1 = UTF8_ACCEPT) (i : ℕ) :
    ∃ e', dump_byte i b e = .ok e' ∧ Escaped (encode (cs ++ [c])) e' := by
  have hround : ∃ written beyond, escape c.toNat b = (written, beyond) ∧
    us ++ written = Json.escapeChar c ∧
      e.string_buffer.length + written.length + beyond ≤ 512 := by
    by_cases hascii : c.toNat < 0x80
    · rw [utf8EncodeChar_eq, units, if_pos (by omega)] at hchar
      have hnil : us = [] :=
        List.length_eq_zero_iff.mp (by have := congrArg List.length hchar; simpa using this)
      subst hnil
      obtain rfl := (List.cons.inj hchar).1
      obtain ⟨hescape, hle⟩ := escape_ascii_table c.toNat hascii
      rw [Char.ofNat_toNat] at hescape
      rw [List.length_nil] at hlen
      exact ⟨(escape c.toNat (UInt8.ofNat c.toNat)).1, (escape c.toNat (UInt8.ofNat c.toNat)).2,
        rfl, hescape, by omega⟩
    · refine ⟨[b], 0, escape_last (by omega) b, by rw [escapeChar_eq (by omega), hchar], ?_⟩
      rw [List.length_singleton]
      omega
  obtain ⟨written, beyond, hescape, hus', hfits⟩ := hround
  refine ⟨Escaping.flush ⟨c.toNat, UTF8_ACCEPT, e.string_buffer ++ written, e.output⟩, ?_, ?_⟩
  · simp only [dump_byte]
    rw [hstate, if_pos rfl, ← hcode, hescape]
    exact congrArg (Except.map Escaping.flush)
      (put_eq (e := ⟨c.toNat, UTF8_ACCEPT, e.string_buffer, e.output⟩) hfits)
  · refine ⟨cs ++ [c], [], by rw [List.append_nil], ?_, ?_, .inl ⟨rfl, flush_state _⟩⟩
    · rw [flush_written]
      change e.output ++ (e.string_buffer ++ written) = _
      rw [← List.append_assoc, hwritten, List.append_assoc, hus', List.flatMap_append,
        List.append_nil, List.flatMap_singleton]
    · refine flush_length ?_
      change (e.string_buffer ++ written).length ≤ 512
      rw [List.length_append]
      omega

/-- A round that goes on with a character. -/
theorem dump_byte_begun {cs : List Char}
    (hwritten : e.output ++ e.string_buffer = cs.flatMap Json.escapeChar ++ us)
    (hlen : e.string_buffer.length ≤ 499 + us.length) (hus : us.length ≤ 3)
    (hawaits : awaits (decode e.state e.codepoint b).1 = some (r :: rs))
    (hbegun : ∀ e', e'.state = (decode e.state e.codepoint b).1 →
      e'.codepoint = (decode e.state e.codepoint b).2 →
      Begun e' (us ++ [b])) (i : ℕ) :
    ∃ e', dump_byte i b e = .ok e' ∧ Escaped (encode cs ++ us ++ [b]) e' := by
  obtain ⟨haccept, hreject⟩ := ne_of_awaits_cons hawaits
  have hfits : e.string_buffer.length + [b].length + 0 ≤ 512 := by
    rw [List.length_singleton]
    omega
  refine ⟨⟨(decode e.state e.codepoint b).2, (decode e.state e.codepoint b).1, e.string_buffer ++
    [b], e.output⟩, ?_, ?_⟩
  · simp only [dump_byte]
    rw [if_neg haccept, if_neg hreject]
    exact put_eq hfits
  · refine ⟨cs, us ++ [b], List.append_assoc _ _ _, ?_, ?_, .inr (hbegun _ rfl rfl)⟩
    · change e.output ++ (e.string_buffer ++ [b]) = _
      rw [← List.append_assoc, hwritten, List.append_assoc]
    · change (e.string_buffer ++ [b]).length ≤ _
      rw [List.length_append, List.length_append, List.length_singleton]
      omega

/-- **One round**: a byte that the reader does not go on with is an error, and nothing else is. -/
theorem dump_byte_spec (h : Escaped pre e) (i : ℕ) (b : UInt8) :
    (dump_byte i b e = .error (.invalid i b) ∧ reader.exec ⟨[], 0⟩ (pre ++ [b]) = none) ∨
      ∃ e', dump_byte i b e = .ok e' ∧ Escaped (pre ++ [b]) e' := by
  obtain ⟨rs, v, hawaits, hcodepoint, hexec⟩ := h.exec
  have hreader : reader ⟨rs, v⟩ b = reader ⟨rs, e.codepoint⟩ b := by
    by_cases hacc : e.state = UTF8_ACCEPT
    · rw [hacc] at hawaits
      cases hawaits
      rfl
    · rw [(hcodepoint hacc).1]
  have hbound : e.state ≠ UTF8_ACCEPT → e.codepoint < 2 ^ 26 := by
    intro hne
    rw [(hcodepoint hne).1]
    exact (hcodepoint hne).2
  rcases decode_reads hawaits hbound b with ⟨hnone, hreject⟩ | ⟨rs', hsome, hnext⟩
  · refine .inl ⟨?_, ?_⟩
    · simp only [dump_byte]
      rw [hreject]
      rfl
    · rw [Machine.exec_append, hexec, Option.bind_some, Machine.exec_singleton, hreader, hnone]
  · right
    obtain ⟨cs, us, rfl, hwritten, hlen, hus⟩ := h
    rcases hus with ⟨rfl, hstate⟩ | hbegun
    · have hnil : rs = [] := by
        rw [hstate] at hawaits
        exact (Option.some.inj hawaits).symm
      subst hnil
      obtain ⟨rs', hb, heq⟩ := reader_first_iff.mp hsome
      obtain ⟨rfl, hcode⟩ := Partial.mk.inj heq
      rw [List.append_nil]
      cases rs' with
      | nil =>
        obtain ⟨c, hchar, hc⟩ := read_char hb .nil
        have hround := dump_byte_complete hwritten hlen (Nat.zero_le 3) hchar (hc.trans hcode.symm)
          (state_of_awaits_nil hnext) i
        rwa [encode_append, encode_cons, encode_nil, List.append_nil, hchar] at hround
      | cons r rs' =>
        have hround := dump_byte_begun hwritten hlen (Nat.zero_le 3) hnext
          (fun e' hstate' hcode' => ⟨b, [], r, rs', [], rfl, hb, .nil, by rw [hstate', hnext], by
            rw [hcode', hcode]
            rfl⟩) i
        rwa [List.append_nil] at hround
    · obtain ⟨b₀, done, r, owing, taken, hus, hb₀, htaken, hawaits', hcode'⟩ := hbegun.parts
      obtain rfl := Option.some.inj (hawaits.symm.trans hawaits')
      obtain ⟨hb, heq⟩ := reader_next_iff.mp hsome
      obtain ⟨rfl, hcode⟩ := Partial.mk.inj heq
      have htaken' : List.Forall₂ Range.Has (done ++ [r]) (taken ++ [b]) :=
        List.rel_append htaken (.cons hb .nil)
      have hnextcode : (decode e.state e.codepoint b).2 =
          codeOf (lead b₀ (done ++ r :: rs').length) (taken ++ [b]) := by
        rw [codeOf_concat, ← hcode', hcode]
      subst hus
      cases rs' with
      | nil =>
        obtain ⟨c, hchar, hc⟩ := read_char hb₀ htaken'
        have hround :=
          dump_byte_complete hwritten hlen hbegun.bounds.2 hchar (hc.trans hnextcode.symm)
          (state_of_awaits_nil hnext) i
        rwa [encode_append, encode_cons, encode_nil, List.append_nil, hchar, ← List.cons_append,
          ← List.append_assoc] at hround
      | cons r' rs' =>
        refine dump_byte_begun hwritten hlen hbegun.bounds.2 hnext
          (fun e' hstate' hcodepoint' => ?_) i
        refine ⟨b₀, done ++ [r], r', rs', taken ++ [b], rfl, ?_,
          htaken', by rw [hstate', hnext], ?_⟩
        · rw [List.append_assoc, List.singleton_append, hb₀]
        · rw [hcodepoint', hnextcode, List.append_assoc, List.singleton_append]

/-- **The loop**: it gets to the end of the string, or to the first byte that no text goes on
with. -/
theorem dump_bytes_spec (h : Escaped pre e) (i : ℕ) (s : List UInt8) :
    (∃ s₁ b s₂, s = s₁ ++ b :: s₂ ∧ dump_bytes i s e = .error (.invalid (i + s₁.length) b) ∧
        (reader.exec ⟨[], 0⟩ (pre ++ s₁)).isSome ∧ reader.exec ⟨[], 0⟩ (pre ++ s₁ ++ [b]) = none) ∨
      ∃ e', dump_bytes i s e = .ok e' ∧ Escaped (pre ++ s) e' := by
  induction s generalizing i pre e with
  | nil => exact .inr ⟨e, rfl, by rwa [List.append_nil]⟩
  | cons b s ih =>
    rw [dump_bytes]
    rcases dump_byte_spec h i b with ⟨herror, hnone⟩ | ⟨e', hok, h'⟩
    · obtain ⟨rs, v, -, -, hexec⟩ := h.exec
      refine .inl ⟨[], b, s, rfl, by rw [herror]; rfl, ?_, ?_⟩
      · rw [List.append_nil, hexec]
        rfl
      · rwa [List.append_nil]
    · rw [hok]
      change (∃ s₁ b' s₂, _ ∧ dump_bytes (i + 1) s e' = _ ∧ _) ∨
        ∃ e'', dump_bytes (i + 1) s e' = _ ∧ _
      rcases ih h' (i + 1) with ⟨s₁, b', s₂, rfl, herror, hsome, hnone⟩ | ⟨e'', hok', h''⟩
      · refine .inl ⟨b :: s₁, b', s₂, rfl, ?_, ?_, ?_⟩
        · rw [herror, List.length_cons, Nat.add_assoc, Nat.add_comm 1]
        · rwa [List.append_assoc, List.singleton_append] at hsome
        · rwa [List.append_assoc pre [b], List.singleton_append] at hnone
      · exact .inr ⟨e'', hok', by rwa [List.append_assoc, List.singleton_append] at h''⟩

/-- What is wrong with a string that is not written. -/
def Wrong (s : List UInt8) : DumpError → Prop
  | .invalid i b => s[i]? = some b ∧ IsOpening (s.take i) ∧ ¬ IsOpening (s.take (i + 1))
  | .incomplete b => IsOpening s ∧ ¬ IsText s ∧ s.getLast? = some b
  | .overrun => False

/-- The three ways a string may be: a text, or an opening of one, or one that has a first wrong
byte. -/
theorem dump_escaped_cases (s : List UInt8) :
    (∃ cs, s = encode cs ∧ dump_escaped s = .ok (cs.flatMap Json.escapeChar)) ∨
      ∃ err, ¬ IsText s ∧ Wrong s err ∧ dump_escaped s = .error err := by
  have hstart : Escaped [] ⟨0, UTF8_ACCEPT, [], []⟩ :=
    ⟨[], [], rfl, rfl, Nat.zero_le _, .inl ⟨rfl, rfl⟩⟩
  unfold dump_escaped
  rcases dump_bytes_spec hstart 0 s with ⟨s₁, b, s₂, rfl, herror, hsome, hnone⟩ | ⟨e, hok, h⟩
  · rw [List.nil_append] at hsome hnone
    have hopening : ¬ IsOpening (s₁ ++ [b]) := by
      rw [opening_iff 0, hnone]
      exact Bool.false_ne_true
    refine .inr ⟨.invalid s₁.length b, ?_, ⟨?_, ?_, ?_⟩, by rw [herror, Nat.zero_add]; rfl⟩
    · intro htext
      refine hopening ⟨s₂, ?_⟩
      rwa [List.append_assoc, List.singleton_append]
    · simp
    · rw [List.take_left]
      exact (opening_iff 0).mpr hsome
    · have htake : (s₁ ++ b :: s₂).take (s₁.length + 1) = s₁ ++ [b] := by
        rw [List.append_cons]
        exact List.take_left' (by rw [List.length_append, List.length_singleton])
      rwa [htake]
  · rw [List.nil_append] at h
    rw [hok]
    obtain ⟨rs, v, hawaits, -, hexec⟩ := h.exec
    obtain ⟨cs, us, hs, hwritten, -, ⟨rfl, hstate⟩ | hbegun⟩ := h
    · rw [List.append_nil] at hs hwritten
      refine .inl ⟨cs, hs, ?_⟩
      change (if e.state = UTF8_ACCEPT then _ else _) = _
      rw [if_pos hstate, hwritten]
    · obtain ⟨b, done, r, owing, taken, rfl, -, -, hawaits', -⟩ := hbegun.parts
      have hstate := (ne_of_awaits_cons hawaits').1
      obtain rfl := Option.some.inj (hawaits.symm.trans hawaits')
      have hno : ¬ IsText s := by
        intro htext
        obtain ⟨w, hw⟩ := (text_iff 0).mp htext
        rw [hexec] at hw
        cases hw
      refine .inr ⟨.incomplete (s.getLastD 0), hno, ⟨?_, hno, ?_⟩, ?_⟩
      · rw [opening_iff 0, hexec]
        rfl
      · cases hlast : s.getLast? with
        | none =>
          rw [List.getLast?_eq_none_iff.mp hlast] at hs
          simp at hs
        | some x => rw [List.getLastD_eq_getLast?, hlast, Option.getD_some]
      · change (if e.state = UTF8_ACCEPT then _ else _) = _
        rw [if_neg hstate]

/-- Only one thing is wrong with a string. -/
theorem Wrong.unique {s : List UInt8} {err err' : DumpError} (h : Wrong s err) (h' : Wrong s err') :
    err = err' := by
  have hfirst : ∀ {i j}, ¬ IsOpening (s.take (i + 1)) → IsOpening (s.take j) → j ≤ i := by
    intro i j hi hj
    by_contra hlt
    exact hi (hj.shorter (List.take_prefix_take_left (by omega)))
  have hwhole : ∀ {i}, IsOpening s → IsOpening (s.take i) :=
    fun h => h.shorter (List.take_prefix _ s)
  cases err with
  | invalid i b =>
    obtain ⟨hb, hi, hi'⟩ := h
    cases err' with
    | invalid j b' =>
      obtain ⟨hb', hj, hj'⟩ := h'
      have hij : i = j := Nat.le_antisymm (hfirst hj' hi) (hfirst hi' hj)
      subst hij
      rw [Option.some.inj (hb.symm.trans hb')]
    | incomplete b' => exact absurd (hwhole h'.1) hi'
    | overrun => exact h'.elim
  | incomplete b =>
    obtain ⟨hs, -, hb⟩ := h
    cases err' with
    | invalid j b' => exact absurd (hwhole hs) h'.2.2
    | incomplete b' => rw [Option.some.inj (hb.symm.trans h'.2.2)]
    | overrun => exact h'.elim
  | overrun => exact h.elim

/-- There is nothing wrong with a text. -/
theorem Wrong.not_text {s : List UInt8} {err : DumpError} (h : Wrong s err) : ¬ IsText s := by
  intro htext
  cases err with
  | invalid i b => exact h.2.2 (htext.opening.shorter (List.take_prefix _ s))
  | incomplete b => exact h.2.1 htext
  | overrun => exact h

/-- **Strings are written as they should be**: `dump_escaped` writes the escapes of the characters
of a text, and writes no other strings. -/
theorem dump_escaped_writes (s out : List UInt8) :
    dump_escaped s = .ok out ↔ ∃ cs, s = encode cs ∧ out = cs.flatMap Json.escapeChar := by
  rcases dump_escaped_cases s with ⟨cs, rfl, hok⟩ | ⟨err, hno, -, herror⟩
  · rw [hok]
    constructor
    · intro h
      exact ⟨cs, rfl, (Except.ok.inj h).symm⟩
    · rintro ⟨cs', hcs', rfl⟩
      rw [encode_injective hcs']
  · rw [herror]
    constructor
    · intro h
      cases h
    · rintro ⟨cs, hs, -⟩
      exact absurd ⟨cs, hs⟩ hno

/-- **The exception names the first wrong byte.** -/
theorem dump_escaped_throws (s : List UInt8) (err : DumpError) : dump_escaped s = .error err ↔
      Wrong s err := by
  rcases dump_escaped_cases s with ⟨cs, rfl, hok⟩ | ⟨err', hno, hwrong, herror⟩
  · rw [hok]
    constructor
    · intro h
      cases h
    · intro h
      exact absurd ⟨cs, rfl⟩ h.not_text
  · rw [herror]
    constructor
    · intro h
      cases h
      exact hwrong
    · intro h
      rw [hwrong.unique h]

end PickUpLight.Library
