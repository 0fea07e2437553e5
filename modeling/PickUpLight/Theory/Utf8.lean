import Mathlib.Algebra.Order.Ring.Nat
import Mathlib.Data.List.Forall2
import Mathlib.Data.List.Induction
import PickUpLight.Theory.Machine

/-!
# UTF-8

A text is read byte by byte. A first byte says which bytes may follow it, each of them in a
range, and together they make the code of a character: `reader` is the machine that does it.
What it reads to its end is exactly what characters are written as (`text_iff`), and what it reads
at all is exactly what can go on to be that (`opening_iff`). A decoder is right when it goes
where the reader goes.
-/

namespace PickUpLight.Theory.Utf8

/-- A range of bytes. -/
structure Range where
  /-- The least of them. -/
  low : ℕ
  /-- The greatest. -/
  high : ℕ
  deriving DecidableEq, Repr

/-- A byte in the range. -/
def Range.Has (r : Range) (b : UInt8) : Prop := r.low ≤ b.toNat ∧ b.toNat ≤ r.high

instance (r : Range) (b : UInt8) : Decidable (r.Has b) := inferInstanceAs (Decidable (_ ∧ _))

/-- The bytes that are never first. -/
def tail : Range := ⟨0x80, 0xBF⟩

/-- The ranges of the bytes that follow a first byte; a byte that is never first has none. -/
def follow (b : UInt8) : Option (List Range) :=
  if b.toNat < 0x80 then some []
  else if b.toNat < 0xC2 then none
  else if b.toNat < 0xE0 then some [tail]
  else if b.toNat = 0xE0 then some [⟨0xA0, 0xBF⟩, tail]
  else if b.toNat = 0xED then some [⟨0x80, 0x9F⟩, tail]
  else if b.toNat < 0xF0 then some [tail, tail]
  else if b.toNat = 0xF0 then some [⟨0x90, 0xBF⟩, tail, tail]
  else if b.toNat < 0xF4 then some [tail, tail, tail]
  else if b.toNat = 0xF4 then some [⟨0x80, 0x8F⟩, tail, tail]
  else none

/-- What a first byte says of the code, when so many bytes follow. -/
def lead (b : UInt8) : ℕ → ℕ
  | 0 => b.toNat
  | 1 => b.toNat - 0xC0
  | 2 => b.toNat - 0xE0
  | _ => b.toNat - 0xF0

/-- A character that has been read in part. -/
structure Partial where
  /-- The ranges of the bytes it takes to end it. -/
  owed : List Range
  /-- Its code, as far as it is known. -/
  code : ℕ
  deriving DecidableEq, Repr

/-- **The reader.** -/
def reader : Machine Partial UInt8 := fun s b =>
  match s.owed with
  | [] => (follow b).map fun rs => ⟨rs, lead b rs.length⟩
  | r :: rs => if r.Has b then some ⟨rs, s.code * 64 + b.toNat % 64⟩ else none

/-- The bytes of the character with a code. -/
def units (n : ℕ) : List UInt8 :=
  if n ≤ 0x7F then [UInt8.ofNat n]
  else if n ≤ 0x7FF then [UInt8.ofNat (n / 64 % 32 + 0xC0), UInt8.ofNat (n % 64 + 0x80)]
  else if n ≤ 0xFFFF then
    [UInt8.ofNat (n / 4096 % 16 + 0xE0), UInt8.ofNat (n / 64 % 64 + 0x80),
      UInt8.ofNat (n % 64 + 0x80)]
  else
    [UInt8.ofNat (n / 262144 % 8 + 0xF0), UInt8.ofNat (n / 4096 % 64 + 0x80),
      UInt8.ofNat (n / 64 % 64 + 0x80), UInt8.ofNat (n % 64 + 0x80)]

/-- The bytes of some characters. -/
def encode (cs : List Char) : List UInt8 := cs.flatMap String.utf8EncodeChar

/-- Bytes that characters are written as. -/
def IsText (bytes : List UInt8) : Prop := ∃ cs, bytes = encode cs

/-- Bytes that a text may begin with. -/
def IsOpening (bytes : List UInt8) : Prop := ∃ more, IsText (bytes ++ more)

variable {b : UInt8} {us bytes : List UInt8} {r : Range} {rs : List Range} {s t : Partial}
  {n v w : ℕ}

@[simp] theorem encode_nil : encode [] = [] := rfl

@[simp] theorem encode_cons (c : Char) (cs : List Char) :
    encode (c :: cs) = String.utf8EncodeChar c ++ encode cs := rfl

theorem encode_append (cs ds : List Char) : encode (cs ++ ds) = encode cs ++ encode ds :=
  List.flatMap_append

theorem utf8EncodeChar_eq (c : Char) : String.utf8EncodeChar c = units c.toNat := rfl

theorem reader_first (h : follow b = some rs) : reader ⟨[], v⟩ b = some ⟨rs, lead b rs.length⟩ := by
  simp only [reader, h, Option.map_some]

theorem reader_next (h : r.Has b) : reader ⟨r :: rs, v⟩ b = some ⟨rs, v * 64 + b.toNat % 64⟩ := by
  simp only [reader, if_pos h]

theorem reader_first_iff : reader ⟨[], v⟩ b = some t ↔ ∃ rs, follow b = some rs ∧
      t = ⟨rs, lead b rs.length⟩ := by
  simp only [reader, Option.map_eq_some_iff]
  exact exists_congr fun rs => and_congr_right fun _ => eq_comm

theorem reader_next_iff :
    reader ⟨r :: rs, v⟩ b = some t ↔ r.Has b ∧ t = ⟨rs, v * 64 + b.toNat % 64⟩ := by
  simp only [reader]
  split_ifs with h <;> simp [h, eq_comm]

/-- The code of a character, from the bytes that follow its first one. -/
def codeOf (v : ℕ) (us : List UInt8) : ℕ := us.foldl (fun v b => v * 64 + b.toNat % 64) v

/-- Bytes that are owed, read one after the other. -/
theorem exec_owed_append (h : List.Forall₂ Range.Has rs us) (more : List Range) (v : ℕ)
    (rest : List UInt8) :
    reader.exec ⟨rs ++ more, v⟩ (us ++ rest) = reader.exec ⟨more, codeOf v us⟩ rest := by
  induction h generalizing v with
  | nil => rfl
  | cons hb _ ih =>
    rw [List.cons_append, List.cons_append, Machine.exec_cons, reader_next hb, Option.bind_some, ih]
    rfl

/-- All the bytes a character owes. -/
theorem exec_owed (h : List.Forall₂ Range.Has rs us) (v : ℕ) (rest : List UInt8) :
    reader.exec ⟨rs, v⟩ (us ++ rest) = reader.exec ⟨[], codeOf v us⟩ rest := by
  have hread := exec_owed_append h [] v rest
  rwa [List.append_nil] at hread

@[simp] theorem codeOf_nil (v : ℕ) : codeOf v [] = v := rfl

theorem codeOf_concat (v : ℕ) (us : List UInt8) (b : UInt8) :
    codeOf v (us ++ [b]) = codeOf v us * 64 + b.toNat % 64 := by
  rw [codeOf, List.foldl_append, List.foldl_cons, List.foldl_nil, codeOf]

theorem codeOf_lt (v : ℕ) (us : List UInt8) : codeOf v us < (v + 1) * 64 ^ us.length := by
  induction us generalizing v with
  | nil => rw [codeOf_nil, List.length_nil, Nat.pow_zero, Nat.mul_one]; exact Nat.lt_succ_self v
  | cons b us ih =>
    have hle : v * 64 + b.toNat % 64 + 1 ≤ (v + 1) * 64 := by omega
    calc codeOf v (b :: us) = codeOf (v * 64 + b.toNat % 64) us := rfl
      _ < (v * 64 + b.toNat % 64 + 1) * 64 ^ us.length := ih _
      _ ≤ (v + 1) * 64 * 64 ^ us.length := Nat.mul_le_mul_right _ hle
      _ = (v + 1) * 64 ^ (b :: us).length := by
        rw [List.length_cons, Nat.pow_succ, Nat.mul_assoc, Nat.mul_comm 64]

/-- A text that goes on to its end begins with the bytes that are owed. -/
theorem exec_owed_inv (h : reader.exec ⟨rs, v⟩ bytes = some ⟨[], w⟩) :
    ∃ us rest, bytes = us ++ rest ∧ List.Forall₂ Range.Has rs us ∧
      reader.exec ⟨[], codeOf v us⟩ rest = some ⟨[], w⟩ := by
  induction rs generalizing bytes v with
  | nil => exact ⟨[], bytes, rfl, .nil, h⟩
  | cons r rs ih =>
    cases bytes with
    | nil => cases h
    | cons b bytes =>
      obtain ⟨t, ht, h⟩ := Machine.exec_cons_iff reader |>.mp h
      obtain ⟨hb, rfl⟩ := reader_next_iff.mp ht
      obtain ⟨us, rest, rfl, hus, hrest⟩ := ih h
      exact ⟨b :: us, rest, rfl, .cons hb hus, hrest⟩

/-! ### What characters are written as -/

/-- The codes of characters. -/
theorem valid (c : Char) : c.toNat < 0xD800 ∨ 0xDFFF < c.toNat ∧ c.toNat < 0x110000 := c.valid

theorem toNat_ofNat (n : ℕ) : (UInt8.ofNat n).toNat = n % 256 := UInt8.toNat_ofNat'

theorem has_mk {l h : ℕ} : Range.Has ⟨l, h⟩ b ↔ l ≤ b.toNat ∧ b.toNat ≤ h := Iff.rfl

theorem has_tail (m : ℕ) : tail.Has (UInt8.ofNat (m % 64 + 0x80)) := by
  rw [tail, has_mk, toNat_ofNat]
  omega

theorem follow_one {m : ℕ} (h : m < 0x80) : follow (UInt8.ofNat m) = some [] := by
  unfold follow
  rw [toNat_ofNat, if_pos (by omega)]

theorem follow_two {m : ℕ} (h : 0xC2 ≤ m) (h' : m < 0xE0) :
    follow (UInt8.ofNat m) = some [tail] := by
  unfold follow
  rw [toNat_ofNat, if_neg (by omega), if_neg (by omega), if_pos (by omega)]

/-- What follows the first byte of three. -/
def second₃ (m : ℕ) : Range :=
  if m = 0xE0 then ⟨0xA0, 0xBF⟩ else if m = 0xED then ⟨0x80, 0x9F⟩ else tail

theorem follow_three {m : ℕ} (h : 0xE0 ≤ m) (h' : m < 0xF0) :
    follow (UInt8.ofNat m) = some [second₃ m, tail] := by
  unfold follow second₃
  rw [toNat_ofNat, Nat.mod_eq_of_lt (by omega), if_neg (by omega), if_neg (by omega),
    if_neg (by omega)]
  split_ifs <;> rfl

/-- What follows the first byte of four. -/
def second₄ (m : ℕ) : Range :=
  if m = 0xF0 then ⟨0x90, 0xBF⟩ else if m = 0xF4 then ⟨0x80, 0x8F⟩ else tail

theorem follow_four {m : ℕ} (h : 0xF0 ≤ m) (h' : m ≤ 0xF4) :
    follow (UInt8.ofNat m) = some [second₄ m, tail, tail] := by
  unfold follow second₄
  rw [toNat_ofNat, Nat.mod_eq_of_lt (by omega), if_neg (by omega), if_neg (by omega),
    if_neg (by omega), if_neg (by omega), if_neg (by omega), if_neg (by omega)]
  split_ifs <;> first | rfl | omega

theorem second₃_has {m : ℕ} : (second₃ m).Has b ↔
    0x80 ≤ b.toNat ∧ b.toNat ≤ 0xBF ∧ (m = 0xE0 → 0xA0 ≤ b.toNat) ∧
      (m = 0xED → b.toNat ≤ 0x9F) := by
  unfold second₃ tail
  split_ifs <;> (rw [has_mk]; omega)

theorem second₄_has {m : ℕ} : (second₄ m).Has b ↔
    0x80 ≤ b.toNat ∧ b.toNat ≤ 0xBF ∧ (m = 0xF0 → 0x90 ≤ b.toNat) ∧
      (m = 0xF4 → b.toNat ≤ 0x8F) := by
  unfold second₄ tail
  split_ifs <;> (rw [has_mk]; omega)

/-- The bytes of a character are a first one and those it owes. -/
theorem units_read (h : n < 0xD800 ∨ 0xDFFF < n ∧ n < 0x110000) :
    ∃ b rs us, units n = b :: us ∧ follow b = some rs ∧ List.Forall₂ Range.Has rs us ∧
      codeOf (lead b rs.length) us = n := by
  unfold units
  split_ifs with h1 h2 h3
  · refine ⟨_, [], [], rfl, follow_one (by omega), .nil, ?_⟩
    change (UInt8.ofNat n).toNat = n
    rw [toNat_ofNat]
    omega
  · refine ⟨_, [tail], _, rfl, follow_two (by omega) (by omega), .cons (has_tail n) .nil, ?_⟩
    change ((UInt8.ofNat _).toNat - 0xC0) * 64 + (UInt8.ofNat _).toNat % 64 = n
    rw [toNat_ofNat, toNat_ofNat]
    omega
  · refine ⟨_, [_, tail], _, rfl, follow_three (by omega) (by omega),
      .cons (second₃_has.mpr (by rw [toNat_ofNat]; omega)) (.cons (has_tail n) .nil), ?_⟩
    change (((UInt8.ofNat _).toNat - 0xE0) * 64 + (UInt8.ofNat _).toNat % 64) * 64 +
      (UInt8.ofNat _).toNat % 64 = n
    rw [toNat_ofNat, toNat_ofNat, toNat_ofNat]
    omega
  · refine ⟨_, [_, tail, tail], _, rfl, follow_four (by omega) (by omega),
      .cons (second₄_has.mpr (by rw [toNat_ofNat]; omega))
        (.cons (has_tail _) (.cons (has_tail n) .nil)), ?_⟩
    change ((((UInt8.ofNat _).toNat - 0xF0) * 64 + (UInt8.ofNat _).toNat % 64) * 64 +
      (UInt8.ofNat _).toNat % 64) * 64 +
      (UInt8.ofNat _).toNat % 64 = n
    rw [toNat_ofNat, toNat_ofNat, toNat_ofNat, toNat_ofNat]
    omega

/-- The first byte of a character is one of these. -/
theorem follow_some (hb : follow b = some rs) :
    b.toNat < 0x80 ∧ rs = [] ∨ 0xC2 ≤ b.toNat ∧ b.toNat < 0xE0 ∧ rs = [tail] ∨
      0xE0 ≤ b.toNat ∧ b.toNat < 0xF0 ∧ rs = [second₃ b.toNat, tail] ∨
      0xF0 ≤ b.toNat ∧ b.toNat ≤ 0xF4 ∧ rs = [second₄ b.toNat, tail, tail] := by
  have hof : UInt8.ofNat b.toNat = b := UInt8.ofNat_toNat
  by_cases h1 : b.toNat < 0x80
  · have h := follow_one h1
    rw [hof, hb] at h
    exact .inl ⟨h1, Option.some.inj h⟩
  by_cases h2 : b.toNat < 0xC2
  · rw [follow, if_neg h1, if_pos h2] at hb
    cases hb
  by_cases h3 : b.toNat < 0xE0
  · have h := follow_two (by omega) h3
    rw [hof, hb] at h
    exact .inr (.inl ⟨by omega, h3, Option.some.inj h⟩)
  by_cases h4 : b.toNat < 0xF0
  · have h := follow_three (by omega) h4
    rw [hof, hb] at h
    exact .inr (.inr (.inl ⟨by omega, h4, Option.some.inj h⟩))
  by_cases h5 : b.toNat ≤ 0xF4
  · have h := follow_four (by omega) h5
    rw [hof, hb] at h
    exact .inr (.inr (.inr ⟨by omega, h5, Option.some.inj h⟩))
  · rw [follow, if_neg h1, if_neg h2, if_neg h3, if_neg (by omega), if_neg (by omega), if_neg h4,
      if_neg (by omega), if_neg (by omega), if_neg (by omega)] at hb
    cases hb

theorem ofNat_eq {m : ℕ} (b : UInt8) (h : m = b.toNat) : UInt8.ofNat m = b := by
  rw [h, UInt8.ofNat_toNat]

/-- A first byte and the bytes it owes are those of a character. -/
theorem read_units (hb : follow b = some rs) (hus : List.Forall₂ Range.Has rs us) :
    ∃ n, (n < 0xD800 ∨ 0xDFFF < n ∧ n < 0x110000) ∧ units n = b :: us := by
  rcases follow_some hb with ⟨h, rfl⟩ | ⟨h, h', rfl⟩ | ⟨h, h', rfl⟩ | ⟨h, h', rfl⟩
  · cases hus
    refine ⟨b.toNat, by omega, ?_⟩
    rw [units, if_pos (by omega), UInt8.ofNat_toNat]
  · obtain ⟨u, _, h1, hnil, rfl⟩ := List.forall₂_cons_left_iff.mp hus
    cases hnil
    rw [tail, has_mk] at h1
    refine ⟨(b.toNat - 0xC0) * 64 + u.toNat % 64, by omega, ?_⟩
    rw [units, if_neg (by omega), if_pos (by omega), ofNat_eq b (by omega), ofNat_eq u (by omega)]
  · obtain ⟨u, _, h1, hus₁, rfl⟩ := List.forall₂_cons_left_iff.mp hus
    obtain ⟨x, _, h2, hnil, rfl⟩ := List.forall₂_cons_left_iff.mp hus₁
    cases hnil
    rw [second₃_has] at h1
    rw [tail, has_mk] at h2
    refine ⟨((b.toNat - 0xE0) * 64 + u.toNat % 64) * 64 + x.toNat % 64, by omega, ?_⟩
    rw [units, if_neg (by omega), if_neg (by omega), if_pos (by omega), ofNat_eq b (by omega),
      ofNat_eq u (by omega), ofNat_eq x (by omega)]
  · obtain ⟨u, _, h1, hus₁, rfl⟩ := List.forall₂_cons_left_iff.mp hus
    obtain ⟨x, _, h2, hus₂, rfl⟩ := List.forall₂_cons_left_iff.mp hus₁
    obtain ⟨y, _, h3, hnil, rfl⟩ := List.forall₂_cons_left_iff.mp hus₂
    cases hnil
    rw [second₄_has] at h1
    rw [tail, has_mk] at h2 h3
    refine ⟨(((b.toNat - 0xF0) * 64 + u.toNat % 64) * 64 + x.toNat % 64) * 64 +
      y.toNat % 64, by omega, ?_⟩
    rw [units, if_neg (by omega), if_neg (by omega), if_neg (by omega), ofNat_eq b (by omega),
      ofNat_eq u (by omega), ofNat_eq x (by omega), ofNat_eq y (by omega)]

/-- The character that they are, and its code. -/
theorem read_char (hb : follow b = some rs) (hus : List.Forall₂ Range.Has rs us) :
    ∃ c : Char, String.utf8EncodeChar c = b :: us ∧ c.toNat = codeOf (lead b rs.length) us := by
  obtain ⟨n, hn, hunits⟩ := read_units hb hus
  obtain ⟨b', rs', us', hunits', hb', -, hcode⟩ := units_read hn
  obtain ⟨rfl, rfl⟩ := List.cons.inj (hunits'.symm.trans hunits)
  obtain rfl := Option.some.inj (hb'.symm.trans hb)
  exact ⟨Char.ofNatAux n hn, hunits, hcode.symm⟩

/-! ### What the reader reads -/

theorem exec_units (h : n < 0xD800 ∨ 0xDFFF < n ∧ n < 0x110000) (v : ℕ) (rest : List UInt8) :
    reader.exec ⟨[], v⟩ (units n ++ rest) = reader.exec ⟨[], n⟩ rest := by
  obtain ⟨b, rs, us, hunits, hb, hus, hcode⟩ := units_read h
  rw [hunits, List.cons_append, Machine.exec_cons, reader_first hb, Option.bind_some, exec_owed hus,
    hcode]

/-- **Characters are read to their end.** -/
theorem exec_encode (cs : List Char) (v : ℕ) :
    ∃ w, reader.exec ⟨[], v⟩ (encode cs) = some ⟨[], w⟩ := by
  induction cs generalizing v with
  | nil => exact ⟨v, rfl⟩
  | cons c cs ih =>
    obtain ⟨w, hw⟩ := ih c.toNat
    exact ⟨w, by rw [encode_cons, utf8EncodeChar_eq, exec_units (valid c), hw]⟩

/-- **What is read to its end is characters.** -/
theorem text_of_exec (h : reader.exec ⟨[], v⟩ bytes = some ⟨[], w⟩) : IsText bytes := by
  induction hn : bytes.length using Nat.strong_induction_on generalizing bytes v with
  | _ k ih =>
    cases bytes with
    | nil => exact ⟨[], rfl⟩
    | cons b bytes =>
      obtain ⟨t, ht, h⟩ := (Machine.exec_cons_iff reader).mp h
      obtain ⟨rs, hb, rfl⟩ := reader_first_iff.mp ht
      obtain ⟨us, rest, rfl, hus, hrest⟩ := exec_owed_inv h
      obtain ⟨c, hchar, -⟩ := read_char hb hus
      have hlt : rest.length < k := by
        rw [← hn, List.length_cons, List.length_append]
        omega
      obtain ⟨cs, rfl⟩ := ih _ hlt hrest rfl
      exact ⟨c :: cs, by rw [encode_cons, hchar, List.cons_append]⟩

/-- **Texts** are what is read to its end. -/
theorem text_iff (v : ℕ) : IsText bytes ↔ ∃ w, reader.exec ⟨[], v⟩ bytes = some ⟨[], w⟩ := by
  refine ⟨?_, fun ⟨w, h⟩ => text_of_exec h⟩
  rintro ⟨cs, rfl⟩
  exact exec_encode cs v

/-- Whatever is owed can be given. -/
theorem exec_owes (h : reader.exec ⟨[], v⟩ bytes = some s) : ∀ r ∈ s.owed, ∃ b, r.Has b := by
  refine Machine.exec_inv reader (I := fun s => ∀ r ∈ s.owed, ∃ b, r.Has b) ?_ (by simp) h
  rintro ⟨owed, v⟩ b t hs ht
  cases owed with
  | nil =>
    obtain ⟨rs, hb, rfl⟩ := reader_first_iff.mp ht
    have htail : ∃ b, tail.Has b := ⟨0x80, by decide⟩
    have hsecond₃ : ∃ b', (second₃ b.toNat).Has b' := by
      by_cases h : b.toNat = 0xED
      · exact ⟨0x80, second₃_has.mpr (by rw [h]; decide)⟩
      · exact ⟨0xA0,
          second₃_has.mpr ⟨by decide, by decide, fun _ => by decide, fun h' => absurd h' h⟩⟩
    have hsecond₄ : ∃ b', (second₄ b.toNat).Has b' := by
      by_cases h : b.toNat = 0xF4
      · exact ⟨0x80, second₄_has.mpr (by rw [h]; decide)⟩
      · exact ⟨0x90,
          second₄_has.mpr ⟨by decide, by decide, fun _ => by decide, fun h' => absurd h' h⟩⟩
    rcases follow_some hb with ⟨_, rfl⟩ | ⟨_, _, rfl⟩ | ⟨_, _, rfl⟩ | ⟨_, _, rfl⟩ <;>
      simp [htail, hsecond₃, hsecond₄]
  | cons r rs =>
    obtain ⟨hb, rfl⟩ := reader_next_iff.mp ht
    exact fun r' hr' => hs r' (List.mem_cons_of_mem r hr')

/-- **Openings of texts** are what is read at all. -/
theorem opening_iff (v : ℕ) : IsOpening bytes ↔ (reader.exec ⟨[], v⟩ bytes).isSome := by
  constructor
  · rintro ⟨more, h⟩
    obtain ⟨w, hw⟩ := (text_iff v).mp h
    rw [Machine.exec_append] at hw
    obtain ⟨t, ht, _⟩ := Option.bind_eq_some_iff.mp hw
    rw [ht, Option.isSome_some]
  · intro h
    obtain ⟨⟨rs, u⟩, hs⟩ := Option.isSome_iff_exists.mp h
    have howes := exec_owes hs
    have hgive : ∃ us, List.Forall₂ Range.Has rs us := by
      clear hs h
      induction rs with
      | nil => exact ⟨[], .nil⟩
      | cons r rs ih =>
        obtain ⟨us, hus⟩ := ih fun r' hr' => howes r' (List.mem_cons_of_mem r hr')
        obtain ⟨b, hb⟩ := howes r List.mem_cons_self
        exact ⟨b :: us, .cons hb hus⟩
    obtain ⟨us, hus⟩ := hgive
    refine ⟨us, (text_iff v).mpr ⟨codeOf u us, ?_⟩⟩
    have hread := exec_owed hus u []
    rw [List.append_nil] at hread
    rw [Machine.exec_append, hs, Option.bind_some, hread, Machine.exec_nil]

theorem IsText.opening (h : IsText bytes) : IsOpening bytes := ⟨[], by rwa [List.append_nil]⟩

theorem IsOpening.shorter {bytes' : List UInt8} (h : IsOpening bytes) (hcut : bytes' <+: bytes) :
    IsOpening bytes' := by
  obtain ⟨more', rfl⟩ := hcut
  obtain ⟨more, htext⟩ := h
  exact ⟨more' ++ more, by rwa [List.append_assoc] at htext⟩

/-! ### The strings of texts -/

/-- The string that some bytes are. -/
def decode (bytes : List UInt8) : Option String := String.fromUTF8? bytes.toByteArray

theorem decode_eq_some_iff {str : String} :
    decode bytes = some str ↔ bytes = encode str.toList := by
  have hbytes : str.toByteArray = (encode str.toList).toByteArray := String.utf8Encode_toList.symm
  unfold decode String.fromUTF8?
  constructor
  · intro h
    split_ifs at h with hvalid
    have heq := congrArg String.toByteArray (Option.some.inj h)
    rw [hbytes] at heq
    exact List.toByteArray_inj.mp heq
  · rintro rfl
    rw [← hbytes, dif_pos str.isValidUTF8]
    rfl

theorem decode_encode (str : String) : decode (encode str.toList) = some str :=
  decode_eq_some_iff.mpr rfl

/-- Different characters are written differently. -/
theorem encode_injective : Function.Injective encode := by
  have hdecode : ∀ cs, decode (encode cs) = some (String.ofList cs) := fun cs =>
    decode_eq_some_iff.mpr (by rw [String.toList_ofList])
  intro cs cs' h
  have heq := hdecode cs
  rw [h, hdecode cs'] at heq
  exact (String.ofList_inj.mp (Option.some.inj heq)).symm

end PickUpLight.Theory.Utf8
