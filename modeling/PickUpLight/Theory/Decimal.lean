import Mathlib.Algebra.Order.Ring.Nat
import Mathlib.Data.List.Induction

/-!
# Decimal numerals

The numeral of a natural number, as bytes, and the number some digits are. Numerals have no
zeros in front (`head_digits`), and they are the numerals of their numbers (`value_digits`).
-/

namespace PickUpLight.Theory.Decimal

/-- The digits. -/
def IsDigit (c : UInt8) : Prop := 0x30 ≤ c ∧ c ≤ 0x39

instance (c : UInt8) : Decidable (IsDigit c) := inferInstanceAs (Decidable (_ ∧ _))

/-- A digit. -/
def digit (d : ℕ) : UInt8 := UInt8.ofNat (0x30 + d)

/-- **The numeral of a number.** -/
def digits (n : ℕ) : List UInt8 := (Nat.toDigits 10 n).map fun c => UInt8.ofNat c.toNat

/-- The number some digits are. -/
def value (ds : List UInt8) : ℕ := ds.foldl (fun n c => 10 * n + (c.toNat - 0x30)) 0

variable {n d k : ℕ} {c : UInt8} {ds : List UInt8}

theorem isDigit_iff : IsDigit c ↔ 0x30 ≤ c.toNat ∧ c.toNat ≤ 0x39 := by
  rw [IsDigit, UInt8.le_iff_toNat_le, UInt8.le_iff_toNat_le]
  exact Iff.rfl

theorem digit_toNat (h : d < 10) : (digit d).toNat = 0x30 + d := by
  rw [digit, UInt8.toNat_ofNat', Nat.mod_eq_of_lt (by omega)]

theorem isDigit_digit (h : d < 10) : IsDigit (digit d) := by
  rw [isDigit_iff, digit_toNat h]
  omega

theorem digit_of_isDigit (h : IsDigit c) : c = digit (c.toNat - 0x30) := by
  rw [isDigit_iff] at h
  rw [← UInt8.toNat_inj, digit_toNat (by omega)]
  omega

theorem digitChar_byte : ∀ d < 10, UInt8.ofNat d.digitChar.toNat = digit d := by decide

theorem digits_of_lt (h : n < 10) : digits n = [digit n] := by
  rw [digits, Nat.toDigits_of_lt_base h, List.map_singleton, digitChar_byte n h]

theorem digits_of_ge (h : 10 ≤ n) : digits n = digits (n / 10) ++ [digit (n % 10)] := by
  rw [digits, Nat.toDigits_of_base_le (by decide) h, List.map_append, List.map_singleton,
    digitChar_byte _ (Nat.mod_lt n (by decide))]
  rfl

/-- Numerals, from the last digit on. -/
theorem digits_induction {P : ℕ → Prop} (lt : ∀ n < 10, P n) (ge : ∀ n, 10 ≤ n → P (n / 10) → P n)
    (n : ℕ) : P n := by
  induction n using Nat.strong_induction_on with
  | _ n ih =>
    by_cases h : n < 10
    · exact lt n h
    · exact ge n (by omega) (ih _ (Nat.div_lt_self (by omega) (by decide)))

theorem length_digits_pos (n : ℕ) : 0 < (digits n).length := by
  rw [digits, List.length_map]
  exact Nat.length_toDigits_pos

theorem digits_ne_nil (n : ℕ) : digits n ≠ [] := List.ne_nil_of_length_pos (length_digits_pos n)

theorem length_digits_le_iff (hk : 0 < k) : (digits n).length ≤ k ↔ n < 10 ^ k := by
  rw [digits, List.length_map]
  exact Nat.length_toDigits_le_iff (by decide) hk

theorem isDigit_of_mem_digits (h : c ∈ digits n) : IsDigit c := by
  induction n using digits_induction with
  | lt n hn =>
    rw [digits_of_lt hn, List.mem_singleton] at h
    exact h ▸ isDigit_digit hn
  | ge n hn ih =>
    rw [digits_of_ge hn, List.mem_append, List.mem_singleton] at h
    rcases h with h | rfl
    · exact ih h
    · exact isDigit_digit (Nat.mod_lt n (by decide))

theorem value_concat (ds : List UInt8) (c : UInt8) :
    value (ds ++ [c]) = 10 * value ds + (c.toNat - 0x30) := by
  rw [value, List.foldl_append, List.foldl_cons, List.foldl_nil, value]

theorem value_singleton (h : d < 10) : value [digit d] = d := by
  change 10 * 0 + ((digit d).toNat - 0x30) = d
  rw [digit_toNat h]
  omega

/-- A number is the one its numeral is. -/
theorem value_digits (n : ℕ) : value (digits n) = n := by
  induction n using digits_induction with
  | lt n hn => rw [digits_of_lt hn, value_singleton hn]
  | ge n hn ih =>
    rw [digits_of_ge hn, value_concat, ih, digit_toNat (Nat.mod_lt n (by decide))]
    omega

/-- Only zero's numeral begins with a zero. -/
theorem head_digits (h : 0 < n) : ∃ c rest, digits n = c :: rest ∧ IsDigit c ∧ c ≠ 0x30 := by
  induction n using digits_induction with
  | lt n hn =>
    refine ⟨digit n, [], digits_of_lt hn, isDigit_digit hn, fun h0 => ?_⟩
    have heq := congrArg UInt8.toNat h0
    rw [digit_toNat hn] at heq
    change 0x30 + n = 0x30 at heq
    omega
  | ge n hn ih =>
    obtain ⟨c, rest, heq, hc, hne⟩ := ih (by omega)
    exact ⟨c, rest ++ [digit (n % 10)], by rw [digits_of_ge hn, heq, List.cons_append], hc, hne⟩

end PickUpLight.Theory.Decimal
