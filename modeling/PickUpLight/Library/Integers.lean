import PickUpLight.Library.Serializer
import PickUpLight.Theory.Decimal

/-!
# Integers are written as they should be

`dump_integer` counts the digits first, and then fills its buffer from behind, two digits at a
time. The count is right (`count_digits_eq`), so that the last digit written is where the
number begins, and no integer with 64 bits needs more than 21 bytes of the buffer's 64.
-/

namespace PickUpLight.Library

open Control Theory Theory.Decimal

/-! ### The count -/

theorem length_digits_succ {n : ℕ} (h : 10 ≤ n) :
    (digits n).length = (digits (n / 10)).length + 1 := by
  rw [digits_of_ge h, List.length_append, List.length_singleton]

theorem length_digits_of_lt {n : ℕ} (h : n < 10) : (digits n).length = 1 := by
  rw [digits_of_lt h, List.length_singleton]

/-- The loop counts the digits that are left, and has one of them already. -/
theorem count_digits_loop (x n_digits : ℕ) :
    loop count_digits_falls (x, n_digits) + 1 = n_digits + (digits x).length := by
  induction x using Nat.strong_induction_on generalizing n_digits with
  | _ x ih =>
    by_cases h1 : x < 10
    · have hpass : count_digits_pass (x, n_digits) = .inr n_digits := if_pos h1
      rw [loop_out hpass, length_digits_of_lt h1]
    by_cases h2 : x < 100
    · have hpass : count_digits_pass (x, n_digits) = .inr (n_digits + 1) :=
        (if_neg h1).trans (if_pos h2)
      rw [loop_out hpass, length_digits_succ (by omega), length_digits_of_lt (by omega)]
    by_cases h3 : x < 1000
    · have hpass : count_digits_pass (x, n_digits) = .inr (n_digits + 2) :=
        (if_neg h1).trans ((if_neg h2).trans (if_pos h3))
      rw [loop_out hpass, length_digits_succ (by omega), length_digits_succ (by omega),
        length_digits_of_lt (by omega)]
    by_cases h4 : x < 10000
    · have hpass : count_digits_pass (x, n_digits) = .inr (n_digits + 3) :=
        (if_neg h1).trans ((if_neg h2).trans ((if_neg h3).trans (if_pos h4)))
      rw [loop_out hpass, length_digits_succ (by omega), length_digits_succ (by omega),
        length_digits_succ (by omega), length_digits_of_lt (by omega)]
    · have hpass : count_digits_pass (x, n_digits) = .inl (x / 10000, n_digits + 4) :=
        (if_neg h1).trans ((if_neg h2).trans ((if_neg h3).trans (if_neg h4)))
      have hdiv : x / 10 / 10 / 10 / 10 = x / 10000 := by omega
      have hlong : (digits x).length = (digits (x / 10000)).length + 4 := by
        rw [length_digits_succ (n := x) (by omega), length_digits_succ (n := x / 10) (by omega),
          length_digits_succ (n := x / 10 / 10) (by omega), length_digits_succ
            (n := x / 10 / 10 / 10) (by omega), hdiv]
      rw [loop_on hpass, ih _ (by omega), hlong]
      omega

/-- **The digits are counted right.** -/
theorem count_digits_eq (x : ℕ) : count_digits x = (digits x).length := by
  have hloop := count_digits_loop x 1
  unfold count_digits
  omega

/-! ### The buffer -/

variable {a : ℕ} {c z z' : UInt8} {x y : List UInt8}

/-- A digit is put before those that are there. -/
theorem put_append (h : x.length < number_buffer_size)
    (hlen : (x ++ z :: y).length = number_buffer_size) :
    Digits.put c ⟨a, x.length + 1, x ++ z :: y⟩ = .ok ⟨a, x.length, x ++ c :: y⟩ := by
  unfold Digits.put
  rw [if_pos ⟨Nat.succ_pos _, by rw [hlen]; exact h⟩]
  simp

theorem put_two_append (i : ℕ) (hlen : (x ++ z :: z' :: y).length = number_buffer_size) :
    Digits.put_two i ⟨a, x.length + 2, x ++ z :: z' :: y⟩ =
      .ok ⟨a, x.length, x ++ (digits_to_99 i).1 :: (digits_to_99 i).2 :: y⟩ := by
  have hlength : x.length + (y.length + 1 + 1) = number_buffer_size := by
    rw [← hlen, List.length_append, List.length_cons, List.length_cons]
  have hsecond : Digits.put (digits_to_99 i).2 ⟨a, x.length + 2, x ++ z :: z' :: y⟩ =
      .ok ⟨a, x.length + 1, x ++ z :: (digits_to_99 i).2 :: y⟩ := by
    have hput := put_append (a := a) (c := (digits_to_99 i).2) (z := z') (x := x ++ [z]) (y := y)
      (by rw [List.length_append, List.length_singleton]; omega)
      (by rwa [List.append_assoc, List.singleton_append])
    rwa [List.append_assoc, List.append_assoc, List.length_append, List.length_singleton] at hput
  rw [Digits.put_two, hsecond]
  refine put_append (by omega) ?_
  rw [List.length_append, List.length_cons, List.length_cons]
  exact hlength

/-- The last two bytes of a place. -/
theorem split_two {place : List UInt8} {k : ℕ} (h : place.length = k + 2) :
    ∃ p z z', place = p ++ [z, z'] ∧ p.length = k := by
  obtain ⟨z, z', hz⟩ :=
    List.length_eq_two.mp (show (place.drop k).length = 2 by rw [List.length_drop]; omega)
  refine ⟨place.take k, z, z', ?_, by rw [List.length_take]; omega⟩
  rw [← hz, List.take_append_drop]

/-- The digits of a number with two more than another one. -/
theorem digits_two {i : ℕ} (h : 10 ≤ i) (h' : i < 100) :
    digits i = [(digits_to_99 i).1, (digits_to_99 i).2] := by
  rw [digits_of_ge h, digits_of_lt (by omega)]
  rfl

theorem digits_hundred (h : 100 ≤ a) :
    digits a = digits (a / 100) ++ [(digits_to_99 (a % 100)).1, (digits_to_99 (a % 100)).2] := by
  have h10 : a / 10 / 10 = a / 100 := by omega
  have h11 : a / 10 % 10 = a % 100 / 10 := by omega
  have h12 : a % 10 = a % 100 % 10 := by omega
  rw [digits_of_ge (n := a) (by omega), digits_of_ge (n := a / 10) (by omega), List.append_assoc,
    List.singleton_append, h10, h11, h12]
  rfl

/-- **The loop** fills the place that has been left for the number. -/
theorem dump_integer_loop (a : ℕ) (x y place : List UInt8)
    (hplace : place.length = (digits a).length)
    (hlen : (x ++ place ++ y).length = number_buffer_size) :
    ∃ d, loop dump_integer_falls ⟨a, (x ++ place).length, x ++ place ++ y⟩ = .ok d ∧
      d.number_buffer = x ++ digits a ++ y := by
  induction a using Nat.strong_induction_on generalizing y place with
  | _ a ih =>
    by_cases h1 : 100 ≤ a
    · rw [digits_hundred h1, List.length_append] at hplace
      obtain ⟨p, z, z', rfl, hp⟩ := split_two hplace
      have hbuffer : x ++ (p ++ [z, z']) ++ y = (x ++ p) ++ z :: z' :: y := by simp
      have hptr : (x ++ (p ++ [z, z'])).length = (x ++ p).length + 2 := by simp [Nat.add_assoc]
      rw [hbuffer] at hlen ⊢
      rw [hptr]
      have hput := put_two_append (a := a / 100) (a % 100) hlen
      have hpass : dump_integer_pass ⟨a, (x ++ p).length + 2, (x ++ p) ++ z :: z' :: y⟩ =
          .inl ⟨a / 100, (x ++ p).length, (x ++ p) ++ (digits_to_99 (a % 100)).1 ::
            (digits_to_99 (a % 100)).2 :: y⟩ := by
        unfold dump_integer_pass
        rw [if_pos h1]
        dsimp only
        rw [hput]
      obtain ⟨d, hd, hwritten⟩ := ih (a / 100) (Nat.div_lt_self (by omega) (by decide))
        ((digits_to_99 (a % 100)).1 :: (digits_to_99 (a % 100)).2 :: y) p hp
        (by simpa only [List.length_append, List.length_cons] using hlen)
      exact ⟨d, (loop_on hpass).trans hd, by rw [hwritten, digits_hundred h1]; simp⟩
    by_cases h2 : 10 ≤ a
    · rw [digits_two h2 (by omega)] at hplace
      obtain ⟨p, z, z', rfl, hp⟩ := split_two (k := 0) hplace
      obtain rfl := List.length_eq_zero_iff.mp hp
      have hbuffer : x ++ ([] ++ [z, z']) ++ y = x ++ z :: z' :: y := by simp
      have hptr : (x ++ ([] ++ [z, z'])).length = x.length + 2 := by simp
      rw [hbuffer] at hlen ⊢
      rw [hptr]
      have hpass : dump_integer_pass ⟨a, x.length + 2, x ++ z :: z' :: y⟩ =
          .inr (.ok ⟨a, x.length, x ++ (digits_to_99 a).1 :: (digits_to_99 a).2 :: y⟩) := by
        unfold dump_integer_pass
        rw [if_neg h1, if_pos h2, put_two_append a hlen]
      exact ⟨_, loop_out hpass, by rw [digits_two h2 (by omega)]; simp⟩
    · rw [digits_of_lt (by omega)] at hplace
      obtain ⟨z, rfl⟩ := List.length_eq_one_iff.mp hplace
      have hbuffer : x ++ [z] ++ y = x ++ z :: y := by simp
      have hptr : (x ++ [z]).length = x.length + 1 := by simp
      rw [hbuffer] at hlen ⊢
      rw [hptr]
      have hroom : x.length < number_buffer_size := by
        rw [← hlen, List.length_append, List.length_cons]
        omega
      have hpass :
          dump_integer_pass ⟨a, x.length + 1, x ++ z :: y⟩ =
            .inr (.ok ⟨a, x.length, x ++ digit a :: y⟩) := by
        unfold dump_integer_pass
        rw [if_neg h1, if_neg h2]
        exact congrArg Sum.inr (put_append hroom hlen)
      exact ⟨_, loop_out hpass, by rw [digits_of_lt (by omega)]; simp⟩

/-! ### The text -/

/-- What `dump_digits` writes: what was in the buffer before the place of the number, and the
number. -/
theorem dump_digits_eq (a : ℕ) (x : List UInt8)
    (hlen : x.length + (digits a).length ≤ number_buffer_size) :
    dump_digits (x.length + (digits a).length) a
      (x ++ List.replicate (number_buffer_size - x.length) 0) =
      .ok (x ++ digits a) := by
  have hsplit : List.replicate (number_buffer_size - x.length) (0 : UInt8) =
      List.replicate (digits a).length 0 ++ List.replicate
        (number_buffer_size - x.length - (digits a).length) 0 := by
    rw [List.replicate_append_replicate]
    congr 1
    omega
  obtain ⟨d, hd, hwritten⟩ := dump_integer_loop a x
    (List.replicate (number_buffer_size - x.length - (digits a).length) 0)
    (List.replicate (digits a).length 0)
    List.length_replicate (by simp only [List.length_append, List.length_replicate]; omega)
  have hptr : (x ++ List.replicate (digits a).length (0 : UInt8)).length =
      x.length + (digits a).length := by
    rw [List.length_append, List.length_replicate]
  rw [hptr, List.append_assoc, ← hsplit] at hd
  rw [dump_digits, hd, Except.map, hwritten, ← List.length_append, List.take_left]

theorem length_digits_le {a : ℕ} (ha : a < 2 ^ 64) : (digits a).length ≤ 20 :=
  (length_digits_le_iff (by decide)).mpr (by omega)

theorem dump_integer_natural {a : ℕ} (ha : a < 2 ^ 64) : dump_integer a = .ok (digits a) := by
  unfold dump_integer
  by_cases h0 : a = 0
  · subst h0
    decide
  rw [if_neg (by omega), if_neg (by omega), count_digits_eq]
  have hdigits := length_digits_le ha
  have hwritten := dump_digits_eq a [] (by change 0 + _ ≤ 64; omega)
  rwa [List.length_nil, Nat.zero_add, List.nil_append, Nat.sub_zero, List.nil_append] at hwritten

theorem dump_integer_negative {a : ℕ} (h0 : 0 < a) (ha : a ≤ 2 ^ 63) :
    dump_integer (-a) = .ok (0x2D :: digits a) := by
  have habs : remove_sign (-a) = a := by
    unfold remove_sign
    omega
  have hdigits := length_digits_le (a := a) (by omega)
  unfold dump_integer
  rw [if_neg (by omega), if_pos (by omega), habs, count_digits_eq]
  exact dump_digits_eq a [0x2D] (by change 1 + _ ≤ 64; omega)

/-- **Every integer with 64 bits is written as its numeral**, with a sign or without one. -/
theorem dump_integer_eq {x : ℤ} (hlow : -2 ^ 63 ≤ x) (hhigh : x < 2 ^ 64) :
    dump_integer x = .ok (utf8 (toString x)) := by
  by_cases hneg : x < 0
  · have h := dump_integer_negative (a := (-x).toNat) (by omega) (by omega)
    rwa [Int.toNat_of_nonneg (by omega), neg_neg, ← utf8_neg hneg] at h
  · have h := dump_integer_natural (a := x.toNat) (by omega)
    rwa [Int.toNat_of_nonneg (by omega), ← utf8_nonneg (by omega)] at h

/-- The least of them, whose magnitude is no `int64_t`. -/
theorem dump_integer_least : dump_integer (-2 ^ 63) = .ok (utf8 (toString (-2 ^ 63 : ℤ))) :=
  dump_integer_eq (x := -2 ^ 63) (by decide) (by decide)

end PickUpLight.Library
