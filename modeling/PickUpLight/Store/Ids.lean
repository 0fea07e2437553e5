import PickUpLight.Sql.Meaning

/-!
# Ids

Ids are texts in the tables, and stand in statements within quotes, where they are entered, and
without, where they are looked for. Digits come out as they are in both places; but an unquoted
number is compared by its value, so only ids that are written canonically are told apart by it.
-/

namespace PickUpLight.Store

open PickUpLight.Sql

/-- A canonical decimal number. -/
def Canonical (s : String) : Prop := ∃ n : ℕ, s = toString n

theorem value_toString (n : ℕ) : value (toString n) = n := by
  simp [value, Parser.value]

theorem Canonical.isNumber {s : String} (h : Canonical s) : IsNumber s := by
  obtain ⟨n, rfl⟩ := h
  refine ⟨?_, ?_⟩
  · simp
  · intro c hc
    rw [Nat.toString_eq_repr, Nat.toList_repr] at hc
    exact Nat.isDigit_of_mem_toDigits (by decide) (by decide) hc

/-- **Canonical numbers are equal when their values are.** -/
theorem Canonical.value_inj {s s' : String} (h : Canonical s) (h' : Canonical s') :
    value s = value s' ↔ s = s' := by
  obtain ⟨n, rfl⟩ := h
  obtain ⟨n', rfl⟩ := h'
  rw [value_toString, value_toString]
  exact ⟨congrArg toString, fun h => by rw [← value_toString n, h, value_toString]⟩

/-- Digits have no special meaning within quotes. -/
theorem literal_of_digits {s : List Char} (h : ∀ c ∈ s, c.isDigit) : Literal s := by
  induction s with
  | nil => trivial
  | cons c s ih =>
    have hc := h c (List.mem_cons_self ..)
    have hne : ∀ d : Char, d.isDigit = false → c ≠ d := by
      rintro d hd rfl
      rw [hc] at hd
      cases hd
    exact (literal_plain (hne quote rfl) (hne backslash rfl)).mpr
      (ih fun d hd => h d (List.mem_cons_of_mem _ hd))

theorem literal_of_isNumber {s : String} (h : IsNumber s) : Literal s.toList :=
  literal_of_digits h.2

/-- A number goes into a column, or it is too long. -/
theorem stores_number {s : String} (h : IsNumber s) (now name : String) (n : ℕ) :
    Column.stores now ⟨name, .varchar n⟩ (.text s) = if s.length ≤ n then .does s else .fails := by
  simp only [Column.stores]
  split
  · rfl
  · rename_i hlong
    have hne : s.toList.drop n ≠ [] := by
      rw [Ne, List.drop_eq_nil_iff, String.length_toList]
      omega
    obtain ⟨c, hc⟩ := List.exists_mem_of_ne_nil _ hne
    rw [if_neg]
    intro hall
    have hspace := List.all_eq_true.mp hall c hc
    rw [beq_iff_eq] at hspace
    have hdigit := h.2 c (List.mem_of_mem_drop hc)
    rw [hspace] at hdigit
    cases hdigit

end PickUpLight.Store
