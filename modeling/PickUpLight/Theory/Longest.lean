import PickUpLight.Theory.Machine

/-!
# As far as a machine goes

A scanner without a look ahead takes from its input what its machine can read, and stops at
what it cannot. What it takes is the longest beginning of the input that the machine reads
(`longest_eq_iff`).
-/

namespace PickUpLight.Theory.Machine

universe u v

variable {σ : Type u} {ℓ : Type v} (M : Machine σ ℓ)

/-- The state a machine gets to, what it has taken of the input, and what it leaves. -/
def longest : σ → List ℓ → σ × List ℓ × List ℓ
  | s, [] => (s, [], [])
  | s, l :: ls =>
    match M s l with
    | none => (s, [], l :: ls)
    | some t => ((longest t ls).1, l :: (longest t ls).2.1, (longest t ls).2.2)

variable {M} {s t : σ} {l : ℓ} {ls : List ℓ}

theorem longest_some (h : M s l = some t) :
    M.longest s (l :: ls) =
      ((M.longest t ls).1, l :: (M.longest t ls).2.1, (M.longest t ls).2.2) := by
  rw [longest, h]

theorem longest_none (h : M s l = none) : M.longest s (l :: ls) = (s, [], l :: ls) := by
  rw [longest, h]

/-- There is nothing lost. -/
theorem longest_append (s : σ) (ls : List ℓ) :
    (M.longest s ls).2.1 ++ (M.longest s ls).2.2 = ls := by
  induction ls generalizing s with
  | nil => rfl
  | cons l ls ih =>
    cases h : M s l with
    | none => rw [longest_none h, List.nil_append]
    | some t => rw [longest_some h, List.cons_append, ih]

/-- What a machine cannot go on with. -/
def Stuck (M : Machine σ ℓ) (s : σ) (ls : List ℓ) : Prop := ∀ l ms, ls = l :: ms → M s l = none

/-- **What is taken** is what the machine reads, when it can read no more of the input. -/
theorem longest_eq_iff {taken rest : List ℓ} :
    M.longest s ls = (t, taken, rest) ↔ ls = taken ++ rest ∧ M.exec s taken = some t ∧
      Stuck M t rest := by
  constructor
  · intro h
    have happend := longest_append (M := M) s ls
    rw [h] at happend
    refine ⟨happend.symm, ?_⟩
    clear happend
    induction ls generalizing s taken with
    | nil =>
      cases h
      exact ⟨rfl, fun l ms h => by cases h⟩
    | cons l ls ih =>
      cases hl : M s l with
      | none =>
        rw [longest_none hl] at h
        cases h
        refine ⟨rfl, fun l' ms h => ?_⟩
        cases h
        exact hl
      | some u =>
        rw [longest_some hl] at h
        cases h
        obtain ⟨hexec, hstuck⟩ := ih (s := u) rfl
        exact ⟨by rw [exec_cons, hl, Option.bind_some, hexec], hstuck⟩
  · rintro ⟨rfl, hexec, hstuck⟩
    induction taken generalizing s with
    | nil =>
      cases hexec
      cases rest with
      | nil => rfl
      | cons l rest => exact longest_none (hstuck l rest rfl)
    | cons l taken ih =>
      obtain ⟨u, hu, hexec⟩ := M.exec_cons_iff.mp hexec
      rw [List.cons_append, longest_some hu, ih hexec]

end PickUpLight.Theory.Machine
