import Mathlib.Algebra.Order.Ring.Nat

/-!
# Loops

A loop is its body: a round leads to the next one or out of the loop. Where a measure falls
with every round the loop comes to its end, and `loop` is what it ends with. Two rules:

* `loop_inv` — what every round preserves holds when the loop is left;
* `loop_means` — what a loop ends with is what no round changes the meaning of.
-/

namespace PickUpLight.Theory

universe u v

variable {σ : Type u} {ρ : Type v} {τ : Type*}

/-- Every round makes the measure smaller. -/
def Falls (body : σ → σ ⊕ ρ) (μ : σ → ℕ) : Prop := ∀ s t, body s = .inl t → μ t < μ s

/-- So many rounds at most. -/
def rounds (body : σ → σ ⊕ ρ) : ℕ → σ → Option ρ
  | 0, _ => none
  | n + 1, s =>
    match body s with
    | .inl t => rounds body n t
    | .inr r => some r

variable {body : σ → σ ⊕ ρ} {μ : σ → ℕ} {s t : σ} {r : ρ} {m n : ℕ}

theorem rounds_on (h : body s = .inl t) (n : ℕ) : rounds body (n + 1) s = rounds body n t := by
  rw [rounds, h]

theorem rounds_out (h : body s = .inr r) (n : ℕ) : rounds body (n + 1) s = some r := by
  rw [rounds, h]

/-- As many rounds as the measure allows are enough. -/
theorem rounds_isSome (hμ : Falls body μ) (hn : μ s < n) : (rounds body n s).isSome := by
  induction n generalizing s with
  | zero => exact absurd hn (Nat.not_lt_zero _)
  | succ n ih =>
    cases hb : body s with
    | inl t =>
      rw [rounds_on hb]
      exact ih (Nat.lt_of_lt_of_le (hμ s t hb) (Nat.le_of_lt_succ hn))
    | inr r =>
      rw [rounds_out hb]
      rfl

/-- More rounds make no difference. -/
theorem rounds_mono (h : rounds body n s = some r) (hm : n ≤ m) : rounds body m s = some r := by
  induction n generalizing s m with
  | zero => cases h
  | succ n ih =>
    obtain ⟨k, rfl⟩ := Nat.exists_eq_add_of_lt hm
    cases hb : body s with
    | inl t =>
      rw [rounds_on hb] at h ⊢
      exact ih h (Nat.le_add_right n k)
    | inr r' =>
      rw [rounds_out hb] at h ⊢
      exact h

/-- **What a loop ends with.** -/
def loop (hμ : Falls body μ) (s : σ) : ρ :=
  (rounds body (μ s + 1) s).get (rounds_isSome hμ (Nat.lt_succ_self _))

theorem loop_eq_of_rounds {hμ : Falls body μ} (h : rounds body n s = some r) : loop hμ s = r := by
  have hloop : rounds body (μ s + 1) s = some (loop hμ s) := (Option.some_get _).symm
  rcases Nat.le_total n (μ s + 1) with hle | hle
  · exact Option.some.inj (hloop.symm.trans (rounds_mono h hle))
  · exact Option.some.inj ((rounds_mono hloop hle).symm.trans h)

theorem loop_on {hμ : Falls body μ} (h : body s = .inl t) : loop hμ s = loop hμ t := by
  have ht : rounds body (μ t + 1) t = some (loop hμ t) := (Option.some_get _).symm
  exact loop_eq_of_rounds ((rounds_on h _).trans ht)

theorem loop_out {hμ : Falls body μ} (h : body s = .inr r) : loop hμ s = r :=
  loop_eq_of_rounds (rounds_out h 0)

/-- **Invariants of loops.** -/
theorem loop_inv {hμ : Falls body μ} {I : σ → Prop} {Q : ρ → Prop}
    (hon : ∀ s t, I s → body s = .inl t → I t) (hout : ∀ s r, I s → body s = .inr r → Q r)
    (hs : I s) : Q (loop hμ s) := by
  induction hn : μ s using Nat.strong_induction_on generalizing s with
  | _ n ih =>
    cases hb : body s with
    | inl t =>
      rw [loop_on hb]
      exact ih _ (hn ▸ hμ s t hb) (hon s t hs hb) rfl
    | inr r =>
      rw [loop_out hb]
      exact hout s r hs hb

/-- **Meanings of loops**: what a state means is what the loop ends with, when no round changes it;
a round may rely on what the rounds before have preserved. -/
theorem loop_means {hμ : Falls body μ} {I : σ → Prop} {D : σ → τ → Prop} {E : ρ → τ → Prop}
    (hon : ∀ s t, I s → body s = .inl t → I t ∧ ∀ x, D s x ↔ D t x)
    (hout : ∀ s r, I s → body s = .inr r → ∀ x, D s x ↔ E r x) (hs : I s) (x : τ) :
    D s x ↔ E (loop hμ s) x := by
  induction hn : μ s using Nat.strong_induction_on generalizing s with
  | _ n ih =>
    cases hb : body s with
    | inl t =>
      obtain ⟨ht, hd⟩ := hon s t hs hb
      rw [loop_on hb, hd]
      exact ih _ (hn ▸ hμ s t hb) ht rfl
    | inr r =>
      rw [loop_out hb]
      exact hout s r hs hb x

end PickUpLight.Theory
