import Mathlib.Algebra.Order.Ring.Nat
import Mathlib.Data.List.Basic
import Mathlib.Data.List.Induction

/-!
# Machines

A program whose parts take turns is a machine: a state, and moves that take the
machine from one state to the next. Whatever is undetermined (which thread runs,
how many bytes arrive, what a server answers) is part of the move, so a move
leads to at most one state and a run is the list of its moves. "Every
interleaving" is then every list of moves, and a run can be computed.

Three rules carry the developments that use this module:

* `exec_inv` — what every move preserves holds in every state a run reaches;
* `exec_inv_guarded` — the same, for the runs whose moves all meet a condition;
* `along_iff_guarded` — when a condition on moves is exactly what keeps a
  property from one state to the next, a run has the property in all of its
  states exactly when all of its moves meet the condition.
-/

namespace PickUpLight.Theory

universe u v

/-- A machine: the state after a move, `none` where the move cannot be made. -/
def Machine (σ : Type u) (ℓ : Type v) := σ → ℓ → Option σ

namespace Machine

variable {σ : Type u} {ℓ : Type v} (M : Machine σ ℓ)

/-- The state after a list of moves, made one after the other. -/
def exec : σ → List ℓ → Option σ
  | s, [] => some s
  | s, l :: ls => (M s l).bind fun t => exec t ls

@[simp] theorem exec_nil (s : σ) : M.exec s [] = some s := rfl

theorem exec_cons (s : σ) (l : ℓ) (ls : List ℓ) :
    M.exec s (l :: ls) = (M s l).bind fun t => M.exec t ls := rfl

theorem exec_cons_iff {s s' : σ} {l : ℓ} {ls : List ℓ} :
    M.exec s (l :: ls) = some s' ↔ ∃ t, M s l = some t ∧ M.exec t ls = some s' := by
  rw [exec_cons, Option.bind_eq_some_iff]

@[simp] theorem exec_singleton (s : σ) (l : ℓ) : M.exec s [l] = M s l := by
  rw [exec_cons]
  cases M s l <;> rfl

theorem exec_append (s : σ) (ls ms : List ℓ) :
    M.exec s (ls ++ ms) = (M.exec s ls).bind fun t => M.exec t ms := by
  induction ls generalizing s with
  | nil => rfl
  | cons l ls ih =>
    rw [List.cons_append, exec_cons, exec_cons]
    cases M s l with
    | none => rfl
    | some t => exact ih t

/-- A run followed by a run. -/
theorem exec_trans {s t s' : σ} {ls ms : List ℓ} (h : M.exec s ls = some t)
    (h' : M.exec t ms = some s') : M.exec s (ls ++ ms) = some s' := by
  rw [exec_append, h]
  exact h'

/-- **Invariants**: what every move preserves, every run preserves. -/
theorem exec_inv {I : σ → Prop} (hI : ∀ s l s', I s → M s l = some s' → I s') {s s' : σ}
    {ls : List ℓ} (hs : I s) (h : M.exec s ls = some s') : I s' := by
  induction ls generalizing s with
  | nil => cases h; exact hs
  | cons l ls ih =>
    obtain ⟨t, ht, h⟩ := (M.exec_cons_iff).mp h
    exact ih (hI s l t hs ht) h

/-- **Runs come to an end**: where every move makes `μ` smaller, a run has no more moves than `μ`
was. -/
theorem exec_length_le {I : σ → Prop} {μ : σ → ℕ}
    (hI : ∀ s l s', I s → M s l = some s' → I s' ∧ μ s' < μ s) {s s' : σ} {ls : List ℓ}
    (hs : I s) (h : M.exec s ls = some s') : ls.length ≤ μ s := by
  induction ls generalizing s with
  | nil => exact Nat.zero_le _
  | cons l ls ih =>
    obtain ⟨t, ht, h⟩ := (M.exec_cons_iff).mp h
    obtain ⟨hIt, hlt⟩ := hI s l t hs ht
    have hlen : ls.length ≤ μ t := ih hIt h
    rw [List.length_cons]
    omega

/-- **Invariants about the past**: what holds of the empty run, and of a run with one more move when
it holds of the run, holds of every run and the state it reaches. -/
theorem exec_history {P : List ℓ → σ → Prop} {s₀ s : σ} {ls : List ℓ} (h₀ : P [] s₀)
    (hP : ∀ ls s l s', M.exec s₀ ls = some s → P ls s → M s l = some s' → P (ls ++ [l]) s')
    (h : M.exec s₀ ls = some s) : P ls s := by
  induction ls using List.reverseRecOn generalizing s with
  | nil => cases h; exact h₀
  | append_singleton ls l ih =>
    rw [exec_append] at h
    obtain ⟨t, ht, h⟩ := Option.bind_eq_some_iff.mp h
    rw [exec_singleton] at h
    exact hP ls t l s ht (ih ht) h

/-! ### Conditions on moves -/

/-- Every move of the run from `s` meets `G` in the state it is made in. -/
def Guarded (G : σ → ℓ → Prop) : σ → List ℓ → Prop
  | _, [] => True
  | s, l :: ls => G s l ∧ ∀ t, M s l = some t → Guarded G t ls

/-- `P` holds in every state the run from `s` goes through, the first and the
last included. -/
def Along (P : σ → Prop) : σ → List ℓ → Prop
  | s, [] => P s
  | s, l :: ls => P s ∧ ∀ t, M s l = some t → Along P t ls

theorem guarded_cons_iff {G : σ → ℓ → Prop} {s t : σ} {l : ℓ} {ls : List ℓ} (h : M s l = some t) :
    M.Guarded G s (l :: ls) ↔ G s l ∧ M.Guarded G t ls := by
  simp only [Guarded, h, Option.some.injEq, forall_eq']

@[simp] theorem guarded_nil {G : σ → ℓ → Prop} {s : σ} : M.Guarded G s [] := trivial

@[simp] theorem guarded_singleton {G : σ → ℓ → Prop} {s : σ} {l : ℓ} :
    M.Guarded G s [l] ↔ G s l := by
  simp [Guarded]

theorem guarded_append_iff {G : σ → ℓ → Prop} {s t : σ} {ls ms : List ℓ}
    (h : M.exec s ls = some t) :
    M.Guarded G s (ls ++ ms) ↔ M.Guarded G s ls ∧ M.Guarded G t ms := by
  induction ls generalizing s with
  | nil => cases h; exact (and_iff_right trivial).symm
  | cons l ls ih =>
    obtain ⟨u, hu, h⟩ := (M.exec_cons_iff).mp h
    rw [List.cons_append, M.guarded_cons_iff hu, M.guarded_cons_iff hu, ih h, and_assoc]

/-- A move of the run meets the condition in some state. -/
theorem Guarded.of_mem {G : σ → ℓ → Prop} {s s' : σ} {l : ℓ} {ls : List ℓ} (hg : M.Guarded G s ls)
    (h : M.exec s ls = some s') (hl : l ∈ ls) : ∃ t, G t l := by
  induction ls generalizing s with
  | nil => cases hl
  | cons m ls ih =>
    obtain ⟨t, ht, h⟩ := (M.exec_cons_iff).mp h
    rcases List.mem_cons.mp hl with rfl | hl
    · exact ⟨s, hg.1⟩
    · exact ih (hg.2 t ht) h hl

/-- A weaker condition. -/
theorem Guarded.mono {G G' : σ → ℓ → Prop} (h : ∀ s l, G s l → G' s l) {s : σ} {ls : List ℓ}
    (hg : M.Guarded G s ls) : M.Guarded G' s ls := by
  induction ls generalizing s with
  | nil => trivial
  | cons l ls ih => exact ⟨h s l hg.1, fun t ht => ih (hg.2 t ht)⟩

/-- Whether a run is guarded can be computed where the condition can. -/
instance decidableGuarded {G : σ → ℓ → Prop} [∀ s l, Decidable (G s l)] :
    ∀ (s : σ) (ls : List ℓ), Decidable (M.Guarded G s ls)
  | _, [] => isTrue trivial
  | s, l :: ls =>
    match h : M s l with
    | none => decidable_of_iff (G s l) (by simp [Guarded, h])
    | some t =>
      have : Decidable (M.Guarded G t ls) := decidableGuarded t ls
      decidable_of_iff (G s l ∧ M.Guarded G t ls) (M.guarded_cons_iff h).symm

/-- A condition on the moves alone is met when all the moves of the run meet it. -/
theorem guarded_of_forall {G : ℓ → Prop} {s : σ} {ls : List ℓ} (h : ∀ l ∈ ls, G l) :
    M.Guarded (fun _ l => G l) s ls := by
  induction ls generalizing s with
  | nil => trivial
  | cons l ls ih =>
    exact ⟨h l (List.mem_cons_self ..), fun t _ => ih fun m hm => h m (List.mem_cons_of_mem _ hm)⟩

theorem along_cons_iff {P : σ → Prop} {s t : σ} {l : ℓ} {ls : List ℓ} (h : M s l = some t) :
    M.Along P s (l :: ls) ↔ P s ∧ M.Along P t ls := by
  simp only [Along, h, Option.some.injEq, forall_eq']

theorem Along.head {P : σ → Prop} {s : σ} {ls : List ℓ} (h : M.Along P s ls) : P s := by
  cases ls with
  | nil => exact h
  | cons l ls => exact h.1

/-- **Invariants under a condition**: what the moves that meet `G` preserve, the
runs whose moves all meet `G` preserve. -/
theorem exec_inv_guarded {I : σ → Prop} {G : σ → ℓ → Prop}
    (hI : ∀ s l s', I s → G s l → M s l = some s' → I s') {s s' : σ} {ls : List ℓ} (hs : I s)
    (hG : M.Guarded G s ls) (h : M.exec s ls = some s') : I s' := by
  induction ls generalizing s with
  | nil => cases h; exact hs
  | cons l ls ih =>
    obtain ⟨t, ht, h⟩ := (M.exec_cons_iff).mp h
    exact ih (hI s l t hs hG.1 ht) (hG.2 t ht) h

/-- **One condition from another**: what the invariant of the runs that meet `G` gives on every
move. -/
theorem Guarded.of_inv {I : σ → Prop} {G G' : σ → ℓ → Prop}
    (hI : ∀ s l s', I s → G s l → M s l = some s' → I s' ∧ G' s l) {s s' : σ} {ls : List ℓ}
    (hs : I s) (hG : M.Guarded G s ls) (h : M.exec s ls = some s') : M.Guarded G' s ls := by
  induction ls generalizing s with
  | nil => trivial
  | cons l ls ih =>
    obtain ⟨t, ht, h⟩ := (M.exec_cons_iff).mp h
    have hstep := hI s l t hs hG.1 ht
    exact (M.guarded_cons_iff ht).mpr ⟨hstep.2, ih hstep.1 (hG.2 t ht) h⟩

/-- **Exact conditions.** Let `I` be an invariant. If, from a state with `P`, a move
leads to a state with `P` exactly when it meets `G`, then a run that starts in `P`
stays in `P` exactly when all its moves meet `G`. -/
theorem along_iff_guarded {I P : σ → Prop} {G : σ → ℓ → Prop}
    (hI : ∀ s l s', I s → M s l = some s' → I s')
    (hP : ∀ s l s', I s → P s → M s l = some s' → (P s' ↔ G s l)) {s s' : σ} {ls : List ℓ}
    (hs : I s) (hp : P s) (h : M.exec s ls = some s') :
    M.Along P s ls ↔ M.Guarded G s ls := by
  induction ls generalizing s with
  | nil => exact ⟨fun _ => trivial, fun _ => hp⟩
  | cons l ls ih =>
    obtain ⟨t, ht, h⟩ := (M.exec_cons_iff).mp h
    rw [M.along_cons_iff ht, M.guarded_cons_iff ht]
    have hstep := hP s l t hs hp ht
    constructor
    · rintro ⟨-, ha⟩
      have hpt : P t := ha.head
      exact ⟨hstep.mp hpt, (ih (hI s l t hs ht) hpt h).mp ha⟩
    · rintro ⟨hg, hgs⟩
      exact ⟨hp, (ih (hI s l t hs ht) (hstep.mpr hg) h).mpr hgs⟩

/-- **The converse of a condition.** If a move that fails `G` leads to a state with
`B`, and `B` is never left, then a run that ends outside `B` has met `G` all along. -/
theorem guarded_of_not_bad {I B : σ → Prop} {G : σ → ℓ → Prop}
    (hI : ∀ s l s', I s → M s l = some s' → I s')
    (hB : ∀ s l s', I s → B s → M s l = some s' → B s')
    (hG : ∀ s l s', I s → M s l = some s' → ¬ G s l → B s') {s s' : σ} {ls : List ℓ}
    (hs : I s) (h : M.exec s ls = some s') (hn : ¬ B s') : M.Guarded G s ls := by
  induction ls generalizing s with
  | nil => trivial
  | cons l ls ih =>
    obtain ⟨t, ht, h⟩ := (M.exec_cons_iff).mp h
    rw [M.guarded_cons_iff ht]
    refine ⟨?_, ih (hI s l t hs ht) h⟩
    by_contra hg
    have hbt : I t ∧ B t := ⟨hI s l t hs ht, hG s l t hs ht hg⟩
    have hb : I s' ∧ B s' :=
      M.exec_inv (I := fun s => I s ∧ B s)
        (fun a m b ha hm => ⟨hI a m b ha.1 hm, hB a m b ha.1 ha.2 hm⟩) hbt h
    exact hn hb.2

/-! ### Two descriptions of one machine -/

section Refines

variable {τ : Type u} {N : Machine τ ℓ} {f : τ → σ}

/-- **Refinement by a function.** If `f` takes the moves of `N` to the moves of `M`, it
takes the runs of `N` to the runs of `M`. -/
theorem exec_map (hf : ∀ s l, M (f s) l = (N s l).map f) (s : τ) (ls : List ℓ) :
    M.exec (f s) ls = (N.exec s ls).map f := by
  induction ls generalizing s with
  | nil => rfl
  | cons l ls ih =>
    rw [exec_cons, exec_cons, hf]
    cases N s l with
    | none => rfl
    | some t => exact ih t

/-- Then a condition on the moves of `M` is one on the moves of `N`. -/
theorem guarded_map (hf : ∀ s l, M (f s) l = (N s l).map f) {G : σ → ℓ → Prop} {s : τ}
    {ls : List ℓ} :
    M.Guarded G (f s) ls ↔ N.Guarded (fun s l => G (f s) l) s ls := by
  induction ls generalizing s with
  | nil => exact Iff.rfl
  | cons l ls ih =>
    simp only [Guarded, hf, Option.map_eq_some_iff, forall_exists_index, and_imp,
      forall_apply_eq_imp_iff₂, ih]

end Refines

/-! ### Runs that end -/

/-- **Ranks.** If no move raises a rank and the moves of a kind lower it, a run makes at
most as many moves of that kind as the rank it used up. -/
theorem countP_le_of_rank {I : σ → Prop} {E : ℓ → Bool} {rank : σ → ℕ}
    (hI : ∀ s l s', I s → M s l = some s' → I s')
    (hrank : ∀ s l s', I s → M s l = some s' → rank s' + (E l).toNat ≤ rank s) {s s' : σ}
    {ls : List ℓ} (hs : I s) (h : M.exec s ls = some s') : ls.countP E + rank s' ≤ rank s := by
  induction ls generalizing s with
  | nil => cases h; simp
  | cons l ls ih =>
    obtain ⟨t, ht, h⟩ := (M.exec_cons_iff).mp h
    have hstep := hrank s l t hs ht
    have hrest := ih (hI s l t hs ht) h
    rw [List.countP_cons]
    cases hl : E l <;> simp only [hl, Bool.toNat_false, Bool.toNat_true] at hstep <;> simp <;> omega

end Machine

end PickUpLight.Theory
