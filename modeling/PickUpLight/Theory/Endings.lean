import PickUpLight.Theory.Surroundings

/-!
# Programs that end

`Ends answer Q s p` says of one run what `Sure` says of all: in these surroundings, from this state,
the program does not fail, and it ends with `Q`. It goes backwards through the constructs programs
are written with, so that what it takes for a program to end can be read off the program
(`ends_bind`, `ends_ofOption`).

`Comes answer quiet s p t q` says that a run of one program is, after some quiet effects, a run of
another.
-/

namespace PickUpLight.Theory.Program

variable {E : Type} {R : E → Type} {α β σ τ : Type}

/-- It does not fail, and ends with `Q`. -/
def Ends (answer : σ → (e : E) → σ × R e) (Q : σ → α → Prop) : σ → Program E R α → Prop
  | s, ret a => Q s a
  | _, fail => False
  | s, call e next => Ends answer Q (answer s e).1 (next (answer s e).2)

section Ends

variable {answer : σ → (e : E) → σ × R e} {Q : σ → α → Prop} {s : σ} {p : Program E R α}

@[simp] theorem ends_ret {a : α} : Ends answer Q s (ret a) ↔ Q s a := Iff.rfl

@[simp] theorem ends_fail : Ends answer Q s fail ↔ False := Iff.rfl

@[simp] theorem ends_call {e : E} {next : R e → Program E R α} :
    Ends answer Q s (call e next) ↔ Ends answer Q (answer s e).1 (next (answer s e).2) := Iff.rfl

theorem ends_bind {f : α → Program E R β} {Q : σ → β → Prop} :
    Ends answer Q s (p >>= f) ↔ Ends answer (fun t a => Ends answer Q t (f a)) s p := by
  induction p generalizing s with
  | ret a => rfl
  | fail => rfl
  | call e next ih => exact ih _

theorem ends_ofOption {a : Option α} :
    Ends answer Q s (ofOption a) ↔ ∃ x, a = some x ∧ Q s x := by
  cases a <;> simp

/-- A value that is needed, and the rest of the program. -/
theorem ends_ofOption_bind {a : Option α} {f : α → Program E R β} {Q : σ → β → Prop} :
    Ends answer Q s (ofOption a >>= f) ↔ ∃ x, a = some x ∧ Ends answer Q s (f x) := by
  rw [ends_bind, ends_ofOption]

/-- A program that ends, ends with its value. -/
theorem ends_iff_run : Ends answer Q s p ↔
    ∃ a, (run answer s p).2.2 = some a ∧ Q (run answer s p).2.1 a := by
  induction p generalizing s with
  | ret a => simp [run]
  | fail => simp [run]
  | call e next ih => exact ih _

/-- Two surroundings that answer alike. -/
theorem ends_related {answer' : τ → (e : E) → τ × R e} {Q' : τ → α → Prop} {r : σ → τ → Prop}
    (hr : ∀ s t e, r s t → (answer s e).2 = (answer' t e).2 ∧ r (answer s e).1 (answer' t e).1)
    (hQ : ∀ s t a, r s t → (Q s a ↔ Q' t a)) {t : τ} (h : r s t) :
    Ends answer Q s p ↔ Ends answer' Q' t p := by
  induction p generalizing s t with
  | ret a => exact hQ s t a h
  | fail => rfl
  | call e next ih =>
    obtain ⟨hsame, hnext⟩ := hr s t e h
    rw [ends_call, ends_call, hsame]
    exact ih _ hnext

end Ends

/-! ### Programs that come to others -/

/-- After some quiet effects, the run of the one program is the run of the other. -/
inductive Comes (answer : σ → (e : E) → σ × R e) (quiet : E → Prop) :
    σ → Program E R α → σ → Program E R α → Prop where
  /-- It is the other already. -/
  | refl (s : σ) (p : Program E R α) : Comes answer quiet s p s p
  /-- A quiet effect. -/
  | call {s t : σ} {e : E} {next : R e → Program E R α} {q : Program E R α} (he : quiet e)
    (h : Comes answer quiet (answer s e).1 (next (answer s e).2) t q) :
      Comes answer quiet s (call e next) t q

section Comes

variable {answer : σ → (e : E) → σ × R e} {quiet : E → Prop} {s t : σ} {p q : Program E R α}

theorem Comes.ends_iff (h : Comes answer quiet s p t q) {Q : σ → α → Prop} :
    Ends answer Q s p ↔ Ends answer Q t q := by
  induction h with
  | refl => rfl
  | call _ _ ih => exact ih

end Comes

end PickUpLight.Theory.Program
