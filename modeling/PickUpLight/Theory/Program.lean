import Mathlib.Algebra.Order.Ring.Nat
import Mathlib.Data.List.Basic

/-!
# Programs with effects

A sequential program that depends on its surroundings is a tree: it returns, it fails, or
it asks for an effect and goes on from the answer. What the surroundings answer is left
open until the program is run (`run`) or takes turns with others (`Threads`).

`Meets ok post p` says what a program does in all surroundings: it asks for effects that are
`ok` only, and returns values with `post`. `Alike refused p q` compares two programs: they do
the same as long as no answer is `refused`. Both go through the constructs programs are
written with.
-/

namespace PickUpLight.Theory

/-- A program with effects `E`, the answers to which are of types `R`. -/
inductive Program (E : Type) (R : E → Type) (α : Type) where
  /-- It returns. -/
  | ret (a : α)
  /-- It fails. -/
  | fail
  /-- It asks for an effect and goes on from the answer. -/
  | call (e : E) (next : R e → Program E R α)

namespace Program

variable {E : Type} {R : E → Type} {α β γ σ : Type}

/-- One program after another. -/
def bind : Program E R α → (α → Program E R β) → Program E R β
  | ret a, f => f a
  | fail, _ => fail
  | call e next, f => call e fun r => (next r).bind f

instance : Monad (Program E R) where
  pure := ret
  bind := bind

@[simp] theorem ret_bind (a : α) (f : α → Program E R β) : (ret a : Program E R α) >>= f = f a :=
  rfl

@[simp] theorem fail_bind (f : α → Program E R β) : (fail : Program E R α) >>= f = fail := rfl

@[simp] theorem call_bind (e : E) (next : R e → Program E R α) (f : α → Program E R β) :
    call e next >>= f = call e fun r => next r >>= f := rfl

theorem bind_assoc (p : Program E R α) (f : α → Program E R β) (g : β → Program E R γ) :
    p >>= f >>= g = p >>= fun a => f a >>= g := by
  induction p with
  | ret a => rfl
  | fail => rfl
  | call e next ih => exact congrArg (call e) (funext ih)

@[simp] theorem pure_eq (a : α) : (pure a : Program E R α) = ret a := rfl

theorem bind_ret (p : Program E R α) : (p >>= fun a => ret a) = p := by
  induction p with
  | ret a => rfl
  | fail => rfl
  | call e next ih => exact congrArg (call e) (funext ih)

/-- A value, where there is one. -/
def ofOption : Option α → Program E R α
  | some a => ret a
  | none => fail

@[simp] theorem ofOption_some (a : α) : (ofOption (some a) : Program E R α) = ret a := rfl

@[simp] theorem ofOption_none : (ofOption none : Program E R α) = fail := rfl

/-- A loop over a list that carries a value along. -/
def loop (f : β → α → Program E R β) : β → List α → Program E R β
  | b, [] => ret b
  | b, a :: as => f b a >>= fun b' => loop f b' as

@[simp] theorem loop_nil (f : β → α → Program E R β) (b : β) : loop f b [] = ret b := rfl

theorem loop_cons (f : β → α → Program E R β) (b : β) (a : α) (as : List α) :
    loop f b (a :: as) = f b a >>= fun b' => loop f b' as := rfl

/-! ### What a program does -/

/-- All effects the program asks for are `ok`, and all values it returns have `post`. -/
def Meets (ok : E → Prop) (post : α → Prop) : Program E R α → Prop
  | ret a => post a
  | fail => True
  | call e next => ok e ∧ ∀ r, Meets ok post (next r)

section Meets

variable {ok : E → Prop} {post : α → Prop} {post' : β → Prop}

theorem Meets.mono {ok' : E → Prop} (hok : ∀ e, ok e → ok' e) {p : Program E R α}
    (hp : Meets ok post p) :
    Meets ok' post p := by
  induction p with
  | ret a => exact hp
  | fail => trivial
  | call e next ih => exact ⟨hok e hp.1, fun r => ih r (hp.2 r)⟩

theorem Meets.bind {p : Program E R α} {f : α → Program E R β} (hp : Meets ok post p)
    (hf : ∀ a, post a → Meets ok post' (f a)) : Meets ok post' (p >>= f) := by
  induction p with
  | ret a => exact hf a hp
  | fail => trivial
  | call e next ih => exact ⟨hp.1, fun r => ih r (hp.2 r)⟩

theorem Meets.loop {f : β → α → Program E R β} (hf : ∀ b a, post' b → Meets ok post' (f b a))
    (as : List α) {b : β} (hb : post' b) : Meets ok post' (loop f b as) := by
  induction as generalizing b with
  | nil => exact hb
  | cons a as ih => exact Meets.bind (hf b a hb) fun _ hb' => ih hb'

theorem meets_ofOption {a : Option α} (h : ∀ x, a = some x → post x) :
    Meets ok post (ofOption a : Program E R α) := by
  cases a with
  | none => trivial
  | some x => exact h x rfl

end Meets

/-! ### Programs that do the same -/

/-- Two programs do the same as long as no answer is refused. -/
inductive Alike (refused : (e : E) → R e → Prop) : Program E R α → Program E R α → Prop where
  /-- They return the same. -/
  | ret (a : α) : Alike refused (ret a) (ret a)
  /-- They fail. -/
  | fail : Alike refused fail fail
  /-- They ask for the same, and do the same after every answer. -/
  | call (e : E) {next next' : R e → Program E R α}
    (h : ∀ r, ¬ refused e r → Alike refused (next r) (next' r)) :
    Alike refused (call e next) (call e next')

section Alike

variable {refused : (e : E) → R e → Prop} {p q : Program E R α} {f g : α → Program E R β}

theorem Alike.refl (p : Program E R α) : Alike refused p p := by
  induction p with
  | ret a => exact .ret a
  | fail => exact .fail
  | call e next ih => exact .call e fun r _ => ih r

theorem Alike.bind (hp : Alike refused p q) (hf : ∀ a, Alike refused (f a) (g a)) :
    Alike refused (p >>= f) (q >>= g) := by
  induction hp with
  | ret a => exact hf a
  | fail => exact .fail
  | call e _ ih => exact .call e ih

/-- The same, where both begin with the same program. -/
theorem Alike.after (p : Program E R α) (hf : ∀ a, Alike refused (f a) (g a)) :
    Alike refused (p >>= f) (p >>= g) :=
  (Alike.refl p).bind hf

end Alike

/-! ### Running a program -/

/-- A run of a program in surroundings with a state: what it asked and was answered, the
state afterwards, and its value, unless it failed. -/
def run (answer : σ → (e : E) → σ × R e) : σ → Program E R α → List ((e : E) × R e) × σ × Option α
  | s, ret a => ([], s, some a)
  | s, fail => ([], s, none)
  | s, call e next =>
    let (t, r) := answer s e
    let (rest, u, a) := run answer t (next r)
    (⟨e, r⟩ :: rest, u, a)

section Run

variable {refused : (e : E) → R e → Prop} {p : Program E R α} {answer : σ → (e : E) → σ × R e}

/-- An effect, and what comes after it. -/
theorem run_call (s : σ) (e : E) (next : R e → Program E R α) : (run answer s (call e next)).1 =
    ⟨e, (answer s e).2⟩ :: (run answer (answer s e).1 (next (answer s e).2)).1 := rfl

/-- A value that is only passed on asks for nothing more. -/
theorem run_bind_ret (f : α → β) (s : σ) :
    (run answer s (p >>= fun a => ret (f a))).1 = (run answer s p).1 := by
  induction p generalizing s with
  | ret a => rfl
  | fail => rfl
  | call e next ih =>
    rw [call_bind, run_call, run_call, ih]

/-- A program that returns, and what comes after it. -/
theorem run_bind {f : α → Program E R β} {s t : σ} {effects : List ((e : E) × R e)} {a : α}
    (h : run answer s p = (effects, t, some a)) :
    (run answer s (p >>= f)).1 = effects ++ (run answer t (f a)).1 := by
  induction p generalizing s effects with
  | ret b =>
    cases h
    rfl
  | fail => cases h
  | call e next ih =>
    simp only [run, Prod.mk.injEq] at h
    obtain ⟨rfl, hstate, hvalue⟩ := h
    rw [call_bind, run_call, ih _ (Prod.ext rfl (Prod.ext hstate hvalue)), List.cons_append]

/-- What a program asks for in a run is what it may ask for. -/
theorem Meets.run {ok : E → Prop} {post : α → Prop} (h : Meets ok post p) (s : σ) :
    ∀ x ∈ (run answer s p).1, ok x.1 := by
  induction p generalizing s with
  | ret a => exact fun x hx => absurd hx List.not_mem_nil
  | fail => exact fun x hx => absurd hx List.not_mem_nil
  | call e next ih =>
    rw [run_call]
    intro x hx
    rcases List.mem_cons.mp hx with rfl | hx
    · exact h.1
    · exact ih _ (h.2 _) _ x hx

/-- Programs that do the same have the same runs where no answer is refused. -/
theorem Alike.run {q : Program E R α} (hpq : Alike refused p q)
    (hok : ∀ s e, ¬ refused e (answer s e).2) (s : σ) :
    run answer s p = run answer s q := by
  induction hpq generalizing s with
  | ret a => rfl
  | fail => rfl
  | call e _ ih =>
    simp only [Program.run]
    rw [ih _ (hok s e)]

end Run

end Program

end PickUpLight.Theory
