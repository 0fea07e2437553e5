import PickUpLight.Theory.Program

/-!
# Programs in surroundings that keep a promise

`MeetsGiven given ok P p` says what a program does in surroundings whose answers are as `given`: it
asks for effects that are `ok` only, and returns values with `P`. `Meets` is the case of no promise.
`Sure given P p` says besides that it does not fail, and `Whole given lasting P p` that it does not
fail after a `lasting` effect: what fails has left everything as it was.
-/

namespace PickUpLight.Theory.Program

variable {E : Type} {R : E → Type} {α β σ : Type} {given : (e : E) → R e → Prop} {ok : E → Prop}
  {P : α → Prop}
  {Q : β → Prop}

/-- As long as the answers are as given, all effects are `ok`, and all values have `P`. -/
def MeetsGiven (given : (e : E) → R e → Prop) (ok : E → Prop) (P : α → Prop) : Program E R α → Prop
  | ret a => P a
  | fail => True
  | call e next => ok e ∧ ∀ r, given e r → MeetsGiven given ok P (next r)

theorem MeetsGiven.bind {p : Program E R α} {f : α → Program E R β} (hp : MeetsGiven given ok P p)
    (hf : ∀ a, P a → MeetsGiven given ok Q (f a)) : MeetsGiven given ok Q (p >>= f) := by
  induction p with
  | ret a => exact hf a hp
  | fail => trivial
  | call e next ih => exact ⟨hp.1, fun r hr => ih r (hp.2 r hr)⟩

theorem MeetsGiven.loop {f : β → α → Program E R β} (as : List α)
    (hf : ∀ b, ∀ a ∈ as, Q b → MeetsGiven given ok Q (f b a)) {b : β} (hb : Q b) :
    MeetsGiven given ok Q (loop f b as) := by
  induction as generalizing b with
  | nil => exact hb
  | cons a as ih =>
    refine MeetsGiven.bind (hf b a List.mem_cons_self hb) fun _ hb' => ?_
    exact ih (fun b a ha => hf b a (List.mem_cons_of_mem _ ha)) hb'

theorem meetsGiven_ofOption {a : Option α} (h : ∀ x, a = some x → P x) :
    MeetsGiven given ok P (ofOption a : Program E R α) := by
  cases a with
  | none => trivial
  | some x => exact h x rfl

/-- What a program asks for in a run is what it may ask for, where the promise is kept. -/
theorem MeetsGiven.run {p : Program E R α} {answer : σ → (e : E) → σ × R e}
    (h : MeetsGiven given ok P p) (hgiven : ∀ s e, given e (answer s e).2)
    (s : σ) : ∀ x ∈ (run answer s p).1, ok x.1 := by
  induction p generalizing s with
  | ret a => exact fun x hx => absurd hx List.not_mem_nil
  | fail => exact fun x hx => absurd hx List.not_mem_nil
  | call e next ih =>
    rw [run_call]
    intro x hx
    rcases List.mem_cons.mp hx with rfl | hx
    · exact h.1
    · exact ih _ (h.2 _ (hgiven s e)) _ x hx

/-! ### Programs that do not fail -/

/-- As long as the answers are as given, it does not fail, and all values have `P`. -/
def Sure (given : (e : E) → R e → Prop) (P : α → Prop) : Program E R α → Prop
  | ret a => P a
  | fail => False
  | call e next => ∀ r, given e r → Sure given P (next r)

theorem Sure.bind {p : Program E R α} {f : α → Program E R β} (hp : Sure given P p)
    (hf : ∀ a, P a → Sure given Q (f a)) : Sure given Q (p >>= f) := by
  induction p with
  | ret a => exact hf a hp
  | fail => exact hp.elim
  | call e next ih => exact fun r hr => ih r (hp r hr)

theorem Sure.loop {f : β → α → Program E R β} (as : List α)
    (hf : ∀ b, ∀ a ∈ as, Q b → Sure given Q (f b a)) {b : β} (hb : Q b) :
    Sure given Q (loop f b as) := by
  induction as generalizing b with
  | nil => exact hb
  | cons a as ih =>
    refine Sure.bind (hf b a List.mem_cons_self hb) fun _ hb' => ?_
    exact ih (fun b a ha => hf b a (List.mem_cons_of_mem _ ha)) hb'

/-! ### Programs that fail before they do anything -/

variable {lasting : E → Prop}

/-- As long as the answers are as given, it does not fail after a lasting effect, and all values
have `P`. -/
def Whole (given : (e : E) → R e → Prop) (lasting : E → Prop) (P : α → Prop) : Program E R α → Prop
  | ret a => P a
  | fail => True
  | call e next => ∀ r, given e r → Whole given lasting P (next r) ∧
    (lasting e → Sure given P (next r))

theorem Sure.whole {p : Program E R α} (h : Sure given P p) : Whole given lasting P p := by
  induction p with
  | ret a => exact h
  | fail => trivial
  | call e next ih => exact fun r hr => ⟨ih r (h r hr), fun _ => h r hr⟩

/-- First what does not last. -/
theorem Whole.before {p : Program E R α} {f : α → Program E R β}
    (hp : MeetsGiven given (fun e => ¬lasting e) P p)
    (hf : ∀ a, P a → Whole given lasting Q (f a)) : Whole given lasting Q (p >>= f) := by
  induction p with
  | ret a => exact hf a hp
  | fail => trivial
  | call e next ih => exact fun r hr => ⟨ih r (hp.2 r hr), fun hlasting => absurd hlasting hp.1⟩

/-- Then what cannot fail. -/
theorem Whole.bind {p : Program E R α} {f : α → Program E R β} (hp : Whole given lasting P p)
    (hf : ∀ a, P a → Sure given Q (f a)) : Whole given lasting Q (p >>= f) := by
  induction p with
  | ret a => exact (hf a hp).whole
  | fail => trivial
  | call e next ih =>
    exact fun r hr => ⟨ih r (hp r hr).1, fun hlasting => ((hp r hr).2 hlasting).bind hf⟩

theorem Sure.run {p : Program E R α} {answer : σ → (e : E) → σ × R e} (h : Sure given P p)
    (hgiven : ∀ s e, given e (answer s e).2) (s : σ) : (run answer s p).2.2 ≠ none := by
  induction p generalizing s with
  | ret a => exact Option.some_ne_none a
  | fail => exact h.elim
  | call e next ih => exact ih _ (h _ (hgiven s e)) _

/-- A run that fails has had no lasting effect, where the promise is kept. -/
theorem Whole.run {p : Program E R α} {answer : σ → (e : E) → σ × R e} (h : Whole given lasting P p)
    (hgiven : ∀ s e, given e (answer s e).2) {s : σ} (hfail : (run answer s p).2.2 = none) :
    ∀ x ∈ (run answer s p).1, ¬lasting x.1 := by
  induction p generalizing s with
  | ret a => exact fun x hx => absurd hx List.not_mem_nil
  | fail => exact fun x hx => absurd hx List.not_mem_nil
  | call e next ih =>
    obtain ⟨hnext, hsure⟩ := h _ (hgiven s e)
    rw [run_call]
    intro x hx
    rcases List.mem_cons.mp hx with rfl | hx
    · exact fun hlasting => (hsure hlasting).run hgiven _ hfail
    · exact ih _ hnext hfail x hx

end PickUpLight.Theory.Program
