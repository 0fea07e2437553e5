import PickUpLight.Theory.Machine
import PickUpLight.Theory.Program

/-!
# Threads

Programs that run side by side and share a store: a turn lets one of them have its next
effect, which is atomic. `interleave` is the machine of the turns; all interleavings of
the programs are its runs.

A program is a function of the answers it gets, which is what a run needs and not what an
invariant is stated with. `Stages` names the points a program can be at. The machine of
the stages, `staged`, is the machine of the programs (`interleave_threads`), so what is
proved of the stages holds of the programs.
-/

namespace PickUpLight.Theory

/-- Threads on a store, with what they have asked and been answered, in order. -/
structure Threads (σ E : Type) (R : E → Type) (α : Type) where
  /-- The store they share. -/
  store : σ
  /-- What each has still to do. -/
  threads : List (Program E R α)
  /-- History: the thread, its effect and the answer. -/
  log : List (ℕ × (e : E) × R e)

variable {σ E H α S : Type} {R : E → Type}

/-- Thread `k` is about to have an effect. -/
def Threads.asks (s : Threads σ E R α) (k : ℕ) (e : E) : Prop :=
  ∃ next, s.threads[k]? = some (Program.call e next)

/-- **The interleavings of programs**: in a turn `(k, h)`, thread `k` has its next effect, and
`h` is what the effect meets. -/
def interleave (perform : σ → (e : E) → H → σ × R e) : Machine (Threads σ E R α) (ℕ × H) :=
  fun s turn =>
    match s.threads[turn.1]? with
    | some (.call e next) =>
      let done := perform s.store e turn.2
      some {
        store := done.1
        threads := s.threads.set turn.1 (next done.2)
        log := s.log ++ [(turn.1, ⟨e, done.2⟩)] }
    | _ => none

/-- A turn: thread `k` was about to have an effect, and has had it. -/
theorem interleave_eq_some {perform : σ → (e : E) → H → σ × R e} {s s' : Threads σ E R α} {k : ℕ}
    {h : H} :
    interleave perform s (k, h) = some s' ↔ ∃ e next, s.threads[k]? = some (.call e next) ∧ s' =
      { store := (perform s.store e h).1
        threads := s.threads.set k (next (perform s.store e h).2)
        log := s.log ++ [(k, ⟨e, (perform s.store e h).2⟩)] } := by
  unfold interleave
  constructor
  · intro hturn
    split at hturn
    · rename_i e next hthread
      exact ⟨e, next, hthread, (Option.some.inj hturn).symm⟩
    · cases hturn
  · rintro ⟨e, next, hthread, rfl⟩
    simp only [hthread]

/-- **What every answer preserves of a thread**, every run preserves of all threads. -/
theorem interleave_threads_inv {perform : σ → (e : E) → H → σ × R e} {P : ℕ → Program E R α → Prop}
    (hP : ∀ k e next, P k (.call e next) → ∀ r, P k (next r)) {s s' : Threads σ E R α}
    {turns : List (ℕ × H)} (hs : ∀ k p, s.threads[k]? = some p → P k p)
    (hrun : (interleave perform).exec s turns = some s') :
    ∀ k p, s'.threads[k]? = some p → P k p := by
  refine Machine.exec_inv (interleave perform) (I := fun s => ∀ k p, s.threads[k]? = some p →
    P k p) ?_ hs hrun
  rintro s ⟨i, h⟩ s' hs hturn k p hp
  obtain ⟨e, next, hthread, rfl⟩ := interleave_eq_some.mp hturn
  by_cases hki : k = i
  · subst hki
    have hlt : k < s.threads.length := (List.getElem?_eq_some_iff.mp hthread).1
    rw [List.getElem?_set_self hlt, Option.some.injEq] at hp
    exact hp ▸ hP k e next (hs k _ hthread) _
  · rw [List.getElem?_set_ne (Ne.symm hki)] at hp
    exact hs k p hp

/-! ### Stages -/

/-- The points a program can be at, each with the effect it asks for next, if any, and where it
goes from the answer. -/
structure Stages (E : Type) (R : E → Type) (α S : Type) where
  /-- What is left to do. -/
  program : S → Program E R α
  /-- The next effect, and the point after it. -/
  next : S → Option ((e : E) × (R e → S))
  /-- The program asks for the effect and goes on from the point after it. -/
  program_of_some : ∀ s e after, next s = some ⟨e, after⟩ →
    program s = .call e fun r => program (after r)
  /-- Where there is no effect, the program is over. -/
  program_of_none : ∀ s, next s = none → ∀ e after, program s ≠ .call e after

/-- Threads by their stages. -/
structure Staged (σ E : Type) (R : E → Type) (S : Type) where
  /-- The store they share. -/
  store : σ
  /-- Where each is. -/
  stages : List S
  /-- History: the thread, its effect and the answer. -/
  log : List (ℕ × (e : E) × R e)

namespace Stages

variable (st : Stages E R α S) (perform : σ → (e : E) → H → σ × R e)

/-- The threads that are at these stages. -/
def threads (s : Staged σ E R S) : Threads σ E R α where
  store := s.store
  threads := s.stages.map st.program
  log := s.log

/-- The interleavings of the threads, by their stages. -/
def staged : Machine (Staged σ E R S) (ℕ × H) := fun s turn =>
  (s.stages[turn.1]?).bind fun stage => (st.next stage).map fun effect =>
    let done := perform s.store effect.1 turn.2
    { store := done.1
      stages := s.stages.set turn.1 (effect.2 done.2)
      log := s.log ++ [(turn.1, ⟨effect.1, done.2⟩)] }

/-- A turn, from the stages: thread `k` was at a stage with an effect, and has had it. -/
theorem staged_eq_some {s s' : Staged σ E R S} {k : ℕ} {h : H} :
    st.staged perform s (k, h) = some s' ↔ ∃ stage e after, s.stages[k]? = some stage ∧
      st.next stage = some ⟨e, after⟩ ∧
      s' = { store := (perform s.store e h).1
             stages := s.stages.set k (after (perform s.store e h).2)
             log := s.log ++ [(k, ⟨e, (perform s.store e h).2⟩)] } := by
  simp only [staged, Option.bind_eq_some_iff, Option.map_eq_some_iff]
  constructor
  · rintro ⟨stage, hstage, ⟨e, after⟩, he, rfl⟩
    exact ⟨stage, e, after, hstage, he, rfl⟩
  · rintro ⟨stage, e, after, hstage, he, rfl⟩
    exact ⟨stage, hstage, ⟨e, after⟩, he, rfl⟩

/-- A thread at a stage with an effect is about to have it. -/
theorem asks_threads {s : Staged σ E R S} {k : ℕ} {stage : S} {e : E} {after : R e → S}
    (hk : s.stages[k]? = some stage) (he : st.next stage = some ⟨e, after⟩) :
    (st.threads s).asks k e := by
  refine ⟨fun r => st.program (after r), ?_⟩
  rw [← st.program_of_some stage e after he]
  simp only [threads, List.getElem?_map, hk, Option.map_some]

/-- **The stages are the programs**: a turn of the threads is a turn of their stages. -/
theorem interleave_threads (s : Staged σ E R S) (turn : ℕ × H) :
    interleave perform (st.threads s) turn = (st.staged perform s turn).map st.threads := by
  simp only [interleave, staged, threads, List.getElem?_map]
  cases hstage : s.stages[turn.1]? with
  | none => rfl
  | some stage =>
    simp only [Option.map_some, Option.bind_some]
    cases he : st.next stage with
    | none =>
      simp only [Option.map_none]
      split
      · rename_i e next hcall
        exact absurd (Option.some.inj hcall) (st.program_of_none stage he e next)
      · rfl
    | some effect =>
      obtain ⟨e, after⟩ := effect
      rw [st.program_of_some stage e after he]
      simp only [Option.map_some, threads, List.map_set]

/-- What is invariant of the stages is invariant of the threads, in the runs whose turns
all meet a condition. -/
theorem exec_inv {I : Staged σ E R S → Prop} {G : Threads σ E R α → ℕ × H → Prop}
    (hI : ∀ s turn s', I s → G (st.threads s) turn → st.staged perform s turn = some s' → I s')
    {s : Staged σ E R S} {t : Threads σ E R α} {turns : List (ℕ × H)} (hs : I s)
    (hG : (interleave perform).Guarded G (st.threads s) turns)
    (hrun : (interleave perform).exec (st.threads s) turns = some t) :
    ∃ s', I s' ∧ t = st.threads s' := by
  have hf := st.interleave_threads perform
  rw [Machine.exec_map _ hf, Option.map_eq_some_iff] at hrun
  obtain ⟨s', hrun, rfl⟩ := hrun
  rw [Machine.guarded_map _ hf] at hG
  exact ⟨s', Machine.exec_inv_guarded _ hI hs hG hrun, rfl⟩

end Stages

end PickUpLight.Theory
