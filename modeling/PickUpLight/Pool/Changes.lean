import PickUpLight.Pool.ThreadPool
import Mathlib.Data.List.Basic

/-!
# The changes of the pool

Every move of a worker, of the manager and of `add_task` is put together from a few
changes of the state: a point set, a task pushed or popped, a retirement given up, a
worker retired, a task done, workers added, all workers notified. `Kept I` says that
each of them keeps `I`; `Kept.step` follows the moves once for all invariants, and
`Kept.run` follows the runs up to the destructor.
-/

namespace PickUpLight.Pool

open PickUpLight.Theory ThreadPool

variable {τ : Type} {s s' : ThreadPool τ} {w : ℕ} {p q : Point τ}

/-- It is in `worker_execute` and has no task. -/
def Point.idle : Point τ → Bool
  | .top | .waiting | .notified => true
  | _ => false

/-- **Every change keeps `I`.** -/
structure Kept (I : ThreadPool τ → Prop) : Prop where
  /-- An idle worker goes to another idle point. -/
  setPoint : ∀ {s : ThreadPool τ} {w : ℕ} {p : Point τ} (q : Point τ), I s →
    s.workers[w]? = some p →
    p.idle = true → q.idle = true → I (s.setPoint w q)
  /-- A task is accepted. -/
  push : ∀ {s : ThreadPool τ} (task : τ), I s →
    I { s with taskQ := s.taskQ ++ [task], accepted := s.accepted ++ [task] }
  /-- An idle worker pops a task. -/
  pop : ∀ {s : ThreadPool τ} {w : ℕ} {p : Point τ} {task : τ} {taskQ : List τ}, I s →
    s.workers[w]? = some p → p.idle = true → s.taskQ = task :: taskQ →
    I ({ s with
      taskQ := taskQ
      busy_num := s.busy_num + 1
      popped := s.popped ++ [(w, task)] }.setPoint w (.running s.popped.length task))
  /-- A worker takes one of the retirements asked for. -/
  destroyed : ∀ {s : ThreadPool τ}, I s → s.destroy_num > 0 →
    I { s with destroy_num := s.destroy_num - 1 }
  /-- An idle worker retires. -/
  retire : ∀ {s : ThreadPool τ} {w : ℕ} {p : Point τ}, I s → s.workers[w]? = some p →
    p.idle = true → s.live_num > s.min_num → I (s.retire w)
  /-- A worker has run its task. -/
  task : ∀ {s : ThreadPool τ} {w k : ℕ} {t : τ}, I s → s.workers[w]? = some (.running k t) →
    I ({ s with ran := s.ran ++ [(k, w)] }.setPoint w .finished)
  /-- A worker is done with its task. -/
  finish : ∀ {s : ThreadPool τ} {w : ℕ}, I s → s.workers[w]? = some .finished →
    I ({ s with busy_num := s.busy_num - 1 }.setPoint w .top)
  /-- The manager adds workers. -/
  grow : ∀ {s : ThreadPool τ}, I s → I s.grow
  /-- The manager asks for retirements. -/
  shrink : ∀ {s : ThreadPool τ}, I s → I s.shrink

/-- The moves of the destructor. -/
def Move.ofDestructor : Move τ → Bool
  | .destroy | .join_manager | .notify_all | .join_worker => true
  | _ => false

namespace Kept

variable {I : ThreadPool τ → Prop}

/-- A worker at the condition of its inner loop. -/
theorem loopHead (hI : Kept I) (h : I s) (hs : s.shutdown = false) (hw : s.workers[w]? = some p)
    (hp : p.idle = true) : I (s.loopHead w) := by
  unfold ThreadPool.loopHead
  rw [if_neg (by simp [hs])]
  split
  · exact hI.setPoint .waiting h hw hp rfl
  · rename_i task taskQ hq
    exact hI.pop h hw hp hq

/-- A worker back from `wait`. -/
theorem afterWait (hI : Kept I) (h : I s) (hs : s.shutdown = false) (hw : s.workers[w]? = some p)
    (hp : p.idle = true) : I (s.afterWait w) := by
  unfold ThreadPool.afterWait
  by_cases hd : s.destroy_num > 0
  · rw [if_pos hd]
    have hd' := hI.destroyed h hd
    by_cases hlive : s.live_num > s.min_num
    · rw [if_pos hlive]
      exact hI.retire hd' hw hp hlive
    · rw [if_neg hlive]
      exact hI.loopHead hd' hs hw hp
  · rw [if_neg hd]
    exact hI.loopHead h hs hw hp

theorem notify_one (hI : Kept I) (h : I s) {woken : Option ℕ}
    (hn : s.notify_one woken = some s') : I s' := by
  cases woken with
  | none =>
    simp only [ThreadPool.notify_one] at hn
    split at hn <;> cases hn
    exact h
  | some w =>
    simp only [ThreadPool.notify_one] at hn
    split at hn <;> cases hn
    rename_i hw
    exact hI.setPoint .notified h hw rfl rfl

/-- A round of the manager. -/
theorem tick (hI : Kept I) (h : I s) (hs : s.shutdown = false) : I s.tick := by
  have hgrow : I s.growIfNeeded := by
    unfold ThreadPool.growIfNeeded
    split
    · exact hI.grow h
    · exact h
  unfold ThreadPool.tick
  rw [if_neg (by simp [hs])]
  unfold ThreadPool.shrinkIfIdle
  split
  · exact hI.shrink hgrow
  · exact hgrow

/-- **The moves of all threads but the destructor's keep what the changes keep.** -/
theorem step (hI : Kept I) (h : I s) (hs : s.shutdown = false) {m : Move τ}
    (hd : m.ofDestructor = false) (hm : pool τ s m = some s') : I s' := by
  cases m with
  | add_task task woken =>
    simp only [pool, ThreadPool.add_task] at hm
    rw [if_neg (by simp [hs])] at hm
    exact hI.notify_one (hI.push task h) hm
  | lock w =>
    simp only [pool] at hm
    split at hm <;> cases hm
    rename_i hw
    exact hI.loopHead h hs hw rfl
  | wake w =>
    simp only [pool] at hm
    split at hm <;> cases hm
    rename_i hw
    exact hI.afterWait h hs hw rfl
  | spurious w =>
    simp only [pool] at hm
    split at hm <;> cases hm
    rename_i hw
    exact hI.afterWait h hs hw rfl
  | task w =>
    simp only [pool] at hm
    split at hm <;> cases hm
    rename_i hw
    exact hI.task h hw
  | finish w =>
    simp only [pool] at hm
    split at hm <;> cases hm
    rename_i hw
    exact hI.finish h hw
  | tick =>
    simp only [pool] at hm
    split at hm <;> cases hm
    exact hI.tick h hs
  | destroy | join_manager | notify_all | join_worker => cases hd

end Kept

/-! ### While the pool shuts down -/

/-- How much a worker has still to do before it has left. -/
def Point.rank : Point τ → ℕ
  | .exited => 0
  | .top | .notified => 1
  | .waiting | .finished => 2
  | .running _ _ => 3

/-- **The moves while the pool shuts down.** Tasks are refused, workers only get closer
to leaving, the manager leaves, and the destructor goes through its joins. -/
inductive Winds : ThreadPool τ → Move τ → ThreadPool τ → Prop where
  /-- A task is refused. -/
  | refused {s : ThreadPool τ} (task : τ) (woken : Option ℕ) : Winds s (.add_task task woken) s
  /-- A worker moves towards the end, and does not go to sleep. -/
  | worker {s : ThreadPool τ} {m : Move τ} {w : ℕ} {p q : Point τ} (ran : List (ℕ × ℕ))
    (busy_num : ℤ)
      (hw : s.workers[w]? = some p) (hrank : q.rank < p.rank) (hq : q ≠ .waiting) :
      Winds s m { s with ran := ran, busy_num := busy_num, workers := s.workers.set w q }
  /-- The manager leaves. -/
  | manager {s : ThreadPool τ} (hm : s.managing = true) : Winds s .tick { s with managing := false }
  /-- The destructor has joined the manager. -/
  | join_manager {s : ThreadPool τ} (hd : s.destructor = .joiningManager)
    (hm : s.managing = false) :
      Winds s .join_manager { s with destructor := .notifying }
  /-- The destructor notifies all workers. -/
  | notify_all {s : ThreadPool τ} (hd : s.destructor = .notifying) :
      Winds s .notify_all { s.notify_all with destructor := .joining 0 }
  /-- The destructor is past the last slot. -/
  | past {s : ThreadPool τ} {i : ℕ} (hd : s.destructor = .joining i)
      (hi : s.worker_threads[i]? = none) : Winds s .join_worker { s with destructor := .returned }
  /-- The destructor passes over a slot. -/
  | skip {s : ThreadPool τ} {i : ℕ} (hd : s.destructor = .joining i)
      (hi : s.worker_threads[i]? = some none) :
      Winds s .join_worker { s with destructor := .joining (i + 1) }
  /-- The destructor joins a worker that has left. -/
  | join {s : ThreadPool τ} {i w : ℕ} (hd : s.destructor = .joining i)
      (hi : s.worker_threads[i]? = some (some w)) (hw : s.workers[w]?.any Point.alive = false) :
      Winds s .join_worker
        { s with
          worker_threads := s.worker_threads.set i none
          joined := s.joined ++ [i]
          destructor := .joining (i + 1) }

/-- The destructor has set `shutdown`. -/
structure Down (s : ThreadPool τ) : Prop where
  /-- `shutdown` is set. -/
  shutdown : s.shutdown = true
  /-- No retirement is asked for. -/
  destroy_num : s.destroy_num = 0
  /-- The destructor has been called. -/
  called : s.destructor ≠ .notCalled

/-- A worker at the condition of its inner loop leaves. -/
theorem Down.loopHead (h : Down s) (w : ℕ) : s.loopHead w = s.setPoint w .exited := by
  unfold ThreadPool.loopHead
  rw [if_pos h.shutdown]

/-- So does a worker back from `wait`, and it does not retire. -/
theorem Down.afterWait (h : Down s) (w : ℕ) : s.afterWait w = s.setPoint w .exited := by
  have hd := h.destroy_num
  unfold ThreadPool.afterWait
  rw [if_neg (by omega), h.loopHead]

theorem Down.winds (h : Down s) {m : Move τ} (hm : pool τ s m = some s') : Winds s m s' := by
  cases m with
  | add_task task woken =>
    simp only [pool, ThreadPool.add_task, h.shutdown, if_true, Option.some.injEq] at hm
    subst hm
    exact .refused task woken
  | lock w =>
    simp only [pool] at hm
    split at hm <;> cases hm
    rename_i hw
    rw [h.loopHead]
    exact .worker s.ran s.busy_num hw (by simp [Point.rank]) (by simp)
  | wake w =>
    simp only [pool] at hm
    split at hm <;> cases hm
    rename_i hw
    rw [h.afterWait]
    exact .worker s.ran s.busy_num hw (by simp [Point.rank]) (by simp)
  | spurious w =>
    simp only [pool] at hm
    split at hm <;> cases hm
    rename_i hw
    rw [h.afterWait]
    exact .worker s.ran s.busy_num hw (by simp [Point.rank]) (by simp)
  | task w =>
    simp only [pool] at hm
    split at hm <;> cases hm
    rename_i k t hw
    exact .worker (s.ran ++ [(k, w)]) s.busy_num hw (by simp [Point.rank]) (by simp)
  | finish w =>
    simp only [pool] at hm
    split at hm <;> cases hm
    rename_i hw
    exact .worker s.ran (s.busy_num - 1) hw (by simp [Point.rank]) (by simp)
  | tick =>
    simp only [pool] at hm
    split at hm <;> cases hm
    rename_i hman
    have htick : s.tick = { s with managing := false } := by
      unfold ThreadPool.tick
      rw [if_pos h.shutdown]
    rw [htick]
    exact .manager hman
  | destroy =>
    simp only [pool] at hm
    split at hm <;> cases hm
    rename_i hd
    exact absurd hd h.called
  | join_manager =>
    simp only [pool] at hm
    split at hm <;> cases hm
    rename_i hd
    exact .join_manager hd.1 (by simpa using hd.2)
  | notify_all =>
    simp only [pool] at hm
    split at hm <;> cases hm
    rename_i hd
    exact .notify_all hd
  | join_worker =>
    simp only [pool] at hm
    split at hm
    · rename_i i hd
      simp only [ThreadPool.join_worker] at hm
      split at hm
      · rename_i hi
        cases hm
        exact .past hd hi
      · rename_i hi
        cases hm
        exact .skip hd hi
      · rename_i v hi
        split at hm <;> cases hm
        rename_i halive
        exact .join hd hi (by simpa using halive)
    · cases hm

theorem Down.step (h : Down s) {m : Move τ} (hm : pool τ s m = some s') : Down s' := by
  cases h.winds hm with
  | refused => exact h
  | worker => exact ⟨h.shutdown, h.destroy_num, h.called⟩
  | manager => exact ⟨h.shutdown, h.destroy_num, h.called⟩
  | join_manager | notify_all | past | skip | join => exact ⟨h.shutdown, h.destroy_num, by simp⟩

/-! ### Runs -/

/-- The destructor has not been called. -/
structure Up (s : ThreadPool τ) : Prop where
  /-- `shutdown` is not set. -/
  shutdown : s.shutdown = false
  /-- The destructor has not been called. -/
  destructor : s.destructor = .notCalled
  /-- The manager is in its loop. -/
  managing : s.managing = true
  /-- No worker has been joined. -/
  joined : s.joined = []

theorem kept_up : Kept (fun s : ThreadPool τ => Up s) where
  setPoint _ h _ _ _ := ⟨h.shutdown, h.destructor, h.managing, h.joined⟩
  push _ h := ⟨h.shutdown, h.destructor, h.managing, h.joined⟩
  pop h _ _ _ := ⟨h.shutdown, h.destructor, h.managing, h.joined⟩
  destroyed h _ := ⟨h.shutdown, h.destructor, h.managing, h.joined⟩
  retire h _ _ _ := ⟨h.shutdown, h.destructor, h.managing, h.joined⟩
  task h _ := ⟨h.shutdown, h.destructor, h.managing, h.joined⟩
  finish h _ := ⟨h.shutdown, h.destructor, h.managing, h.joined⟩
  grow h := ⟨h.shutdown, h.destructor, h.managing, h.joined⟩
  shrink h := ⟨h.shutdown, h.destructor, h.managing, h.joined⟩

/-- Before the destructor is called, `I` holds. -/
def UpTo (I : ThreadPool τ → Prop) (s : ThreadPool τ) : Prop := Up s ∧ I s ∨ Down s

theorem UpTo.of_up {I : ThreadPool τ → Prop} (h : UpTo I s) (hs : s.shutdown = false) :
    Up s ∧ I s := by
  rcases h with h | h
  · exact h
  · exact absurd (h.shutdown.symm.trans hs) (by decide)

/-- **Every move keeps, up to the destructor, what the changes keep.** -/
theorem Kept.upTo_step {I : ThreadPool τ → Prop} (hI : Kept I) (h : UpTo I s) {m : Move τ}
    (hm : pool τ s m = some s') : UpTo I s' := by
  rcases h with ⟨hup, h⟩ | h
  · by_cases hd : m.ofDestructor = false
    · exact .inl ⟨kept_up.step hup hup.shutdown hd hm, hI.step h hup.shutdown hd hm⟩
    · cases m with
      | destroy =>
        simp only [pool, hup.destructor, if_true, Option.some.injEq] at hm
        subst hm
        exact .inr ⟨rfl, rfl, by simp⟩
      | join_manager => simp [pool, hup.destructor] at hm
      | notify_all => simp [pool, hup.destructor] at hm
      | join_worker => simp [pool, hup.destructor] at hm
      | _ => exact absurd rfl hd
  · exact .inr (h.step hm)

theorem up_construct (τ : Type) (n : ℕ) : Up (construct τ n) := ⟨rfl, rfl, rfl, rfl⟩

theorem Kept.upTo_run {I : ThreadPool τ → Prop} (hI : Kept I) {n : ℕ} (h : I (construct τ n))
    {ms : List (Move τ)} (hrun : (pool τ).exec (construct τ n) ms = some s) : UpTo I s := by
  refine (pool τ).exec_inv (I := UpTo I) ?_ (.inl ⟨up_construct τ n, h⟩) hrun
  intro t m t' ht hm
  exact hI.upTo_step ht hm

end PickUpLight.Pool
