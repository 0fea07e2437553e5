import PickUpLight.Pool.Changes
import PickUpLight.Theory.Roster
import Mathlib.Data.List.Perm.Basic

/-!
# The pool keeps its books

Up to the destructor, the counters of the pool count what they are named after, and its
queue loses and repeats no task. `Books` does not depend on the number of slots; who
owns which slot is the subject of `Slots`. Each change of the state is shown to keep the
books, and `kept_books` puts them together.
-/

namespace PickUpLight.Pool

open PickUpLight.Theory PickUpLight.Theory.Roster ThreadPool

variable {τ : Type} {s s' : ThreadPool τ} {w : ℕ} {p q : Point τ}

@[simp] theorem ThreadPool.setPoint_workers (s : ThreadPool τ) (w : ℕ) (p : Point τ) :
    (s.setPoint w p).workers = s.workers.set w p := rfl

/-! ### Points -/

theorem Point.idle_alive (h : p.idle = true) : p.alive = true := by
  cases p <;> simp_all [idle, alive]

theorem Point.idle_busy (h : p.idle = true) : p.busy = false := by cases p <;> simp_all [idle, busy]

theorem Point.idle_holds (h : p.idle = true) (k : ℕ) : p.holds k = false := by
  cases p <;> simp_all [idle, holds]

@[simp] theorem Point.alive_notify (p : Point τ) : p.notify.alive = p.alive := by cases p <;> rfl

@[simp] theorem Point.busy_notify (p : Point τ) : p.notify.busy = p.busy := by cases p <;> rfl

@[simp] theorem Point.holds_notify (k : ℕ) (p : Point τ) : p.notify.holds k = p.holds k := by
  cases p <;> rfl

theorem Point.notify_eq_running {k : ℕ} {t : τ} (h : p.notify = .running k t) :
    p = .running k t := by
  cases p <;> simp_all [notify]

/-! ### Counters, queue and history -/

/-- **The books.** -/
structure Books (s : ThreadPool τ) : Prop where
  /-- The least number of workers is the one the constructor set. -/
  min_num : s.min_num = MIN_THREAD_NUMBER
  /-- `live_num` is the number of workers that have not left. -/
  live : (s.workers.countP Point.alive : ℤ) = s.live_num
  /-- There are never fewer than the least number. -/
  min_le : s.min_num ≤ s.live_num
  /-- `busy_num` is the number of workers between a pop and their decrement. -/
  busy : (s.workers.countP Point.busy : ℤ) = s.busy_num
  /-- `destroy_num` is not negative. -/
  destroy_nonneg : 0 ≤ s.destroy_num
  /-- `destroy_num` is at most what the manager sets it to. -/
  destroy_le : s.destroy_num ≤ CHANGE_THREAD_NUMBER
  /-- What was accepted is what was popped, in order, and then the queue. -/
  queue : s.accepted = s.popped.map Prod.snd ++ s.taskQ
  /-- A popped task is held by one worker that has still to run it, or has been run once. -/
  once : ∀ k, s.ran.countP (fun r => r.1 == k) + s.workers.countP (Point.holds k) =
    if k < s.popped.length then 1 else 0
  /-- It was run by the worker that popped it. -/
  runner : ∀ k v : ℕ, (k, v) ∈ s.ran → s.popped[k]?.map Prod.fst = some v
  /-- It is held by the worker that popped it. -/
  holder : ∀ (v k : ℕ) (t : τ), s.workers[v]? = some (.running k t) → s.popped[k]? = some (v, t)

theorem books_construct (τ : Type) (n : ℕ) : Books (construct τ n) := by
  refine ⟨rfl, rfl, le_rfl, rfl, le_rfl, ?_, rfl, ?_, ?_, ?_⟩
  · show (0 : ℤ) ≤ CHANGE_THREAD_NUMBER
    decide
  · intro k
    simp [construct, List.countP_replicate, Point.holds]
  · intro k v h
    simp [construct] at h
  · intro v k t h
    have := List.mem_of_getElem? h
    simp [construct] at this

/-- A worker that goes from one idle point to another. -/
theorem Books.setPoint (h : Books s) (hw : s.workers[w]? = some p) (hp : p.idle = true)
    (hq : q.idle = true) : Books (s.setPoint w q) where
  min_num := h.min_num
  live := by
    rw [setPoint_workers, countP_set_eq _ hw q
      ((Point.idle_alive hp).trans (Point.idle_alive hq).symm)]
    exact h.live
  min_le := h.min_le
  busy := by
    rw [setPoint_workers, countP_set_eq _ hw q
      ((Point.idle_busy hp).trans (Point.idle_busy hq).symm)]
    exact h.busy
  destroy_nonneg := h.destroy_nonneg
  destroy_le := h.destroy_le
  queue := h.queue
  once k := by
    rw [setPoint_workers, countP_set_eq _ hw q
      ((Point.idle_holds hp k).trans (Point.idle_holds hq k).symm)]
    exact h.once k
  runner := h.runner
  holder v k t hv := by
    rcases (getElem?_set_iff hw).mp hv with ⟨-, rfl⟩ | ⟨-, hv⟩
    · simp [Point.idle] at hq
    · exact h.holder v k t hv

/-- A task accepted. -/
theorem Books.push (h : Books s) (task : τ) :
    Books { s with taskQ := s.taskQ ++ [task], accepted := s.accepted ++ [task] } :=
  { h with
    queue := by
      show s.accepted ++ [task] = _
      rw [h.queue, List.append_assoc] }

/-- A task popped by an idle worker. -/
theorem Books.pop (h : Books s) (hw : s.workers[w]? = some p) (hp : p.idle = true) {task : τ}
    {taskQ : List τ} (hq : s.taskQ = task :: taskQ) :
    Books ({ s with
      taskQ := taskQ
      busy_num := s.busy_num + 1
      popped := s.popped ++ [(w, task)] }.setPoint w (.running s.popped.length task)) where
  min_num := h.min_num
  live := by
    rw [setPoint_workers, countP_set_eq _ hw _ (Point.idle_alive hp)]
    exact h.live
  min_le := h.min_le
  busy := by
    have hset := countP_set_add Point.busy hw (.running s.popped.length task)
    have hold := h.busy
    rw [Point.idle_busy hp] at hset
    simp only [Point.busy, Bool.toNat_false, Bool.toNat_true] at hset
    show ((s.workers.set w _).countP Point.busy : ℤ) = s.busy_num + 1
    omega
  destroy_nonneg := h.destroy_nonneg
  destroy_le := h.destroy_le
  queue := by
    show s.accepted = (s.popped ++ [(w, task)]).map Prod.snd ++ taskQ
    rw [h.queue, hq]
    simp
  once k := by
    have hset := countP_set_add (Point.holds k) hw (.running s.popped.length task)
    have hk := h.once k
    rw [Point.idle_holds hp k] at hset
    show s.ran.countP _ + (s.workers.set w _).countP (Point.holds k) =
      if k < (s.popped ++ [(w, task)]).length then 1 else 0
    rw [List.length_append, List.length_singleton]
    by_cases hkn : s.popped.length = k
    · have : (Point.running s.popped.length task).holds k = true := by simp [Point.holds, hkn]
      rw [this] at hset
      rw [if_neg (by omega)] at hk
      rw [if_pos (by omega)]
      simp only [Bool.toNat_false, Bool.toNat_true] at hset
      omega
    · have : (Point.running s.popped.length task).holds k = false := by simp [Point.holds, hkn]
      rw [this] at hset
      simp only [Bool.toNat_false] at hset
      by_cases hlt : k < s.popped.length
      · rw [if_pos hlt] at hk
        rw [if_pos (by omega)]
        omega
      · rw [if_neg hlt] at hk
        rw [if_neg (by omega)]
        omega
  runner k v hr := by
    have hold := h.runner k v hr
    obtain ⟨x, hx, hv⟩ := Option.map_eq_some_iff.mp hold
    have hlt := (List.getElem?_eq_some_iff.mp hx).1
    show (s.popped ++ [(w, task)])[k]?.map Prod.fst = some v
    rw [List.getElem?_append_left hlt, hx, Option.map_some, hv]
  holder v k t hv := by
    show (s.popped ++ [(w, task)])[k]? = some (v, t)
    rcases (getElem?_set_iff hw).mp hv with ⟨rfl, hrun⟩ | ⟨-, hv⟩
    · injection hrun with hk ht
      subst hk ht
      simp
    · have hold := h.holder v k t hv
      rw [List.getElem?_append_left (List.getElem?_eq_some_iff.mp hold).1, hold]

/-- A worker that gives up one of the retirements asked for. -/
theorem Books.destroyed (h : Books s) (hd : s.destroy_num > 0) :
    Books { s with destroy_num := s.destroy_num - 1 } :=
  { h with
    destroy_nonneg := by
      show (0 : ℤ) ≤ s.destroy_num - 1
      omega
    destroy_le := by
      have := h.destroy_le
      show s.destroy_num - 1 ≤ _
      omega }

/-- An idle worker that retires. -/
theorem Books.retire (h : Books s) (hw : s.workers[w]? = some p) (hp : p.idle = true)
    (hlive : s.live_num > s.min_num) : Books (s.retire w) where
  min_num := h.min_num
  live := by
    have hset := countP_set_add Point.alive hw .exited
    have hold := h.live
    rw [Point.idle_alive hp] at hset
    simp only [Point.alive, Bool.toNat_false, Bool.toNat_true] at hset
    show ((s.workers.set w .exited).countP Point.alive : ℤ) = s.live_num - 1
    omega
  min_le := by
    show s.min_num ≤ s.live_num - 1
    omega
  busy := by
    show ((s.workers.set w .exited).countP Point.busy : ℤ) = s.busy_num
    rw [countP_set_eq _ hw _ (Point.idle_busy hp)]
    exact h.busy
  destroy_nonneg := h.destroy_nonneg
  destroy_le := h.destroy_le
  queue := h.queue
  once k := by
    show s.ran.countP _ + (s.workers.set w .exited).countP (Point.holds k) = _
    rw [countP_set_eq _ hw _ (Point.idle_holds hp k)]
    exact h.once k
  runner := h.runner
  holder v k t hv := by
    rcases (getElem?_set_iff hw).mp hv with ⟨-, hq⟩ | ⟨-, hv⟩
    · cases hq
    · exact h.holder v k t hv

/-- A worker that has run its task. -/
theorem Books.task {k : ℕ} {t : τ} (h : Books s) (hw : s.workers[w]? = some (.running k t)) :
    Books ({ s with ran := s.ran ++ [(k, w)] }.setPoint w .finished) where
  min_num := h.min_num
  live := by
    rw [setPoint_workers, countP_set_eq _ hw .finished rfl]
    exact h.live
  min_le := h.min_le
  busy := by
    rw [setPoint_workers, countP_set_eq _ hw .finished rfl]
    exact h.busy
  destroy_nonneg := h.destroy_nonneg
  destroy_le := h.destroy_le
  queue := h.queue
  once j := by
    have hset := countP_set_add (Point.holds j) hw .finished
    have hj := h.once j
    show (s.ran ++ [(k, w)]).countP _ + (s.workers.set w _).countP (Point.holds j) =
      if j < s.popped.length then 1 else 0
    rw [← hj, List.countP_append, List.countP_singleton]
    simp only [Point.holds, Bool.toNat_false] at hset
    by_cases hkj : k = j
    · simp only [hkj, beq_self_eq_true, Bool.toNat_true, if_true] at hset ⊢
      omega
    · simp only [beq_false_of_ne hkj, Bool.toNat_false, Bool.false_eq_true, if_false] at hset ⊢
      omega
  runner j v hr := by
    rcases List.mem_append.mp hr with hr | hr
    · exact h.runner j v hr
    · rw [List.mem_singleton, Prod.mk.injEq] at hr
      obtain ⟨rfl, rfl⟩ := hr
      show s.popped[j]?.map Prod.fst = some v
      rw [h.holder v j t hw, Option.map_some]
  holder v j u hv := by
    rcases (getElem?_set_iff hw).mp hv with ⟨-, hq⟩ | ⟨-, hv⟩
    · cases hq
    · exact h.holder v j u hv

/-- A worker that is done with its task. -/
theorem Books.finish (h : Books s) (hw : s.workers[w]? = some .finished) :
    Books ({ s with busy_num := s.busy_num - 1 }.setPoint w .top) where
  min_num := h.min_num
  live := by
    rw [setPoint_workers, countP_set_eq _ hw .top rfl]
    exact h.live
  min_le := h.min_le
  busy := by
    have hset := countP_set_add Point.busy hw .top
    have hold := h.busy
    simp only [Point.busy, Bool.toNat_false, Bool.toNat_true] at hset
    show ((s.workers.set w .top).countP Point.busy : ℤ) = s.busy_num - 1
    omega
  destroy_nonneg := h.destroy_nonneg
  destroy_le := h.destroy_le
  queue := h.queue
  once k := by
    rw [setPoint_workers, countP_set_eq _ hw .top rfl]
    exact h.once k
  runner := h.runner
  holder v k t hv := by
    rcases (getElem?_set_iff hw).mp hv with ⟨-, hq⟩ | ⟨-, hv⟩
    · cases hq
    · exact h.holder v k t hv

/-- All workers notified. -/
theorem Books.notify_all (h : Books s) : Books s.notify_all where
  min_num := h.min_num
  live := by
    show ((s.workers.map Point.notify).countP Point.alive : ℤ) = s.live_num
    rw [List.countP_map, ← h.live]
    congr 2
    exact funext Point.alive_notify
  min_le := h.min_le
  busy := by
    show ((s.workers.map Point.notify).countP Point.busy : ℤ) = s.busy_num
    rw [List.countP_map, ← h.busy]
    congr 2
    exact funext Point.busy_notify
  destroy_nonneg := h.destroy_nonneg
  destroy_le := h.destroy_le
  queue := h.queue
  once k := by
    show s.ran.countP _ + (s.workers.map Point.notify).countP (Point.holds k) = _
    rw [List.countP_map, show (Point.holds k ∘ Point.notify) = (Point.holds k : Point τ → Bool) from
      funext (Point.holds_notify k)]
    exact h.once k
  runner := h.runner
  holder v k t hv := by
    obtain ⟨x, hx, hn⟩ := Option.map_eq_some_iff.mp ((List.getElem?_map ..).symm.trans hv)
    rw [Point.notify_eq_running hn] at hx
    exact h.holder v k t hx

/-- Workers added. -/
theorem Books.grown (h : Books s) (n : ℕ) (slots : List (Option ℕ)) :
    Books { s with
      worker_threads := slots
      workers := s.workers ++ List.replicate n .top
      live_num := s.live_num + n } where
  min_num := h.min_num
  live := by
    show ((s.workers ++ List.replicate n Point.top).countP Point.alive : ℤ) = s.live_num + n
    rw [List.countP_append, List.countP_replicate, if_pos (by rfl), ← h.live]
    push_cast
    rfl
  min_le := by
    have := h.min_le
    show s.min_num ≤ s.live_num + n
    omega
  busy := by
    show ((s.workers ++ List.replicate n Point.top).countP Point.busy : ℤ) = s.busy_num
    rw [List.countP_append, List.countP_replicate, if_neg (by simp [Point.busy]), ← h.busy,
      Nat.add_zero]
  destroy_nonneg := h.destroy_nonneg
  destroy_le := h.destroy_le
  queue := h.queue
  once k := by
    show s.ran.countP _ + (s.workers ++ List.replicate n Point.top).countP (Point.holds k) = _
    rw [List.countP_append, List.countP_replicate, if_neg (by simp [Point.holds]), Nat.add_zero]
    exact h.once k
  runner := h.runner
  holder v k t hv := by
    rw [List.getElem?_append] at hv
    split at hv
    · exact h.holder v k t hv
    · have := List.mem_of_getElem? hv
      simp at this

/-- The manager asks for retirements. -/
theorem Books.shrink (h : Books s) : Books s.shrink := by
  have hset : Books { s with destroy_num := CHANGE_THREAD_NUMBER } :=
    { h with
      destroy_nonneg := by
        show (0 : ℤ) ≤ CHANGE_THREAD_NUMBER
        decide
      destroy_le := le_rfl }
  exact hset.notify_all

theorem kept_books : Kept (fun s : ThreadPool τ => Books s) where
  setPoint _ h hw hp hq := h.setPoint hw hp hq
  push task h := h.push task
  pop h hw hp hq := h.pop hw hp hq
  destroyed h hd := h.destroyed hd
  retire h hw hp hlive := h.retire hw hp hlive
  task h hw := h.task hw
  finish h hw := h.finish hw
  grow h := h.grown _ _
  shrink h := h.shrink

end PickUpLight.Pool
