import PickUpLight.Pool.Slots
import Mathlib.Data.List.Range

/-!
# The destructor

`~ThreadPool` sets `shutdown` and clears `destroy_num` with the mutex, and then, without
it, joins the manager, notifies all workers and joins one slot after the other. From
the first of these steps on, no worker is detached and none is created, so the slots
the destructor finds are those that were joinable at that step; `Winding` says how far
it has got with them.

That it gets to the end is said by a rank: every move but a refused `add_task` lowers
it, and until the destructor has returned there is a move to make that needs neither a
new task nor a spurious wake-up.
-/

namespace PickUpLight.Pool

open PickUpLight.Theory PickUpLight.Theory.Roster ThreadPool

variable {τ : Type} {s s' s₁ : ThreadPool τ} {m : Move τ}

/-- Slot `i` is joinable. -/
def joinable (slots : List (Option ℕ)) (i : ℕ) : Bool :=
  match slots[i]? with
  | some (some _) => true
  | _ => false

/-- How many slots the destructor has dealt with. -/
def position (s : ThreadPool τ) : ℕ :=
  match s.destructor with
  | .joining i => i
  | .returned => s.worker_threads.length
  | _ => 0

/-- The destructor has notified all workers. -/
def Destructor.notified : Destructor → Bool
  | .joining _ | .returned => true
  | _ => false

/-- The pool is on its way down from `s₁`, the state in which `shutdown` was set. -/
structure Winding (s₁ s : ThreadPool τ) : Prop where
  /-- `shutdown` is set. -/
  down : Down s
  /-- No worker is detached. -/
  detached : s.detached = s₁.detached
  /-- No worker is created. -/
  created : s.workers.length = s₁.workers.length
  /-- No slot is added. -/
  length : s.worker_threads.length = s₁.worker_threads.length
  /-- The slots ahead are as they were. -/
  ahead : ∀ i : ℕ, position s ≤ i → s.worker_threads[i]? = s₁.worker_threads[i]?
  /-- The destructor stays within the slots. -/
  le : position s ≤ s.worker_threads.length
  /-- It has joined the slots behind it that were joinable. -/
  joined : s.joined = (List.range (position s)).filter (joinable s₁.worker_threads)
  /-- The manager was joined before the workers. -/
  managing : s.destructor ≠ .joiningManager → s.managing = false
  /-- After the destructor has notified the workers, none sleeps. -/
  awake : s.destructor.notified = true → ∀ v : ℕ, s.workers[v]? ≠ some .waiting

theorem winding_start {s₀ : ThreadPool τ} (hup : Up s₀) (hd : pool τ s₀ .destroy = some s₁) :
    Winding s₁ s₁ ∧ s₁.worker_threads = s₀.worker_threads ∧ s₁.detached = s₀.detached := by
  simp only [pool, hup.destructor, if_true, Option.some.injEq] at hd
  subst hd
  refine ⟨⟨⟨rfl, rfl, by simp⟩, rfl, rfl, rfl, fun _ _ => rfl, Nat.zero_le _, hup.joined, ?_, ?_⟩,
    rfl, rfl⟩
  · intro h
    exact absurd rfl h
  · intro h
    cases h

/-- The slots dealt with, after one more. -/
theorem filter_range_succ (f : ℕ → Bool) (i : ℕ) :
    (List.range (i + 1)).filter f = (List.range i).filter f ++ if f i then [i] else [] := by
  rw [List.range_succ, List.filter_append, List.filter_singleton, Bool.cond_eq_ite]

theorem Winding.step (h : Winding s₁ s) (hm : pool τ s m = some s') : Winding s₁ s' := by
  have hdown := h.down.step hm
  cases h.down.winds hm with
  | refused => exact h
  | worker ran busy_num hw hrank hq =>
    refine ⟨hdown, h.detached, ?_, h.length, h.ahead, h.le, h.joined, h.managing, ?_⟩
    · exact List.length_set.trans h.created
    · intro hn v hv
      rcases (getElem?_set_iff hw).mp hv with ⟨-, rfl⟩ | ⟨-, hv⟩
      · exact hq rfl
      · exact h.awake hn v hv
  | manager =>
    exact ⟨hdown, h.detached, h.created, h.length, h.ahead, h.le, h.joined, fun _ => rfl, h.awake⟩
  | join_manager hd hman =>
    have hpos : position s = 0 := by simp [position, hd]
    refine ⟨hdown, h.detached, h.created, h.length, ?_, Nat.zero_le _, ?_, fun _ => hman, ?_⟩
    · intro i hi
      exact h.ahead i (hpos ▸ hi)
    · show s.joined = []
      rw [h.joined, hpos]
      rfl
    · intro hn
      cases hn
  | notify_all hd =>
    have hpos : position s = 0 := by simp [position, hd]
    refine ⟨hdown, h.detached, ?_, h.length, ?_, Nat.zero_le _, ?_, ?_, ?_⟩
    · exact (List.length_map ..).trans h.created
    · intro i hi
      exact h.ahead i (hpos ▸ hi)
    · show s.joined = []
      rw [h.joined, hpos]
      rfl
    · intro _
      exact h.managing (by simp [hd])
    · intro _ v hv
      obtain ⟨p, -, hp⟩ := Option.map_eq_some_iff.mp ((List.getElem?_map ..).symm.trans hv)
      cases p <;> cases hp
  | @past i hd hi =>
    have hpos : position s = i := by simp [position, hd]
    have hlen : i = s.worker_threads.length :=
      Nat.le_antisymm (hpos ▸ h.le) (List.getElem?_eq_none_iff.mp hi)
    refine ⟨hdown, h.detached, h.created, h.length, ?_, le_rfl, ?_, ?_, ?_⟩
    · intro j hj
      exact h.ahead j (hpos.trans hlen ▸ hj)
    · show s.joined = (List.range s.worker_threads.length).filter _
      rw [h.joined, hpos, hlen]
    · intro _
      exact h.managing (by simp [hd])
    · intro _
      exact h.awake (by simp [hd, Destructor.notified])
  | @skip i hd hi =>
    have hpos : position s = i := by simp [position, hd]
    have hlt : i < s.worker_threads.length := (List.getElem?_eq_some_iff.mp hi).1
    have hjoin : joinable s₁.worker_threads i = false := by
      rw [joinable, ← h.ahead i (le_of_eq hpos), hi]
    refine ⟨hdown, h.detached, h.created, h.length, ?_, hlt, ?_, ?_, ?_⟩
    · intro j hj
      have hj : i + 1 ≤ j := hj
      exact h.ahead j (by omega)
    · show s.joined = (List.range (i + 1)).filter _
      rw [h.joined, hpos, filter_range_succ, hjoin]
      simp
    · intro _
      exact h.managing (by simp [hd])
    · intro _
      exact h.awake (by simp [hd, Destructor.notified])
  | @join i w hd hi hw =>
    have hpos : position s = i := by simp [position, hd]
    have hlt : i < s.worker_threads.length := (List.getElem?_eq_some_iff.mp hi).1
    have hjoin : joinable s₁.worker_threads i = true := by
      rw [joinable, ← h.ahead i (le_of_eq hpos), hi]
    refine ⟨hdown, h.detached, h.created, ?_, ?_, ?_, ?_, ?_, ?_⟩
    · exact List.length_set.trans h.length
    · intro j hj
      have hj : i + 1 ≤ j := hj
      have hne : i ≠ j := by omega
      show (s.worker_threads.set i none)[j]? = _
      rw [List.getElem?_set_ne hne]
      exact h.ahead j (by omega)
    · show i + 1 ≤ (s.worker_threads.set i none).length
      rw [List.length_set]
      exact hlt
    · show s.joined ++ [i] = (List.range (i + 1)).filter _
      rw [h.joined, hpos, filter_range_succ, hjoin]
      simp
    · intro _
      exact h.managing (by simp [hd])
    · intro _
      exact h.awake (by simp [hd, Destructor.notified])

/-! ### It gets to the end -/

/-- A move of one of the pool's own threads. -/
def Move.inner : Move τ → Bool
  | .add_task _ _ => false
  | _ => true

/-- A move that is made sooner or later: not `add_task`, which nobody has to call, and not
a spurious wake-up. -/
def Move.sure : Move τ → Bool
  | .add_task _ _ | .spurious _ => false
  | _ => true

/-- How many steps the destructor has ahead of it. -/
def Destructor.rank (slots : ℕ) : Destructor → ℕ
  | .notCalled => slots + 5
  | .joiningManager => slots + 4
  | .notifying => slots + 3
  | .joining i => slots - i + 1
  | .returned => 0

/-- How much the threads have still to do. -/
def rank (s : ThreadPool τ) : ℕ :=
  (s.workers.map Point.rank).sum + s.managing.toNat + s.destructor.rank s.worker_threads.length

theorem Point.rank_notify (p : Point τ) : p.notify.rank ≤ p.rank := by
  cases p <;> simp [notify, rank]

/-- Every move of the pool's own threads lowers the rank. -/
theorem Winding.rank_step (h : Winding s₁ s) (hm : pool τ s m = some s') :
    rank s' + m.inner.toNat ≤ rank s := by
  have hinner : m.inner.toNat ≤ 1 := Bool.toNat_le _
  cases h.down.winds hm with
  | refused => exact le_rfl
  | @worker _ w p q ran busy_num hw hrank hq =>
    have hset := sum_map_set_add Point.rank hw q
    simp only [rank]
    omega
  | manager hman =>
    simp only [rank, hman, Bool.toNat_true, Bool.toNat_false]
    omega
  | join_manager hd hman =>
    simp only [rank, hd, Destructor.rank]
    omega
  | notify_all hd =>
    have hsum : ((s.workers.map Point.notify).map Point.rank).sum ≤
        (s.workers.map Point.rank).sum := by
      exact sum_map_map_le Point.rank Point.notify Point.rank_notify s.workers
    simp only [rank, hd, Destructor.rank, ThreadPool.notify_all]
    omega
  | past hd hi =>
    simp only [rank, hd, Destructor.rank]
    omega
  | skip hd hi =>
    have hlt := (List.getElem?_eq_some_iff.mp hi).1
    simp only [rank, hd, Destructor.rank]
    omega
  | join hd hi hw =>
    have hlt := (List.getElem?_eq_some_iff.mp hi).1
    simp only [rank, hd, Destructor.rank, List.length_set]
    omega

/-- A worker that has not left and does not sleep has a move to make. -/
theorem worker_progress {w : ℕ} {p : Point τ} (hw : s.workers[w]? = some p) (hp : p.alive = true)
    (hne : p ≠ .waiting) : ∃ m : Move τ, m.sure = true ∧
      (pool τ s m).isSome = true := by
  cases p with
  | top => exact ⟨.lock w, rfl, by simp [pool, hw]⟩
  | waiting => exact absurd rfl hne
  | notified => exact ⟨.wake w, rfl, by simp [pool, hw]⟩
  | running k t => exact ⟨.task w, rfl, by simp [pool, hw]⟩
  | finished => exact ⟨.finish w, rfl, by simp [pool, hw]⟩
  | exited => cases hp

/-- Until the destructor has returned, some thread has a move to make: the destructor
itself, or the thread it waits for. -/
theorem Winding.progress (h : Winding s₁ s) (hr : s.destructor ≠ .returned) :
    ∃ m : Move τ, m.sure = true ∧ (pool τ s m).isSome = true := by
  cases hd : s.destructor with
  | notCalled => exact absurd hd h.down.called
  | joiningManager =>
    cases hman : s.managing with
    | true => exact ⟨.tick, rfl, by simp [pool, hman]⟩
    | false => exact ⟨.join_manager, rfl, by simp [pool, hd, hman]⟩
  | notifying => exact ⟨.notify_all, rfl, by simp [pool, hd]⟩
  | joining i =>
    cases hi : s.worker_threads[i]? with
    | none => exact ⟨.join_worker, rfl, by simp [pool, hd, ThreadPool.join_worker, hi]⟩
    | some slot =>
      cases slot with
      | none => exact ⟨.join_worker, rfl, by simp [pool, hd, ThreadPool.join_worker, hi]⟩
      | some w =>
        by_cases halive : s.workers[w]?.any Point.alive = true
        · obtain ⟨p, hw, hp⟩ := (Option.any_eq_true _ _).mp halive
          apply worker_progress hw hp
          intro heq
          exact h.awake (by simp [hd, Destructor.notified]) w (heq ▸ hw)
        · exact ⟨.join_worker, rfl, by simp [pool, hd, ThreadPool.join_worker, hi, halive]⟩
  | returned => exact absurd hd hr

/-! ### The shutdown, as a whole -/

/-- **What the destructor promises**, in a state `s` reached from the state `s₁` in which
it set `shutdown`. -/
structure ShutDown (s₁ s : ThreadPool τ) : Prop where
  /-- No retirement is asked for. -/
  destroy_num : s.destroy_num = 0
  /-- No worker executes `detach_cur_thread`. -/
  detached : s.detached = s₁.detached
  /-- The manager creates no worker. -/
  created : s.workers.length = s₁.workers.length
  /-- No slot is joined twice. -/
  joined_nodup : s.joined.Nodup
  /-- Only slots that were joinable are joined. -/
  joined_joinable : ∀ i ∈ s.joined, joinable s₁.worker_threads i = true
  /-- When the destructor has returned, every slot that was joinable has been joined. -/
  joined_all : s.destructor = .returned → ∀ i, joinable s₁.worker_threads i = true → i ∈ s.joined
  /-- No worker that is joined has been detached. -/
  joined_apart : ∀ i ∈ s.joined, ∀ v : ℕ, s₁.worker_threads[i]? = some (some v) → v ∉ s.detached
  /-- After the destructor has notified the workers, none sleeps. -/
  awake : s.destructor.notified = true → ∀ v : ℕ, s.workers[v]? ≠ some .waiting
  /-- Until the destructor has returned, some thread has a move to make. -/
  progress : s.destructor ≠ .returned → ∃ m : Move τ, m.sure = true ∧ (pool τ s m).isSome = true

theorem joinable_lt {slots : List (Option ℕ)} {i : ℕ} (h : joinable slots i = true) :
    i < slots.length := by
  unfold joinable at h
  split at h
  · rename_i hi
    exact (List.getElem?_eq_some_iff.mp hi).1
  · cases h

theorem Winding.shutDown (h : Winding s₁ s)
    (hapart : ∀ v ∈ owners s₁.worker_threads, v ∉ s₁.detached) : ShutDown s₁ s where
  destroy_num := h.down.destroy_num
  detached := h.detached
  created := h.created
  joined_nodup := by
    rw [h.joined]
    exact List.nodup_range.filter _
  joined_joinable i hi := by
    rw [h.joined] at hi
    exact (List.mem_filter.mp hi).2
  joined_all hr i hi := by
    have hpos : position s = s.worker_threads.length := by simp [position, hr]
    rw [h.joined, List.mem_filter, List.mem_range, hpos, h.length]
    exact ⟨joinable_lt hi, hi⟩
  joined_apart i _ v hv := by
    rw [h.detached]
    exact hapart v (List.mem_filterMap.mpr ⟨some v, List.mem_of_getElem? hv, rfl⟩)
  awake := h.awake
  progress := h.progress

/-- **The destructor keeps its promises**, whatever the pool was doing when it was called,
and the threads make only so many moves until it is done. -/
theorem shutDown_of_run {n : ℕ} {ms₀ ms : List (Move τ)} {s₀ : ThreadPool τ}
    (hrun₀ : (pool τ).exec (construct τ n) ms₀ = some s₀) (hd : pool τ s₀ .destroy = some s₁)
    (hrun : (pool τ).exec s₁ ms = some s) :
    ShutDown s₁ s ∧ ms.countP Move.inner + rank s ≤ rank s₁ := by
  have hcalled : s₀.destructor = .notCalled := by
    simp only [pool] at hd
    split at hd
    · assumption
    · cases hd
  rcases kept_apart.upTo_run (apart_construct τ n) hrun₀ with ⟨hup, hapart⟩ | hdown
  · obtain ⟨hstart, hslots, hdet⟩ := winding_start hup hd
    have hwind : Winding s₁ s :=
      (pool τ).exec_inv (I := Winding s₁) (fun t m t' ht hm => ht.step hm) hstart hrun
    refine ⟨hwind.shutDown ?_, ?_⟩
    · rw [hslots, hdet]
      exact hapart.apart
    · exact (pool τ).countP_le_of_rank (I := Winding s₁) (fun t m t' ht hm => ht.step hm)
        (fun t m t' ht hm => ht.rank_step hm) hstart hrun
  · exact absurd hcalled hdown.called

/-- The destructor is called while a worker that was asked to retire has just done so, and
runs to its end. -/
theorem shutDown_of_run_busy : ∃ s₀ s₁ s : ThreadPool ℕ,
    (pool ℕ).exec (construct ℕ 4) busyRun = some s₀ ∧ pool ℕ s₀ .destroy = some s₁ ∧
    s.destructor = .returned ∧ s.joined = [1, 2, 3] ∧ ShutDown s₁ s := by
  obtain ⟨s₀, s₁, s, hrun₀, hd, hrun, hr, hj⟩ : ∃ s₀ s₁ s : ThreadPool ℕ,
      (pool ℕ).exec (construct ℕ 4) busyRun = some s₀ ∧ pool ℕ s₀ .destroy = some s₁ ∧
      (pool ℕ).exec s₁
        [.tick, .join_manager, .lock 3, .notify_all, .join_worker, .wake 1, .join_worker,
        .lock 2, .join_worker, .join_worker, .join_worker] = some s ∧
      s.destructor = .returned ∧ s.joined = [1, 2, 3] :=
    ⟨_, _, _, rfl, rfl, rfl, rfl, rfl⟩
  exact ⟨s₀, s₁, s, hrun₀, hd, hr, hj, (shutDown_of_run hrun₀ hd hrun).1⟩

end PickUpLight.Pool
