import PickUpLight.Pool.Slots

/-!
# Wake-ups

`add_task` notifies one worker for each task ("唤醒线程执行"), so while tasks wait some
worker should be on its way to them. It is, except that a notified worker looks at
`destroy_num` before it looks at the queue: if it is the only one on its way and
retires, its wake-up is gone and the task waits for whatever happens next.
`stranded_run` is such a run, and `noneStranded_iff` says that there is no other way:
a run leaves no task stranded exactly when no step of it is a `LosesWakeup`.
-/

namespace PickUpLight.Pool

open PickUpLight.Theory PickUpLight.Theory.Roster ThreadPool

variable {τ : Type} {s s' : ThreadPool τ} {w : ℕ} {p q : Point τ}

/-- While tasks wait and the pool is up, some worker runs a task, is about to take the
mutex, or has been notified. -/
def NoneStranded (s : ThreadPool τ) : Prop :=
  s.shutdown = false → s.taskQ ≠ [] → 0 < s.workers.countP Point.active

/-- A notified worker, the only one on its way, comes back from `wait` to a waiting task
and retires. -/
def LosesWakeup (s : ThreadPool τ) (m : Move τ) : Prop :=
  ∃ w, m = .wake w ∧ s.shutdown = false ∧ s.taskQ ≠ [] ∧ s.destroy_num > 0 ∧
    s.live_num > s.min_num ∧ s.workers.countP Point.active = 1

theorem Point.asleep_of_alive (ha : p.alive = true) (hp : p.active = false) : p.asleep = true := by
  cases p <;> simp_all [alive, active, asleep]

theorem Point.active_notify (p : Point τ) (hp : p.active = true) : p.notify.active = true := by
  cases p <;> simp_all [notify, active]

theorem active_pos_of_mem (hw : s.workers[w]? = some p) (hp : p.active = true) :
    0 < s.workers.countP Point.active :=
  countP_pos_of_getElem? hw hp

/-! ### The changes -/

/-- A worker that is on its way afterwards is enough. -/
theorem noneStranded_of_setPoint (hw : s.workers[w]? = some p) (hq : q.active = true) :
    NoneStranded (s.setPoint w q) := by
  intro _ _
  have hlt : w < s.workers.length := (List.getElem?_eq_some_iff.mp hw).1
  exact active_pos_of_mem (s := s.setPoint w q) (List.getElem?_set_self hlt) hq

/-- `add_task` leaves a worker on its way: the one it notified, or, if none sleeps, any of
those that have not left. -/
theorem NoneStranded.notify_one (hb : Books s) {woken : Option ℕ}
    (hn : s.notify_one woken = some s') : NoneStranded s' := by
  cases woken with
  | none =>
    simp only [ThreadPool.notify_one] at hn
    split at hn
    · cases hn
    · rename_i hany
      cases hn
      intro _ _
      have hlive := hb.live
      have hmin := hb.min_le
      have hnum : s.min_num = MIN_THREAD_NUMBER := hb.min_num
      have hpos : 0 < s.workers.countP Point.alive := by
        simp only [MIN_THREAD_NUMBER] at hnum
        omega
      obtain ⟨v, p, hv, hp⟩ := exists_getElem?_of_countP_pos hpos
      by_cases hact : p.active = true
      · exact active_pos_of_mem hv hact
      · have hasleep := Point.asleep_of_alive hp (by simpa using hact)
        exact absurd (List.any_eq_true.mpr ⟨p, List.mem_of_getElem? hv, hasleep⟩) hany
  | some w =>
    simp only [ThreadPool.notify_one] at hn
    split at hn
    · rename_i hw
      cases hn
      exact noneStranded_of_setPoint hw rfl
    · cases hn

/-- A worker at the condition of its inner loop takes a task, or sleeps because there is
none. -/
theorem noneStranded_loopHead (hw : s.workers[w]? = some p) : NoneStranded (s.loopHead w) := by
  unfold ThreadPool.loopHead
  split
  · rename_i hs
    intro hs' _
    exact absurd (hs.symm.trans hs') (by decide)
  · split
    · rename_i hq
      intro _ hne
      exact absurd hq hne
    · exact noneStranded_of_setPoint hw rfl

/-- A worker back from `wait`: if it retires, the others have to be enough. -/
theorem noneStranded_afterWait (hw : s.workers[w]? = some p) :
    NoneStranded (s.afterWait w) ↔
      (s.shutdown = false → s.taskQ ≠ [] → s.destroy_num > 0 → s.live_num > s.min_num →
        0 < (s.workers.set w .exited).countP Point.active) := by
  unfold ThreadPool.afterWait
  by_cases hd : s.destroy_num > 0
  · rw [if_pos hd]
    dsimp only
    by_cases hlive : s.live_num > s.min_num
    · rw [if_pos hlive]
      constructor
      · intro h hs hq _ _
        exact h hs hq
      · intro h hs hq
        exact h hs hq hd hlive
    · rw [if_neg hlive]
      refine ⟨fun _ _ _ _ h => absurd h hlive, fun _ => ?_⟩
      exact noneStranded_loopHead hw
  · rw [if_neg hd]
    exact ⟨fun _ _ _ h => absurd h hd, fun _ => noneStranded_loopHead hw⟩

theorem NoneStranded.tick (h : NoneStranded s) : NoneStranded s.tick := by
  have hgrow : NoneStranded s.growIfNeeded := by
    unfold ThreadPool.growIfNeeded
    split
    · intro hs hq
      have hpos := h hs hq
      show 0 < (s.workers ++ List.replicate _ Point.top).countP Point.active
      rw [List.countP_append]
      omega
    · exact h
  unfold ThreadPool.tick
  split
  · exact h
  · unfold ThreadPool.shrinkIfIdle
    split
    · intro hs hq
      obtain ⟨v, p, hv, hp⟩ := exists_getElem?_of_countP_pos (hgrow hs hq)
      have hv' : (s.growIfNeeded.workers.map Point.notify)[v]? = some p.notify := by
        rw [List.getElem?_map, hv, Option.map_some]
      exact countP_pos_of_getElem? hv' (Point.active_notify p hp)
    · exact hgrow

/-! ### The moves -/

/-- **A move strands a task exactly when it loses a wake-up.** -/
theorem noneStranded_step (hb : UpTo Books s) (hp : NoneStranded s) {m : Move τ}
    (hm : pool τ s m = some s') : NoneStranded s' ↔ ¬ LosesWakeup s m := by
  -- every move but `wake` keeps the property, and is no `LosesWakeup`
  have keeps : (∀ w, m ≠ .wake w) → NoneStranded s' → (NoneStranded s' ↔ ¬ LosesWakeup s m) := by
    intro hne h
    refine ⟨fun _ hl => ?_, fun _ => h⟩
    obtain ⟨w, hw, -⟩ := hl
    exact hne w hw
  cases m with
  | add_task task woken =>
    refine keeps (by simp) ?_
    simp only [pool, ThreadPool.add_task] at hm
    split at hm
    · cases hm
      exact hp
    · rename_i hs
      exact NoneStranded.notify_one ((hb.of_up (by simpa using hs)).2.push task) hm
  | lock w =>
    refine keeps (by simp) ?_
    simp only [pool] at hm
    split at hm <;> cases hm
    rename_i hw
    exact noneStranded_loopHead hw
  | wake w =>
    simp only [pool] at hm
    split at hm <;> cases hm
    rename_i hw
    have hset := countP_set_add Point.active hw .exited
    simp only [Point.active, Bool.toNat_true, Bool.toNat_false] at hset
    rw [noneStranded_afterWait hw]
    constructor
    · rintro h ⟨v, hv, hs, hq, hd, hlive, hone⟩
      have := h hs hq hd hlive
      omega
    · intro h hs hq hd hlive
      have hpos := hp hs hq
      by_contra hzero
      exact h ⟨w, rfl, hs, hq, hd, hlive, by omega⟩
  | spurious w =>
    refine keeps (by simp) ?_
    simp only [pool] at hm
    split at hm <;> cases hm
    rename_i hw
    rw [noneStranded_afterWait hw]
    intro hs hq _ _
    rw [countP_set_eq Point.active hw .exited rfl]
    exact hp hs hq
  | task w =>
    refine keeps (by simp) ?_
    simp only [pool] at hm
    split at hm <;> cases hm
    rename_i hw
    exact noneStranded_of_setPoint (s := { s with ran := _ }) hw rfl
  | finish w =>
    refine keeps (by simp) ?_
    simp only [pool] at hm
    split at hm <;> cases hm
    rename_i hw
    exact noneStranded_of_setPoint (s := { s with busy_num := _ }) hw rfl
  | tick =>
    refine keeps (by simp) ?_
    simp only [pool] at hm
    split at hm <;> cases hm
    exact hp.tick
  | destroy =>
    refine keeps (by simp) ?_
    simp only [pool] at hm
    split at hm <;> cases hm
    intro hs
    cases hs
  | join_manager =>
    refine keeps (by simp) ?_
    simp only [pool] at hm
    split at hm <;> cases hm
    exact hp
  | notify_all =>
    refine keeps (by simp) ?_
    simp only [pool] at hm
    split at hm
    · rename_i hd
      cases hm
      intro hs
      have hs : s.shutdown = false := hs
      have := (hb.of_up hs).1.destructor
      rw [hd] at this
      cases this
    · cases hm
  | join_worker =>
    refine keeps (by simp) ?_
    simp only [pool] at hm
    split at hm
    · simp only [ThreadPool.join_worker] at hm
      split at hm
      · cases hm
        exact hp
      · cases hm
        exact hp
      · split at hm <;> cases hm
        exact hp
    · cases hm

/-- **Tasks are stranded by lost wake-ups, and by nothing else.** A run of the pool leaves
no task stranded in any of its states exactly when none of its steps loses a wake-up. -/
theorem noneStranded_iff {n : ℕ} {ms : List (Move τ)}
    (hrun : (pool τ).exec (construct τ n) ms = some s) :
    (pool τ).Along NoneStranded (construct τ n) ms ↔
      (pool τ).Guarded (fun s m => ¬ LosesWakeup s m) (construct τ n) ms := by
  have hstart : UpTo Books (construct τ n) := .inl ⟨up_construct τ n, books_construct τ n⟩
  refine (pool τ).along_iff_guarded (I := UpTo Books) ?_ ?_ hstart ?_ hrun
  · intro t m t' ht hm
    exact kept_books.upTo_step ht hm
  · intro t m t' ht hp hm
    exact noneStranded_step ht hp hm
  · intro _ hq
    exact absurd rfl hq

/-- Four tasks are accepted before any worker runs, so the manager adds two workers, and
in the same round asks for two retirements, with nobody asleep to hear it. The tasks are
run, all five workers go to sleep, and the worker notified of the next task retires. -/
def strandingRun : List (Move ℕ) :=
  [.add_task 0 none, .add_task 1 none, .add_task 2 none, .add_task 3 none, .tick,
    .lock 0, .lock 1, .lock 2, .lock 3, .task 0, .task 1, .task 2, .task 3,
    .finish 0, .finish 1, .finish 2, .finish 3,
    .lock 0, .lock 1, .lock 2, .lock 3, .lock 4, .add_task 4 (some 0), .wake 0]

theorem stranded_run : ¬ ∀ (n : ℕ) (ms : List (Move ℕ)) (s : ThreadPool ℕ), MIN_THREAD_NUMBER ≤ n →
    (pool ℕ).exec (construct ℕ n) ms = some s → NoneStranded s := by
  intro h
  obtain ⟨s, hrun, hs, hq, hzero⟩ : ∃ s, (pool ℕ).exec (construct ℕ 5) strandingRun = some s ∧
      s.shutdown = false ∧ s.taskQ ≠ [] ∧ s.workers.countP Point.active = 0 :=
    ⟨_, rfl, rfl, by decide, rfl⟩
  have hpos := h 5 strandingRun s (by decide) hrun hs hq
  omega

/-- A run in which a worker is woken for a task and takes it. -/
theorem noneStranded_iff_woken :
    (pool ℕ).Along NoneStranded (construct ℕ 4) [.lock 0, .add_task 7 (some 0), .wake 0] ↔
      (pool ℕ).Guarded (fun s m => ¬ LosesWakeup s m) (construct ℕ 4)
        [.lock 0, .add_task 7 (some 0), .wake 0] :=
  noneStranded_iff (s := _) rfl

end PickUpLight.Pool
