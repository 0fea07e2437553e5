import PickUpLight.Pool.Accounting
import Mathlib.Data.List.Perm.Lattice

/-!
# Who owns which slot

`worker_threads` has a slot for every core. A joinable slot belongs to one worker that
has not left, and every such worker owns one slot: a worker that retires gives up its
own slot, and the manager starts workers in free slots only. With the books
(`Books`) this is the whole accounting invariant of the pool, `accounts_of_run`.
-/

namespace PickUpLight.Pool

open PickUpLight.Theory PickUpLight.Theory.Roster ThreadPool

variable {τ : Type} {s s' : ThreadPool τ} {w : ℕ} {p q : Point τ} {n : ℕ}

/-- The workers that own a slot, in the order of the slots. -/
def owners (slots : List (Option ℕ)) : List ℕ := slots.filterMap id

@[simp] theorem owners_nil : owners [] = [] := rfl

@[simp] theorem owners_none (slots : List (Option ℕ)) : owners (none :: slots) = owners slots := rfl

@[simp] theorem owners_some (v : ℕ) (slots : List (Option ℕ)) :
    owners (some v :: slots) = v :: owners slots := rfl

/-! ### Giving up a slot -/

@[simp] theorem length_detach (v : ℕ) (slots : List (Option ℕ)) :
    (detach_cur_thread v slots).length = slots.length := by
  induction slots with
  | nil => rfl
  | cons slot slots ih =>
    rw [detach_cur_thread]
    split
    · rfl
    · rw [List.length_cons, List.length_cons, ih]

/-- A worker that gives up its slot is the only one that loses it. -/
theorem owners_detach (v : ℕ) (slots : List (Option ℕ)) :
    owners (detach_cur_thread v slots) = (owners slots).erase v := by
  induction slots with
  | nil => rfl
  | cons slot slots ih =>
    rw [detach_cur_thread]
    split
    · rename_i hv
      subst hv
      simp
    · rename_i hv
      cases slot with
      | none => simpa using ih
      | some u =>
        have hne : u ≠ v := fun h => hv (congrArg some h)
        rw [owners_some, owners_some, ih, List.erase_cons_tail (by simpa using hne)]

/-! ### Adding workers -/

section Grow

variable (max_num : ℤ) (count : ℕ) (live_num : ℤ) (next : ℕ) (slots : List (Option ℕ))

theorem length_growSlots : (growSlots max_num count live_num next slots).1.length =
      slots.length := by
  induction slots generalizing count live_num next with
  | nil => rfl
  | cons slot slots ih =>
    unfold growSlots
    split
    · cases slot with
      | none => simp [ih]
      | some u => simp [ih]
    · rfl

/-- No new worker is put into a slot that has one. -/
theorem getElem?_growSlots {i v : ℕ} (h : slots[i]? = some (some v)) :
    (growSlots max_num count live_num next slots).1[i]? = some (some v) := by
  induction slots generalizing count live_num next i with
  | nil => simp at h
  | cons slot slots ih =>
    unfold growSlots
    split
    · cases slot with
      | none =>
        cases i with
        | zero => simp at h
        | succ i => simpa using ih _ _ _ (by simpa using h)
      | some u =>
        cases i with
        | zero => simpa using h
        | succ i => simpa using ih _ _ _ (by simpa using h)
    · exact h

/-- The workers added are numbered from `next` on, and own one slot each. -/
theorem owners_growSlots :
    (owners (growSlots max_num count live_num next slots).1).Perm
      (owners slots ++ List.range' next (growSlots max_num count live_num next slots).2) := by
  induction slots generalizing count live_num next with
  | nil => simp [growSlots]
  | cons slot slots ih =>
    unfold growSlots
    split
    · cases slot with
      | none =>
        simp only [owners_some, owners_none, List.range'_succ]
        exact ((ih _ _ _).cons next).trans List.perm_middle.symm
      | some u =>
        simp only [owners_some, List.cons_append]
        exact (ih _ _ _).cons u
    · simp

theorem owners_length_le : (owners slots).length ≤ slots.length := List.length_filterMap_le ..

/-- How many workers are added: as many as are asked for, as there is room for, and as
there are free slots. -/
theorem growSlots_count (hc : count ≤ CHANGE_THREAD_NUMBER) (hl : live_num ≤ max_num) :
    ((growSlots max_num count live_num next slots).2 : ℤ) =
      min ((CHANGE_THREAD_NUMBER : ℤ) - count)
        (min (max_num - live_num) (slots.length - (owners slots).length)) := by
  induction slots generalizing count live_num next with
  | nil =>
    simp only [growSlots, owners_nil, List.length_nil]
    omega
  | cons slot slots ih =>
    have hle := owners_length_le slots
    unfold growSlots
    split
    · rename_i hcond
      cases slot with
      | none =>
        have hih := ih (count + 1) (live_num + 1) (next + 1) (by omega) (by omega)
        simp only [owners_none, List.length_cons]
        push_cast at hih ⊢
        omega
      | some u =>
        have hih := ih count live_num next hc hl
        simp only [owners_some, List.length_cons]
        push_cast at hih ⊢
        omega
    · rename_i hcond
      have hle' := owners_length_le (slot :: slots)
      show ((0 : ℕ) : ℤ) = _
      omega

end Grow

/-! ### The invariant -/

/-- **Slots and workers match.** -/
structure Slots (n : ℕ) (s : ThreadPool τ) : Prop where
  /-- The greatest number of workers is the one the constructor set. -/
  max_num : s.max_num = n
  /-- There are never more than the greatest number. -/
  live_le : s.live_num ≤ s.max_num
  /-- There is a slot for each of them. -/
  length : s.worker_threads.length = n
  /-- `live_num` is the number of joinable slots. -/
  owned : ((owners s.worker_threads).length : ℤ) = s.live_num
  /-- No worker owns two slots. -/
  nodup : (owners s.worker_threads).Nodup
  /-- The owners are the workers that have not left. -/
  mem : ∀ v, v ∈ owners s.worker_threads ↔ ∃ p, s.workers[v]? = some p ∧ p.alive = true

/-- The constructor's slots: one for each of the first workers, the others free. -/
theorem construct_slots (n : ℕ) (h : MIN_THREAD_NUMBER ≤ n) :
    (construct τ n).worker_threads =
      [some 0, some 1, some 2] ++ List.replicate (n - MIN_THREAD_NUMBER) none := by
  obtain ⟨k, rfl⟩ := Nat.exists_eq_add_of_le h
  show (List.range (MIN_THREAD_NUMBER + k)).map _ = _
  rw [List.range_add, List.map_append, List.map_map, Nat.add_sub_cancel_left]
  congr 1
  refine List.eq_replicate_iff.mpr ⟨by simp, ?_⟩
  intro b hb
  simp only [List.mem_map, Function.comp_apply] at hb
  obtain ⟨i, -, hi⟩ := hb
  rw [if_neg (by omega)] at hi
  exact hi.symm

theorem owners_construct (n : ℕ) (h : MIN_THREAD_NUMBER ≤ n) :
    owners (construct τ n).worker_threads = [0, 1, 2] := by
  rw [construct_slots n h]
  simp [owners]

theorem slots_construct (n : ℕ) (h : MIN_THREAD_NUMBER ≤ n) : Slots n (construct τ n) where
  max_num := rfl
  live_le := by
    show ((MIN_THREAD_NUMBER : ℕ) : ℤ) ≤ (n : ℤ)
    exact_mod_cast h
  length := by simp [construct]
  owned := by
    rw [owners_construct n h]
    rfl
  nodup := by
    rw [owners_construct n h]
    decide
  mem v := by
    rw [owners_construct n h]
    have hmin : MIN_THREAD_NUMBER = 3 := rfl
    show v ∈ [0, 1, 2] ↔ ∃ p, (List.replicate MIN_THREAD_NUMBER Point.top)[v]? = some p ∧
      p.alive = true
    rw [List.getElem?_replicate]
    split
    · rename_i hv
      refine ⟨fun _ => ⟨_, rfl, rfl⟩, fun _ => ?_⟩
      simp only [List.mem_cons, List.not_mem_nil]
      omega
    · rename_i hv
      constructor
      · intro hm
        simp only [List.mem_cons, List.not_mem_nil, or_false] at hm
        omega
      · rintro ⟨p, hp, -⟩
        cases hp

/-- A worker that moves and does not leave keeps its slot. -/
theorem Slots.setPoint (h : Slots n s) (hw : s.workers[w]? = some p) (hpq : p.alive = q.alive) :
    Slots n (s.setPoint w q) where
  max_num := h.max_num
  live_le := h.live_le
  length := h.length
  owned := h.owned
  nodup := h.nodup
  mem v := by
    rw [setPoint_workers]
    refine (h.mem v).trans ⟨?_, ?_⟩
    · rintro ⟨x, hx, hax⟩
      by_cases hwv : w = v
      · subst hwv
        rw [hw] at hx
        cases hx
        exact ⟨q, (getElem?_set_iff hw).mpr (.inl ⟨rfl, rfl⟩), hpq ▸ hax⟩
      · exact ⟨x, (getElem?_set_iff hw).mpr (.inr ⟨hwv, hx⟩), hax⟩
    · rintro ⟨x, hx, hax⟩
      rcases (getElem?_set_iff hw).mp hx with ⟨rfl, rfl⟩ | ⟨-, hx⟩
      · exact ⟨p, hw, hpq ▸ hax⟩
      · exact ⟨x, hx, hax⟩

/-- A worker that retires gives up its slot, and leaves. -/
theorem Slots.retire (h : Slots n s) (hw : s.workers[w]? = some p) (hp : p.alive = true) :
    Slots n (s.retire w) where
  max_num := h.max_num
  live_le := by
    have := h.live_le
    show s.live_num - 1 ≤ s.max_num
    omega
  length := (length_detach w _).trans h.length
  owned := by
    have hmem : w ∈ owners s.worker_threads := (h.mem w).mpr ⟨p, hw, hp⟩
    have hpos : 0 < (owners s.worker_threads).length := List.length_pos_of_mem hmem
    have hold := h.owned
    show ((owners (detach_cur_thread w s.worker_threads)).length : ℤ) = s.live_num - 1
    rw [owners_detach, List.length_erase_of_mem hmem]
    omega
  nodup := by
    show (owners (detach_cur_thread w s.worker_threads)).Nodup
    rw [owners_detach]
    exact h.nodup.erase w
  mem v := by
    show v ∈ owners (detach_cur_thread w s.worker_threads) ↔
      ∃ p, (s.workers.set w .exited)[v]? = some p ∧ p.alive = true
    rw [owners_detach, h.nodup.mem_erase_iff, h.mem v]
    constructor
    · rintro ⟨hne, x, hx, hax⟩
      exact ⟨x, (getElem?_set_iff hw).mpr (.inr ⟨hne.symm, hx⟩), hax⟩
    · rintro ⟨x, hx, hax⟩
      rcases (getElem?_set_iff hw).mp hx with ⟨-, rfl⟩ | ⟨hne, hx⟩
      · cases hax
      · exact ⟨Ne.symm hne, x, hx, hax⟩

theorem Slots.notify_all (h : Slots n s) : Slots n s.notify_all where
  max_num := h.max_num
  live_le := h.live_le
  length := h.length
  owned := h.owned
  nodup := h.nodup
  mem v := by
    show _ ↔ ∃ p, (s.workers.map Point.notify)[v]? = some p ∧ p.alive = true
    rw [List.getElem?_map]
    refine (h.mem v).trans ⟨?_, ?_⟩
    · rintro ⟨x, hx, hax⟩
      exact ⟨x.notify, by rw [hx]; rfl, (Point.alive_notify x).trans hax⟩
    · rintro ⟨x, hx, hax⟩
      obtain ⟨y, hy, rfl⟩ := Option.map_eq_some_iff.mp hx
      exact ⟨y, hy, (Point.alive_notify y).symm.trans hax⟩

/-- How many workers a round of the manager adds: as many as it may, up to
`CHANGE_THREAD_NUMBER`. -/
theorem Slots.grow_count (h : Slots n s) :
    ((growSlots s.max_num 0 s.live_num s.workers.length s.worker_threads).2 : ℤ) =
      min (CHANGE_THREAD_NUMBER : ℤ) (s.max_num - s.live_num) := by
  have hlen := h.length
  have howned := h.owned
  have hmax := h.max_num
  rw [growSlots_count _ _ _ _ _ (Nat.zero_le _) h.live_le]
  omega

theorem Slots.grow (h : Slots n s) : Slots n s.grow where
  max_num := h.max_num
  live_le := by
    have hcount := h.grow_count
    have := h.live_le
    show s.live_num + _ ≤ s.max_num
    omega
  length := (length_growSlots _ _ _ _ _).trans h.length
  owned := by
    have hperm :=
      (owners_growSlots s.max_num 0 s.live_num s.workers.length s.worker_threads).length_eq
    rw [List.length_append, List.length_range'] at hperm
    have hold := h.owned
    show ((owners (growSlots _ _ _ _ _).1).length : ℤ) = s.live_num + _
    rw [hperm]
    push_cast
    omega
  nodup := by
    have hperm := owners_growSlots s.max_num 0 s.live_num s.workers.length s.worker_threads
    refine hperm.nodup_iff.mpr (List.nodup_append.mpr ⟨h.nodup, List.nodup_range', ?_⟩)
    intro v hv u hu hvu
    obtain ⟨x, hx, -⟩ := (h.mem v).mp hv
    have hlt := (List.getElem?_eq_some_iff.mp hx).1
    have := List.mem_range'_1.mp hu
    omega
  mem v := by
    have hperm := owners_growSlots s.max_num 0 s.live_num s.workers.length s.worker_threads
    show v ∈ owners (growSlots _ _ _ _ _).1 ↔
      ∃ p, (s.workers ++ List.replicate _ Point.top)[v]? = some p ∧ p.alive = true
    rw [hperm.mem_iff, List.mem_append, List.mem_range'_1, h.mem v, List.getElem?_append]
    split
    · rename_i hlt
      refine ⟨?_, .inl⟩
      rintro (h | h)
      · exact h
      · omega
    · rename_i hge
      rw [List.getElem?_replicate]
      constructor
      · rintro (⟨x, hx, -⟩ | hv)
        · exact absurd (List.getElem?_eq_some_iff.mp hx).1 hge
        · exact ⟨.top, by rw [if_pos (by omega)], rfl⟩
      · rintro ⟨x, hx, -⟩
        split at hx
        · right
          omega
        · cases hx

theorem kept_slots (n : ℕ) : Kept (fun s : ThreadPool τ => Slots n s) where
  setPoint _ h hw hp hq := h.setPoint hw ((Point.idle_alive hp).trans (Point.idle_alive hq).symm)
  push _ h := ⟨h.max_num, h.live_le, h.length, h.owned, h.nodup, h.mem⟩
  pop h hw hp _ := Slots.setPoint ⟨h.max_num, h.live_le, h.length, h.owned, h.nodup, h.mem⟩ hw
    (Point.idle_alive hp)
  destroyed h _ := ⟨h.max_num, h.live_le, h.length, h.owned, h.nodup, h.mem⟩
  retire h hw hp _ := h.retire hw (Point.idle_alive hp)
  task h hw := Slots.setPoint ⟨h.max_num, h.live_le, h.length, h.owned, h.nodup, h.mem⟩ hw rfl
  finish h hw := Slots.setPoint ⟨h.max_num, h.live_le, h.length, h.owned, h.nodup, h.mem⟩ hw rfl
  grow h := h.grow
  shrink h := Slots.notify_all ⟨h.max_num, h.live_le, h.length, h.owned, h.nodup, h.mem⟩

/-! ### A worker that was detached -/

/-- **A detached worker has left, and owns no slot.** -/
structure Apart (s : ThreadPool τ) : Prop where
  /-- No worker owns two slots. -/
  nodup : (owners s.worker_threads).Nodup
  /-- The owners have been created. -/
  created : ∀ v ∈ owners s.worker_threads, v < s.workers.length
  /-- The detached workers have left. -/
  gone : ∀ v ∈ s.detached, s.workers[v]? = some .exited
  /-- The owners have not been detached. -/
  apart : ∀ v ∈ owners s.worker_threads, v ∉ s.detached

theorem apart_construct (τ : Type) (n : ℕ) : Apart (construct τ n) := by
  have hown :
      owners (construct τ n).worker_threads = (List.range n).filter (· < MIN_THREAD_NUMBER) := by
    show ((List.range n).map _).filterMap id = _
    rw [List.filterMap_map, ← List.filterMap_eq_filter]
    congr 1
    funext i
    by_cases hi : i < MIN_THREAD_NUMBER
    · simp [hi, Option.guard]
    · simp [hi, Option.guard]
  refine ⟨?_, ?_, ?_, ?_⟩
  · rw [hown]
    exact List.nodup_range.filter _
  · intro v hv
    rw [hown, List.mem_filter, decide_eq_true_iff] at hv
    show v < (List.replicate MIN_THREAD_NUMBER Point.top).length
    rw [List.length_replicate]
    exact hv.2
  · intro v hv
    cases hv
  · intro v _ hv
    cases hv

/-- A worker that moves and has not left keeps its slot. -/
theorem Apart.setPoint (h : Apart s) (hw : s.workers[w]? = some p) (hp : p.alive = true) :
    Apart (s.setPoint w q) where
  nodup := h.nodup
  created v hv := by
    rw [setPoint_workers, List.length_set]
    exact h.created v hv
  gone v hv := by
    have hne : w ≠ v := by
      intro heq
      rw [heq, h.gone v hv] at hw
      cases hw
      cases hp
    exact (getElem?_set_iff hw).mpr (.inr ⟨hne, h.gone v hv⟩)
  apart := h.apart

/-- A worker that retires gives up the slot it owned. -/
theorem Apart.retire (h : Apart s) (hw : s.workers[w]? = some p) (hp : p.alive = true) :
    Apart (s.retire w) where
  nodup := by
    show (owners (detach_cur_thread w s.worker_threads)).Nodup
    rw [owners_detach]
    exact h.nodup.erase w
  created v hv := by
    have hv : v ∈ owners (detach_cur_thread w s.worker_threads) := hv
    rw [owners_detach] at hv
    show v < (s.workers.set w .exited).length
    rw [List.length_set]
    exact h.created v (List.mem_of_mem_erase hv)
  gone v hv := by
    rcases List.mem_append.mp hv with hv | hv
    · exact (h.setPoint (q := .exited) hw hp).gone v hv
    · rw [List.mem_singleton] at hv
      exact (getElem?_set_iff hw).mpr (.inl ⟨hv.symm, rfl⟩)
  apart v hv hd := by
    have hv : v ∈ owners (detach_cur_thread w s.worker_threads) := hv
    rw [owners_detach, h.nodup.mem_erase_iff] at hv
    rcases List.mem_append.mp hd with hd | hd
    · exact h.apart v hv.2 hd
    · exact hv.1 (List.mem_singleton.mp hd)

theorem Apart.notify_all (h : Apart s) : Apart s.notify_all where
  nodup := h.nodup
  created v hv := by
    show v < (s.workers.map Point.notify).length
    rw [List.length_map]
    exact h.created v hv
  gone v hv := by
    show (s.workers.map Point.notify)[v]? = _
    rw [List.getElem?_map, h.gone v hv]
    rfl
  apart := h.apart

/-- The workers added have new numbers. -/
theorem Apart.grow (h : Apart s) : Apart s.grow := by
  have hperm := owners_growSlots s.max_num 0 s.live_num s.workers.length s.worker_threads
  have hlen : s.grow.workers.length = s.workers.length +
      (growSlots s.max_num 0 s.live_num s.workers.length s.worker_threads).2 := by
    show (s.workers ++ List.replicate _ Point.top).length = _
    rw [List.length_append, List.length_replicate]
  refine ⟨?_, ?_, ?_, ?_⟩
  · refine hperm.nodup_iff.mpr (List.nodup_append.mpr ⟨h.nodup, List.nodup_range', ?_⟩)
    intro v hv u hu hvu
    have hlt := h.created v hv
    have hge := List.mem_range'_1.mp hu
    omega
  · intro v hv
    rw [hlen]
    rcases List.mem_append.mp (hperm.mem_iff.mp hv) with hv | hv
    · have := h.created v hv
      omega
    · exact (List.mem_range'_1.mp hv).2
  · intro v hv
    have hlt : v < s.workers.length := (List.getElem?_eq_some_iff.mp (h.gone v hv)).1
    show (s.workers ++ List.replicate _ Point.top)[v]? = _
    rw [List.getElem?_append_left hlt]
    exact h.gone v hv
  · intro v hv hd
    rcases List.mem_append.mp (hperm.mem_iff.mp hv) with hv | hv
    · exact h.apart v hv hd
    · have hlt : v < s.workers.length := (List.getElem?_eq_some_iff.mp (h.gone v hd)).1
      have := (List.mem_range'_1.mp hv).1
      omega

theorem kept_apart : Kept (fun s : ThreadPool τ => Apart s) where
  setPoint _ h hw hp _ := h.setPoint hw (Point.idle_alive hp)
  push _ h := ⟨h.nodup, h.created, h.gone, h.apart⟩
  pop h hw hp _ := Apart.setPoint ⟨h.nodup, h.created, h.gone, h.apart⟩ hw (Point.idle_alive hp)
  destroyed h _ := ⟨h.nodup, h.created, h.gone, h.apart⟩
  retire h hw hp _ := h.retire hw (Point.idle_alive hp)
  task h hw := Apart.setPoint ⟨h.nodup, h.created, h.gone, h.apart⟩ hw rfl
  finish h hw := Apart.setPoint ⟨h.nodup, h.created, h.gone, h.apart⟩ hw rfl
  grow h := h.grow
  shrink h := Apart.notify_all ⟨h.nodup, h.created, h.gone, h.apart⟩

/-! ### The accounts, as a whole -/

/-- **The accounts of the pool.** -/
structure Accounts (s : ThreadPool τ) : Prop where
  /-- There are at least as many workers as the least number. -/
  min_le : s.min_num ≤ s.live_num
  /-- There are at most as many as the greatest number. -/
  le_max : s.live_num ≤ s.max_num
  /-- `live_num` is the number of workers that have not left. -/
  live : (s.workers.countP Point.alive : ℤ) = s.live_num
  /-- It is the number of joinable slots. -/
  joinable : (s.worker_threads.countP Option.isSome : ℤ) = s.live_num
  /-- A worker that has not left owns exactly one slot. -/
  owns : ∀ (v : ℕ) (p : Point τ), s.workers[v]? = some p → p.alive = true →
    ∃! i : ℕ, s.worker_threads[i]? = some (some v)
  /-- `busy_num` is the number of workers between a pop and their decrement. -/
  busy : (s.workers.countP Point.busy : ℤ) = s.busy_num
  /-- `destroy_num` is not negative. -/
  destroy_nonneg : 0 ≤ s.destroy_num
  /-- `destroy_num` is at most `CHANGE_THREAD_NUMBER`. -/
  destroy_le : s.destroy_num ≤ CHANGE_THREAD_NUMBER
  /-- The manager puts no thread into a joinable slot. -/
  keeps : ∀ (s' : ThreadPool τ) (i v : ℕ), pool τ s .tick = some s' →
    s.worker_threads[i]? = some (some v) → s'.worker_threads[i]? = some (some v)
  /-- A growing round adds exactly as many workers as there is room for, up to
  `CHANGE_THREAD_NUMBER`. -/
  grows : ∀ s' : ThreadPool τ, pool τ s .tick = some s' → s.shouldGrow = true →
    (s'.workers.length : ℤ) = s.workers.length + min (CHANGE_THREAD_NUMBER : ℤ)
      (s.max_num - s.live_num)
  /-- What was accepted is what was popped, in order, and then the queue. -/
  queue : s.accepted = s.popped.map Prod.snd ++ s.taskQ
  /-- A popped task has been run once, or there is one worker that has still to run it. -/
  once : ∀ k < s.popped.length,
    s.ran.countP (fun r => r.1 == k) + s.workers.countP (Point.holds k) = 1
  /-- It is the worker that popped it that has run it. -/
  runner : ∀ k v : ℕ, (k, v) ∈ s.ran → s.popped[k]?.map Prod.fst = some v
  /-- It is the worker that popped it that runs it. -/
  holder : ∀ (v k : ℕ) (t : τ), s.workers[v]? = some (.running k t) → s.popped[k]? = some (v, t)

/-- A worker that owns a slot owns one. -/
theorem existsUnique_slot {slots : List (Option ℕ)} (hnd : (owners slots).Nodup) {v : ℕ}
    (hv : v ∈ owners slots) : ∃! i : ℕ, slots[i]? = some (some v) := by
  induction slots with
  | nil => cases hv
  | cons slot slots ih =>
    cases slot with
    | none =>
      obtain ⟨i, hi, huniq⟩ := ih hnd hv
      refine ⟨i + 1, hi, ?_⟩
      intro j hj
      cases j with
      | zero => cases hj
      | succ j => rw [huniq j hj]
    | some u =>
      rw [owners_some, List.nodup_cons] at hnd
      by_cases huv : u = v
      · subst huv
        refine ⟨0, rfl, ?_⟩
        intro j hj
        cases j with
        | zero => rfl
        | succ j =>
          have hmem : u ∈ owners slots :=
            List.mem_filterMap.mpr ⟨some u, List.mem_of_getElem? hj, rfl⟩
          exact absurd hmem hnd.1
      · have hv' : v ∈ owners slots := by
          rcases List.mem_cons.mp hv with h | h
          · exact absurd h.symm huv
          · exact h
        obtain ⟨i, hi, huniq⟩ := ih hnd.2 hv'
        refine ⟨i + 1, hi, ?_⟩
        intro j hj
        cases j with
        | zero =>
          injection hj with hj
          injection hj with hj
          exact absurd hj huv
        | succ j => rw [huniq j hj]

theorem countP_isSome (slots : List (Option ℕ)) :
    slots.countP Option.isSome = (owners slots).length := by
  rw [owners, List.length_filterMap_eq_countP]
  rfl

/-- A round of the manager keeps the joinable slots. -/
theorem keeps_tick (s : ThreadPool τ) {i v : ℕ} (h : s.worker_threads[i]? = some (some v)) :
    s.tick.worker_threads[i]? = some (some v) := by
  have hgrow : s.growIfNeeded.worker_threads[i]? = some (some v) := by
    unfold ThreadPool.growIfNeeded
    split
    · exact getElem?_growSlots _ _ _ _ _ h
    · exact h
  unfold ThreadPool.tick
  split
  · exact h
  · unfold ThreadPool.shrinkIfIdle
    split
    · exact hgrow
    · exact hgrow

theorem Slots.length_tick (h : Slots n s) (hs : s.shutdown = false) (hg : s.shouldGrow = true) :
    (s.tick.workers.length : ℤ) =
      s.workers.length + min (CHANGE_THREAD_NUMBER : ℤ) (s.max_num - s.live_num) := by
  have hlen : s.tick.workers.length = s.grow.workers.length := by
    unfold ThreadPool.tick ThreadPool.growIfNeeded
    rw [if_neg (by simp [hs]), if_pos hg]
    unfold ThreadPool.shrinkIfIdle
    split
    · exact List.length_map ..
    · rfl
  have hgrow : s.grow.workers.length = s.workers.length +
      (growSlots s.max_num 0 s.live_num s.workers.length s.worker_threads).2 := by
    show (s.workers ++ List.replicate _ Point.top).length = _
    rw [List.length_append, List.length_replicate]
  have hcount := h.grow_count
  omega

theorem accounts_of_up (hup : Up s) (hb : Books s) (hsl : Slots n s) : Accounts s where
  min_le := hb.min_le
  le_max := hsl.live_le
  live := hb.live
  joinable := by
    rw [countP_isSome]
    exact hsl.owned
  owns v p hv hp := existsUnique_slot hsl.nodup ((hsl.mem v).mpr ⟨p, hv, hp⟩)
  busy := hb.busy
  destroy_nonneg := hb.destroy_nonneg
  destroy_le := hb.destroy_le
  keeps s' i v ht h := by
    simp only [pool, hup.managing, if_true, Option.some.injEq] at ht
    subst ht
    exact keeps_tick s h
  grows s' ht hg := by
    simp only [pool, hup.managing, if_true, Option.some.injEq] at ht
    subst ht
    exact hsl.length_tick hup.shutdown hg
  queue := hb.queue
  once k hk := by rw [hb.once k, if_pos hk]
  runner := hb.runner
  holder := hb.holder

/-- **The accounts are kept**: in every state the pool reaches before it is destroyed. -/
theorem accounts_of_run (hn : MIN_THREAD_NUMBER ≤ n) {ms : List (Move τ)}
    (hrun : (pool τ).exec (construct τ n) ms = some s) (hs : s.shutdown = false) : Accounts s := by
  obtain ⟨hup, hb⟩ := (kept_books.upTo_run (books_construct τ n) hrun).of_up hs
  obtain ⟨-, hsl⟩ := ((kept_slots n).upTo_run (slots_construct n hn) hrun).of_up hs
  exact accounts_of_up hup hb hsl

/-- A run in which the queue fills while no worker runs, the manager adds a worker, and
the workers sleep, wake, and retire one of their number. -/
def busyRun : List (Move ℕ) :=
  [.add_task 0 none, .add_task 1 none, .add_task 2 none, .add_task 3 none, .tick,
    .lock 0, .lock 1, .lock 2, .lock 3, .task 0, .task 1, .task 2, .task 3,
    .finish 0, .finish 1, .finish 2, .finish 3, .lock 0, .lock 1, .tick, .wake 0]

theorem accounts_of_run_busy : ∃ s : ThreadPool ℕ,
    (pool ℕ).exec (construct ℕ 4) busyRun = some s ∧ Accounts s := by
  obtain ⟨s, hrun, hs⟩ : ∃ s, (pool ℕ).exec (construct ℕ 4) busyRun = some s ∧ s.shutdown = false :=
    ⟨_, rfl, rfl⟩
  exact ⟨s, hrun, accounts_of_run (by decide) hrun hs⟩

end PickUpLight.Pool
