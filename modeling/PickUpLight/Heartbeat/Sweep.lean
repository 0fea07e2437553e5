import PickUpLight.Heartbeat.Evaluator
import PickUpLight.Theory.Machine

/-!
# The heartbeat sweep

`start_boost` counts missed heartbeats: every three seconds it copies `m_map_boost`, goes
through the copy, evicts the sockets whose `num` is 3 in the copy and adds one to the
`num` of the others in the map itself. All operations take the same lock, but as readers
(`shared_lock`), so the sessions' `add`, `remove`, `set_0` and `add_userId` can fall between
any two operations of a sweep.

## The model

The state is the map, what of the copy the iterator has still to visit (in any order: the
maps are unordered), and what a reader would note down: the sockets evicted, each with the
`num` the map had for it then, and the sockets at which the sweep's `at` found nothing. An
`at` that throws ends the process. A new connection is a new socket, whose address is
not that of a socket the map or the copy still holds.

## What is proved

The sweep is not safe: a disconnect makes `at` throw, and a heartbeat is ignored
(`unsafe_runs`). `safe_iff_undisturbed` says when it is: exactly when no session removes
a socket the sweep has still to visit, and none resets one that the sweep has still to
evict.
-/

namespace PickUpLight.Heartbeat

open PickUpLight.Theory

variable {κ : Type} [DecidableEq κ]

/-- The evaluator during its sweeps. -/
structure Evaluator (κ : Type) where
  /-- The map. -/
  m_map_boost : Registry κ
  /-- What the iterator has still to visit of the copy; nothing between two sweeps. -/
  map_copy : Option (Registry κ)
  /-- History: the sockets evicted, and their `num` in the map at that moment. -/
  evicted : List (κ × Option ℤ)
  /-- History: the sockets at which the sweep's `at` found nothing. -/
  absent : List κ
  /-- An exception has left a thread. -/
  terminated : Bool

/-- Before the first connection. -/
def Evaluator.initial : Evaluator κ where
  m_map_boost := ∅
  map_copy := none
  evicted := []
  absent := []
  terminated := false

/-- An operation on the map. -/
inductive Op (κ : Type) where
  /-- The sweep starts with a copy. -/
  | copy
  /-- The sweep comes to a socket of the copy. -/
  | visit (k : κ)
  /-- The sweep has come to the end of the copy. -/
  | done
  /-- A connection is accepted. -/
  | add (k : κ)
  /-- A session ends. -/
  | remove (k : κ)
  /-- A heartbeat comes. -/
  | set_0 (k : κ)
  /-- A user logs in. -/
  | add_userId (k : κ) (userId : String)
  deriving DecidableEq, Repr

namespace Evaluator

/-- What the copy has for a socket the sweep has still to visit. -/
def ahead (s : Evaluator κ) (k : κ) : Option Info := s.map_copy.bind fun copy => copy.lookup k

/-- The body of the sweep's loop, for the entry of socket `k` in the copy. -/
def visit (s : Evaluator κ) (k : κ) (data : Info) : Evaluator κ :=
  if data.num = 3 then
    { s with
      m_map_boost := s.m_map_boost.remove k
      evicted := s.evicted ++ [(k, (s.m_map_boost.lookup k).map Info.num)] }
  else if data.num < 3 ∧ data.num ≥ 0 then
    match s.m_map_boost.modifyAt k fun info => { info with num := info.num + 1 } with
    | some m => { s with m_map_boost := m }
    | none => { s with absent := s.absent ++ [k], terminated := true }
  else s

/-- A session's operation that uses `at`. -/
def session (s : Evaluator κ) : Option (Registry κ) → Evaluator κ
  | some m => { s with m_map_boost := m }
  | none => { s with terminated := true }

end Evaluator

/-- **The sweeps and the sessions, interleaved.** -/
def sweeping (κ : Type) [DecidableEq κ] : Machine (Evaluator κ) (Op κ) := fun s op =>
  if s.terminated then none
  else
    match op with
    | .copy => if s.map_copy.isNone then some { s with map_copy := some s.m_map_boost } else none
    | .visit k =>
      match s.map_copy with
      | some copy => (copy.lookup k).map fun data =>
        { s with map_copy := some (copy.erase k) }.visit k data
      | none => none
    | .done => if s.map_copy.map AList.keys = some [] then some { s with map_copy := none }
      else none
    | .add k =>
      if k ∈ s.m_map_boost ∨ (s.ahead k).isSome then none
      else some { s with m_map_boost := s.m_map_boost.add k "" }
    | .remove k => some { s with m_map_boost := s.m_map_boost.remove k }
    | .set_0 k => some (s.session (s.m_map_boost.set_0 k))
    | .add_userId k userId => some (s.session (s.m_map_boost.add_userId k userId))

/-- The sweep has found every socket it looked up with `at`, and has evicted sockets with
a `num` of 3 only. -/
def Safe (s : Evaluator κ) : Prop := s.absent = [] ∧ ∀ e ∈ s.evicted, e.2 = some 3

/-- An operation does not disturb the sweep: it removes no socket that the sweep has still to
visit, and resets none that the sweep has still to evict. -/
def Undisturbed (s : Evaluator κ) : Op κ → Prop
  | .remove k => s.ahead k = none
  | .set_0 k => (s.ahead k).map Info.num ≠ some 3
  | _ => True

/-! ### The counts -/

/-- **The invariant**: a `num` is between 0 and 3, and where the sweep has still to come, the
map's is at most the copy's. -/
structure Counted (s : Evaluator κ) : Prop where
  /-- In the map. -/
  range : ∀ k i, s.m_map_boost.lookup k = some i → 0 ≤ i.num ∧ i.num ≤ 3
  /-- In the copy. -/
  ahead : ∀ k i, s.ahead k = some i → 0 ≤ i.num ∧ i.num ≤ 3
  /-- In both. -/
  le : ∀ k i j, s.ahead k = some i → s.m_map_boost.lookup k = some j → j.num ≤ i.num

/-- The sweep will find socket `k`, and find it with a `num` of 3 if that is what the copy
says. -/
def Sound (s : Evaluator κ) (k : κ) (i : Info) : Prop :=
  ∃ j, s.m_map_boost.lookup k = some j ∧ (i.num = 3 → j.num = 3)

/-- The sweep is safe so far, and has nothing unsafe ahead. -/
def Good (s : Evaluator κ) : Prop := Safe s ∧ ∀ k i, s.ahead k = some i → Sound s k i

variable {s s' : Evaluator κ} {k : κ} {op : Op κ}

/-- The socket visited is no longer ahead, the others are. -/
theorem ahead_visited {t : Evaluator κ} {copy : Registry κ} (h : s.map_copy = some copy)
    (ht : t.map_copy = some (copy.erase k)) (j : κ) :
    t.ahead j = if j = k then none else s.ahead j := by
  simp only [Evaluator.ahead, h, ht, Option.bind_some]
  by_cases hj : j = k
  · rw [if_pos hj, hj, AList.lookup_erase]
  · rw [if_neg hj, AList.lookup_erase_ne hj]

/-- What one operation does to the map, the copy and the history. -/
inductive Does : Evaluator κ → Op κ → Evaluator κ → Prop where
  /-- The copy is made. -/
  | copy {s : Evaluator κ} (h : s.map_copy = none) :
      Does s .copy { s with map_copy := some s.m_map_boost }
  /-- A socket is evicted. -/
  | evict {s : Evaluator κ} {k : κ} {copy : Registry κ} {i : Info} (h : s.map_copy = some copy)
      (hk : s.ahead k = some i) (hi : i.num = 3) :
      Does s (.visit k)
        { s with
          map_copy := some (copy.erase k)
          m_map_boost := s.m_map_boost.remove k
          evicted := s.evicted ++ [(k, (s.m_map_boost.lookup k).map Info.num)] }
  /-- A missed heartbeat is counted. -/
  | count {s : Evaluator κ} {k : κ} {copy m : Registry κ} {i : Info} (h : s.map_copy = some copy)
      (hk : s.ahead k = some i) (hi : i.num < 3)
      (hm : s.m_map_boost.modifyAt k (fun info => { info with num := info.num + 1 }) = some m) :
      Does s (.visit k) { s with map_copy := some (copy.erase k), m_map_boost := m }
  /-- `at` finds nothing. -/
  | miss {s : Evaluator κ} {k : κ} {copy : Registry κ} {i : Info} (h : s.map_copy = some copy)
      (hk : s.ahead k = some i) (hi : i.num < 3) (hm : s.m_map_boost.lookup k = none) :
      Does s (.visit k)
        { s with map_copy := some (copy.erase k), absent := s.absent ++ [k], terminated := true }
  /-- The sweep ends. -/
  | done {s : Evaluator κ} (h : ∀ k, s.ahead k = none) : Does s .done { s with map_copy := none }
  /-- A connection is added. -/
  | add {s : Evaluator κ} {k : κ} (h : k ∉ s.m_map_boost) (hk : s.ahead k = none) :
      Does s (.add k) { s with m_map_boost := s.m_map_boost.add k "" }
  /-- A connection is removed. -/
  | remove {s : Evaluator κ} {k : κ} :
      Does s (.remove k) { s with m_map_boost := s.m_map_boost.remove k }
  /-- A heartbeat resets its entry. -/
  | reset {s : Evaluator κ} {k : κ} {m : Registry κ} (hm : s.m_map_boost.set_0 k = some m) :
      Does s (.set_0 k) { s with m_map_boost := m }
  /-- A login sets its user. -/
  | login {s : Evaluator κ} {k : κ} {userId : String} {m : Registry κ}
      (hm : s.m_map_boost.add_userId k userId = some m) :
      Does s (.add_userId k userId) { s with m_map_boost := m }
  /-- A session's `at` finds nothing. -/
  | throw {s : Evaluator κ} {op : Op κ} {k : κ} (hm : s.m_map_boost.lookup k = none)
      (hop : op = .set_0 k ∨ ∃ userId, op = .add_userId k userId) :
      Does s op { s with terminated := true }

theorem Counted.does (h : Counted s) (hs : sweeping κ s op = some s') : Does s op s' := by
  unfold sweeping at hs
  split at hs
  · cases hs
  · cases op with
    | copy =>
      dsimp only at hs
      split at hs <;> cases hs
      rename_i hc
      exact .copy (Option.isNone_iff_eq_none.mp hc)
    | visit k =>
      dsimp only at hs
      split at hs
      · rename_i copy hc
        obtain ⟨i, hi, rfl⟩ := Option.map_eq_some_iff.mp hs
        have hk : s.ahead k = some i := by simp [Evaluator.ahead, hc, hi]
        have hrange := h.ahead k i hk
        unfold Evaluator.visit
        by_cases h3 : i.num = 3
        · rw [if_pos h3]
          exact .evict hc hk h3
        · rw [if_neg h3, if_pos (by omega)]
          split
          · rename_i m hm
            exact .count hc hk (by omega) hm
          · rename_i hm
            exact .miss hc hk (by omega) (Registry.modifyAt_eq_none.mp hm)
      · cases hs
    | done =>
      dsimp only at hs
      split at hs <;> cases hs
      rename_i hc
      apply Does.done
      intro k
      obtain ⟨copy, hcopy, hkeys⟩ := Option.map_eq_some_iff.mp hc
      simp only [Evaluator.ahead, hcopy, Option.bind_some, AList.lookup_eq_none]
      intro hk
      have hk := AList.mem_keys.mp hk
      rw [hkeys] at hk
      cases hk
    | add k =>
      dsimp only at hs
      split at hs <;> cases hs
      rename_i hc
      rw [not_or, Bool.not_eq_true, Option.isSome_eq_false_iff, Option.isNone_iff_eq_none] at hc
      exact .add hc.1 hc.2
    | remove k =>
      cases hs
      exact .remove
    | set_0 k =>
      cases hs
      unfold Evaluator.session
      split
      · rename_i m hm
        exact .reset hm
      · rename_i hm
        exact .throw (Registry.modifyAt_eq_none.mp hm) (.inl rfl)
    | add_userId k userId =>
      cases hs
      unfold Evaluator.session
      split
      · rename_i m hm
        exact .login hm
      · rename_i hm
        exact .throw (Registry.modifyAt_eq_none.mp hm) (.inr ⟨userId, rfl⟩)

/-- What the counts need: nothing comes ahead, and an entry of the map that is new is in
range. -/
theorem Counted.of_entries (h : Counted s)
    (hahead : ∀ j i, s'.ahead j = some i → s.ahead j = some i)
    (hmap : ∀ j x, s'.m_map_boost.lookup j = some x → s.m_map_boost.lookup j = some x ∨
      0 ≤ x.num ∧ x.num ≤ 3 ∧ ∀ i, s'.ahead j = some i → x.num ≤ i.num) : Counted s' where
  range j x hx := by
    rcases hmap j x hx with hx | ⟨h0, h3, -⟩
    · exact h.range j x hx
    · exact ⟨h0, h3⟩
  ahead j i hi := h.ahead j i (hahead j i hi)
  le j i x hi hx := by
    rcases hmap j x hx with hx | ⟨-, -, hle⟩
    · exact h.le j i x (hahead j i hi) hx
    · exact hle i hi

/-- A visit leaves nothing new ahead. -/
theorem ahead_of_visited {t : Evaluator κ} {copy : Registry κ} (h : s.map_copy = some copy)
    (ht : t.map_copy = some (copy.erase k)) {j : κ} {i : Info} :
    t.ahead j = some i ↔ j ≠ k ∧ s.ahead j = some i := by
  rw [ahead_visited h ht]
  by_cases hj : j = k
  · simp [hj]
  · simp [hj]

theorem Counted.step (h : Counted s) (hs : sweeping κ s op = some s') : Counted s' := by
  cases h.does hs with
  | copy hc =>
    refine ⟨h.range, h.range, ?_⟩
    intro j i x hi hx
    have hij : s.m_map_boost.lookup j = some i := hi
    rw [hij] at hx
    cases hx
    exact Int.le_refl _
  | evict hc hk h3 =>
    refine h.of_entries ?_ ?_
    · intro j i hi
      exact ((ahead_of_visited hc rfl).mp hi).2
    · intro j x hx
      exact .inl (Registry.lookup_remove.mp hx).2
  | @count k copy m i hc hk hi hm =>
    refine h.of_entries ?_ ?_
    · intro j i hi
      exact ((ahead_of_visited hc rfl).mp hi).2
    · intro j x hx
      rcases (Registry.lookup_modifyAt hm).mp hx with ⟨rfl, y, hy, rfl⟩ | ⟨-, hx⟩
      · right
        have hrange := h.range j y hy
        have hle := h.le j i y hk hy
        refine ⟨by simp only; omega, by simp only; omega, ?_⟩
        intro i' hi'
        exact absurd rfl ((ahead_of_visited hc rfl).mp hi').1
      · exact .inl hx
  | miss hc hk hi hm =>
    refine h.of_entries ?_ ?_
    · intro j i hi
      exact ((ahead_of_visited hc rfl).mp hi).2
    · intro j x hx
      exact .inl hx
  | done hc =>
    refine h.of_entries ?_ ?_
    · intro j i hi
      cases hi
    · intro j x hx
      exact .inl hx
  | add hk hnew =>
    refine h.of_entries (fun _ _ hi => hi) ?_
    intro j x hx
    rcases (Registry.lookup_add hk "").mp hx with ⟨rfl, rfl⟩ | ⟨-, hx⟩
    · right
      refine ⟨by decide, by decide, ?_⟩
      intro i hi
      exact absurd (hnew.symm.trans hi) (by simp)
    · exact .inl hx
  | remove =>
    refine h.of_entries (fun _ _ hi => hi) ?_
    intro j x hx
    exact .inl (Registry.lookup_remove.mp hx).2
  | reset hm =>
    refine h.of_entries (fun _ _ hi => hi) ?_
    intro j x hx
    rcases (Registry.lookup_modifyAt hm).mp hx with ⟨rfl, y, hy, rfl⟩ | ⟨-, hx⟩
    · right
      refine ⟨by simp, by simp, ?_⟩
      intro i hi
      exact (h.ahead j i hi).1
    · exact .inl hx
  | login hm =>
    refine h.of_entries (fun _ _ hi => hi) ?_
    intro j x hx
    rcases (Registry.lookup_modifyAt hm).mp hx with ⟨rfl, y, hy, rfl⟩ | ⟨-, hx⟩
    · right
      exact ⟨(h.range j y hy).1, (h.range j y hy).2, fun i hi => h.le j i y hi hy⟩
    · exact .inl hx
  | throw hm hop => exact ⟨h.range, h.ahead, h.le⟩

theorem counted_initial : Counted (Evaluator.initial : Evaluator κ) := by
  refine ⟨?_, ?_, ?_⟩
  · intro k i hi
    simp [Evaluator.initial] at hi
  · intro k i hi
    cases hi
  · intro k i j hi
    cases hi

/-! ### Undisturbed sweeps are safe -/

theorem Good.step (h : Good s) (hc : Counted s) (hs : sweeping κ s op = some s')
    (hu : Undisturbed s op) : Good s' := by
  obtain ⟨⟨habs, hev⟩, hsound⟩ := h
  cases hc.does hs with
  | copy hc =>
    refine ⟨⟨habs, hev⟩, ?_⟩
    intro k i hi
    exact ⟨i, hi, id⟩
  | @evict k copy i hcopy hk h3 =>
    obtain ⟨j, hj, hj3⟩ := hsound k i hk
    refine ⟨⟨habs, ?_⟩, ?_⟩
    · intro e he
      rcases List.mem_append.mp he with he | he
      · exact hev e he
      · rw [List.mem_singleton] at he
        rw [he, hj, Option.map_some, hj3 h3]
    · intro j i hi
      obtain ⟨hjk, hi⟩ := (ahead_of_visited hcopy rfl).mp hi
      obtain ⟨x, hx, hx3⟩ := hsound j i hi
      exact ⟨x, Registry.lookup_remove.mpr ⟨hjk, hx⟩, hx3⟩
  | @count k copy m i hcopy hk h3 hm =>
    refine ⟨⟨habs, hev⟩, ?_⟩
    intro j i hi
    obtain ⟨hjk, hi⟩ := (ahead_of_visited hcopy rfl).mp hi
    obtain ⟨x, hx, hx3⟩ := hsound j i hi
    exact ⟨x, (Registry.lookup_modifyAt hm).mpr (.inr ⟨hjk, hx⟩), hx3⟩
  | @miss k copy i hcopy hk h3 hm =>
    obtain ⟨j, hj, -⟩ := hsound k i hk
    exact absurd (hm.symm.trans hj) (by simp)
  | done hcopy =>
    refine ⟨⟨habs, hev⟩, ?_⟩
    intro k i hi
    cases hi
  | @add k hk hnew =>
    refine ⟨⟨habs, hev⟩, ?_⟩
    intro j i hi
    have hjk : j ≠ k := by
      rintro rfl
      exact absurd (hnew.symm.trans hi) (by simp)
    obtain ⟨x, hx, hx3⟩ := hsound j i hi
    exact ⟨x, (Registry.lookup_add hk "").mpr (.inr ⟨hjk, hx⟩), hx3⟩
  | @remove k =>
    refine ⟨⟨habs, hev⟩, ?_⟩
    intro j i hi
    have hjk : j ≠ k := by
      rintro rfl
      exact absurd ((show s.ahead j = none from hu).symm.trans hi) (by simp)
    obtain ⟨x, hx, hx3⟩ := hsound j i hi
    exact ⟨x, Registry.lookup_remove.mpr ⟨hjk, hx⟩, hx3⟩
  | @reset k m hm =>
    refine ⟨⟨habs, hev⟩, ?_⟩
    intro j i hi
    obtain ⟨x, hx, hx3⟩ := hsound j i hi
    by_cases hjk : j = k
    · subst hjk
      refine ⟨_, (Registry.lookup_modifyAt hm).mpr (.inl ⟨rfl, x, hx, rfl⟩), ?_⟩
      intro h3
      have hi : s.ahead j = some i := hi
      exact absurd (show (s.ahead j).map Info.num = some 3 by rw [hi, Option.map_some, h3]) hu
    · exact ⟨x, (Registry.lookup_modifyAt hm).mpr (.inr ⟨hjk, hx⟩), hx3⟩
  | @login k userId m hm =>
    refine ⟨⟨habs, hev⟩, ?_⟩
    intro j i hi
    obtain ⟨x, hx, hx3⟩ := hsound j i hi
    by_cases hjk : j = k
    · subst hjk
      exact ⟨_, (Registry.lookup_modifyAt hm).mpr (.inl ⟨rfl, x, hx, rfl⟩), hx3⟩
    · exact ⟨x, (Registry.lookup_modifyAt hm).mpr (.inr ⟨hjk, hx⟩), hx3⟩
  | throw hm hop => exact ⟨⟨habs, hev⟩, hsound⟩

/-! ### Disturbed sweeps are not -/

/-- A disturbance leaves a socket ahead that is not sound. -/
theorem not_good_of_disturbed (hc : Counted s) (hs : sweeping κ s op = some s')
    (hu : ¬ Undisturbed s op) : ¬ Good s' := by
  rintro ⟨-, hsound⟩
  cases hc.does hs with
  | @remove k =>
    obtain ⟨i, hi⟩ := Option.ne_none_iff_exists'.mp (show s.ahead k ≠ none from hu)
    obtain ⟨x, hx, -⟩ := hsound k i hi
    exact (Registry.lookup_remove.mp hx).1 rfl
  | @reset k m hm =>
    simp only [Undisturbed, not_not] at hu
    obtain ⟨i, hi, h3⟩ := Option.map_eq_some_iff.mp hu
    obtain ⟨x, hx, hx3⟩ := hsound k i hi
    rcases (Registry.lookup_modifyAt hm).mp hx with ⟨-, y, -, rfl⟩ | ⟨hne, -⟩
    · exact absurd (hx3 h3) (by simp)
    · exact hne rfl
  | @throw op k hm hop =>
    rcases hop with rfl | ⟨userId, rfl⟩
    · simp only [Undisturbed, not_not] at hu
      obtain ⟨i, hi, -⟩ := Option.map_eq_some_iff.mp hu
      obtain ⟨x, hx, -⟩ := hsound k i hi
      exact absurd (hm.symm.trans hx) (by simp)
    · exact hu trivial
  | _ => exact hu trivial

/-- What was not sound is not sound later, and is not safe once it is visited. -/
theorem not_good_step (hc : Counted s) (h : ¬ Good s) (hs : sweeping κ s op = some s') :
    ¬ Good s' := by
  rintro ⟨⟨habs, hev⟩, hsound⟩
  apply h
  cases hc.does hs with
  | copy hcopy =>
    refine ⟨⟨habs, hev⟩, ?_⟩
    intro k i hi
    simp [Evaluator.ahead, hcopy] at hi
  | @evict k copy i hcopy hk h3 =>
    refine ⟨⟨habs, fun e he => hev e (List.mem_append_left _ he)⟩, ?_⟩
    intro j x hx
    by_cases hjk : j = k
    · subst hjk
      have hlast := hev _ (List.mem_append_right _ (List.mem_singleton_self _))
      obtain ⟨y, hy, hy3⟩ := Option.map_eq_some_iff.mp hlast
      exact ⟨y, hy, fun _ => hy3⟩
    · obtain ⟨y, hy, hy3⟩ := hsound j x ((ahead_of_visited hcopy rfl).mpr ⟨hjk, hx⟩)
      exact ⟨y, (Registry.lookup_remove.mp hy).2, hy3⟩
  | @count k copy m i hcopy hk hi hm =>
    refine ⟨⟨habs, hev⟩, ?_⟩
    intro j x hx
    by_cases hjk : j = k
    · subst hjk
      have hlook : s.m_map_boost.lookup j ≠ none := by
        intro hn
        rw [Registry.modifyAt_eq_none.mpr hn] at hm
        cases hm
      obtain ⟨y, hy⟩ := Option.ne_none_iff_exists'.mp hlook
      rw [hk] at hx
      cases hx
      exact ⟨y, hy, fun h3 => absurd h3 (by omega)⟩
    · obtain ⟨y, hy, hy3⟩ := hsound j x ((ahead_of_visited hcopy rfl).mpr ⟨hjk, hx⟩)
      rcases (Registry.lookup_modifyAt hm).mp hy with ⟨rfl, -⟩ | ⟨-, hy⟩
      · exact absurd rfl hjk
      · exact ⟨y, hy, hy3⟩
  | miss => exact absurd habs (by simp)
  | done hnone =>
    refine ⟨⟨habs, hev⟩, ?_⟩
    intro k i hi
    exact absurd ((hnone k).symm.trans hi) (by simp)
  | @add k hk hnew =>
    refine ⟨⟨habs, hev⟩, ?_⟩
    intro j i hi
    obtain ⟨y, hy, hy3⟩ := hsound j i hi
    rcases (Registry.lookup_add hk "").mp hy with ⟨rfl, -⟩ | ⟨-, hy⟩
    · exact absurd (hnew.symm.trans hi) (by simp)
    · exact ⟨y, hy, hy3⟩
  | @remove k =>
    refine ⟨⟨habs, hev⟩, ?_⟩
    intro j i hi
    obtain ⟨y, hy, hy3⟩ := hsound j i hi
    exact ⟨y, (Registry.lookup_remove.mp hy).2, hy3⟩
  | @reset k m hm =>
    refine ⟨⟨habs, hev⟩, ?_⟩
    intro j i hi
    obtain ⟨y, hy, hy3⟩ := hsound j i hi
    rcases (Registry.lookup_modifyAt hm).mp hy with ⟨rfl, x, hx, rfl⟩ | ⟨-, hy⟩
    · exact ⟨x, hx, fun h3 => absurd (hy3 h3) (by simp)⟩
    · exact ⟨y, hy, hy3⟩
  | @login k userId m hm =>
    refine ⟨⟨habs, hev⟩, ?_⟩
    intro j i hi
    obtain ⟨y, hy, hy3⟩ := hsound j i hi
    rcases (Registry.lookup_modifyAt hm).mp hy with ⟨rfl, x, hx, rfl⟩ | ⟨-, hy⟩
    · exact ⟨x, hx, hy3⟩
    · exact ⟨y, hy, hy3⟩
  | throw hm hop => exact ⟨⟨habs, hev⟩, hsound⟩

/-! ### The sweeps, as a whole -/

theorem good_initial : Good (Evaluator.initial : Evaluator κ) := by
  refine ⟨⟨rfl, ?_⟩, ?_⟩
  · intro e he
    cases he
  · intro k i hi
    cases hi

/-- **When the sweep is safe.** In a run without disturbances, no `at` of the sweep finds
nothing, and only sockets with a `num` of 3 are evicted. In a run that ends between two
sweeps, this is so only if there was no disturbance. -/
theorem safe_iff_undisturbed {ops : List (Op κ)}
    (hrun : (sweeping κ).exec Evaluator.initial ops = some s) :
    ((sweeping κ).Guarded Undisturbed Evaluator.initial ops → Safe s) ∧
      (s.map_copy = none → Safe s → (sweeping κ).Guarded Undisturbed Evaluator.initial ops) := by
  constructor
  · intro hG
    have hinv : Counted s ∧ Good s := by
      refine (sweeping κ).exec_inv_guarded (I := fun s => Counted s ∧ Good s) ?_
        ⟨counted_initial, good_initial⟩ hG hrun
      intro t l t' ht hu hl
      exact ⟨ht.1.step hl, ht.2.step ht.1 hl hu⟩
    exact hinv.2.1
  · intro hend hsafe
    refine (sweeping κ).guarded_of_not_bad (I := Counted) (B := fun s => ¬ Good s) ?_ ?_ ?_
      counted_initial hrun ?_
    · intro t l t' ht hl
      exact ht.step hl
    · intro t l t' ht hb hl
      exact not_good_step ht hb hl
    · intro t l t' ht hl hu
      exact not_good_of_disturbed ht hl hu
    · rw [not_not]
      refine ⟨hsafe, ?_⟩
      intro k i hi
      simp [Evaluator.ahead, hend] at hi

/-- A client disconnects between the copy and the visit. -/
def disconnectRun : List (Op ℕ) := [.add 1, .copy, .remove 1, .visit 1]

/-- Three rounds without a heartbeat, and one between the copy and the visit. -/
def heartbeatRun : List (Op ℕ) :=
  [.add 1, .copy, .visit 1, .done, .copy, .visit 1, .done, .copy, .visit 1, .done,
    .copy, .set_0 1, .visit 1, .done]

/-- **The sweep is not safe.** It looks up an absent socket, and it evicts a socket whose
heartbeat has just come. -/
theorem unsafe_runs :
    (¬ ∀ (ops : List (Op ℕ)) (s : Evaluator ℕ),
      (sweeping ℕ).exec Evaluator.initial ops = some s → s.absent = []) ∧
    ¬ ∀ (ops : List (Op ℕ)) (s : Evaluator ℕ),
      (sweeping ℕ).exec Evaluator.initial ops = some s → ∀ e ∈ s.evicted, e.2 = some 3 := by
  constructor
  · intro h
    obtain ⟨s, hrun, habs⟩ : ∃ s, (sweeping ℕ).exec Evaluator.initial disconnectRun = some s ∧
        s.absent = [1] := ⟨_, rfl, rfl⟩
    exact absurd (h disconnectRun s hrun) (by simp [habs])
  · intro h
    obtain ⟨s, hrun, hev⟩ : ∃ s, (sweeping ℕ).exec Evaluator.initial heartbeatRun = some s ∧
        s.evicted = [(1, some 0)] := ⟨_, rfl, rfl⟩
    exact absurd (h heartbeatRun s hrun (1, some 0) (by simp [hev])) (by decide)

/-- A socket that is silent for three rounds is evicted in the fourth. -/
theorem safe_iff_undisturbed_silent : ∃ s : Evaluator ℕ,
    (sweeping ℕ).exec Evaluator.initial
      [.add 1, .copy, .visit 1, .done, .copy, .visit 1, .done, .copy, .visit 1, .done,
        .copy, .visit 1, .done] = some s ∧ s.evicted = [(1, some 3)] ∧ Safe s := by
  obtain ⟨s, hrun, hev, hG⟩ : ∃ s : Evaluator ℕ,
      (sweeping ℕ).exec Evaluator.initial
        [.add 1, .copy, .visit 1, .done, .copy, .visit 1, .done, .copy, .visit 1, .done,
          .copy, .visit 1, .done] = some s ∧ s.evicted = [(1, some 3)] ∧
      (sweeping ℕ).Guarded Undisturbed Evaluator.initial
        [.add 1, .copy, .visit 1, .done, .copy, .visit 1, .done, .copy, .visit 1, .done,
          .copy, .visit 1, .done] := by
    refine ⟨_, rfl, rfl, ?_⟩
    simp only [Machine.Guarded, Undisturbed]
    simp
  exact ⟨s, hrun, hev, (safe_iff_undisturbed hrun).1 hG⟩

end PickUpLight.Heartbeat
