import PickUpLight.Heartbeat.Sweep

/-!
# Rounds of heartbeats

What the evaluator is for, seen without the interleavings of `PickUpLight.Heartbeat.Sweep`: a client
is cut off when no heartbeat of it has come for three rounds. Here no operation overlaps
another: a sweep is one step, from its copy to its end, in whatever order the iterator takes. The
addresses are those `add` is given, and `add` of a connection that is there changes nothing.

## What is proved

`exact_of_run`: after any sequence of operations from the empty map, the `num` of an entry is the
number of sweeps since it was inserted or last set to 0; the next sweep finds every entry, closes
those with a `num` of 3 and no other, and counts one more for the rest; and an entry that
has a heartbeat in every stretch of four sweeps is never closed.
-/

namespace PickUpLight.Heartbeat

open PickUpLight.Theory

/-- An operation that overlaps no other. -/
inductive Round (κ : Type) where
  /-- A connection is accepted. -/
  | add (k : κ) (ip : String)
  /-- A session ends. -/
  | remove (k : κ)
  /-- A heartbeat comes. -/
  | set_0 (k : κ)
  /-- A user logs in. -/
  | add_userId (k : κ) (userId : String)
  /-- A whole sweep, with the order in which the iterator takes the entries. -/
  | sweep (order : List κ)
  deriving DecidableEq, Repr

section

variable {κ : Type}

/-- The number of sweeps among some operations. -/
def sweeps (ops : List (Round κ)) : ℕ :=
  ops.countP fun op => match op with
    | .sweep _ => true
    | _ => false

/-- Client `k` has a heartbeat in every stretch of the operations that has four sweeps. -/
def Beats (k : κ) (ops : List (Round κ)) : Prop :=
  ∀ stretch, stretch <:+: ops → sweeps stretch = 4 → .set_0 k ∈ stretch

@[simp] theorem sweeps_nil : sweeps ([] : List (Round κ)) = 0 := rfl

@[simp] theorem sweeps_append (ops ops' : List (Round κ)) :
    sweeps (ops ++ ops') = sweeps ops + sweeps ops' := List.countP_append

theorem Beats.of_infix {k : κ} {ops ops' : List (Round κ)} (h : Beats k ops)
    (hops : ops' <:+: ops) :
    Beats k ops' := by
  intro stretch hstretch hfour
  exact h stretch (hstretch.trans hops) hfour

end

variable {κ : Type} [DecidableEq κ]

/-- **The operations, one after the other.** `at` on an absent key is no operation here, and a sweep
is one only when its order is one of the entries. -/
def rounds (κ : Type) [DecidableEq κ] : Machine (Evaluator κ) (Round κ) := fun s op =>
  match op with
  | .add k ip => some { s with m_map_boost := s.m_map_boost.add k ip }
  | .remove k => some { s with m_map_boost := s.m_map_boost.remove k }
  | .set_0 k => (s.m_map_boost.set_0 k).map fun m => { s with m_map_boost := m }
  | .add_userId k userId => (s.m_map_boost.add_userId k userId).map fun m =>
    { s with m_map_boost := m }
  | .sweep order => (sweeping κ).exec s (.copy :: (order.map .visit ++ [.done]))

/-- An operation starts the count of `k` anew: it inserts `k`, or it is a heartbeat of `k`. -/
def Restarts (k : κ) (s : Evaluator κ) : Round κ → Prop
  | .add j _ => j = k ∧ k ∉ s.m_map_boost
  | .set_0 j => j = k
  | _ => False

/-- In the run of `ops` from `s`, there are `n` sweeps since `k` was inserted or last set to 0. -/
def SweptSince (s : Evaluator κ) (ops : List (Round κ)) (k : κ) (n : ℕ) : Prop :=
  ∃ (before : List (Round κ)) (op : Round κ) (after : List (Round κ)) (t u : Evaluator κ),
    ops = before ++ op :: after ∧ (rounds κ).exec s before = some t ∧ rounds κ t op = some u ∧
      Restarts k t op ∧ (rounds κ).Guarded (fun t op => ¬ Restarts k t op) u after ∧
        n = sweeps after

/-- What a sweep makes of an entry. -/
def aged (info : Info) : Option Info :=
  if info.num = 3 then none else some { info with num := info.num + 1 }

/-- **A sweep that is exact**: it closes the entries with a `num` of 3, each once, removes these,
and counts one more for the others. -/
structure Swept (s s' : Evaluator κ) : Prop where
  /-- No `at` has thrown. -/
  absent : s'.absent = s.absent
  /-- The entries afterwards. -/
  entries : ∀ k, s'.m_map_boost.lookup k = (s.m_map_boost.lookup k).bind aged
  /-- The sockets closed. -/
  closed : ∃ closed : List κ, s'.evicted = s.evicted ++ closed.map (fun k => (k, some 3)) ∧
    closed.Nodup ∧ ∀ k, k ∈ closed ↔ (s.m_map_boost.lookup k).map Info.num = some 3

variable {s s' : Evaluator κ} {k : κ} {copy : Registry κ} {order : List κ} {op : Round κ}
  {ops : List (Round κ)}

/-! ### One sweep -/

/-- A sweep that nothing overlaps, with `copy` still to visit: the map has what the copy has. -/
structure Underway (copy : Registry κ) (s : Evaluator κ) : Prop where
  /-- What is still to visit. -/
  map_copy : s.map_copy = some copy
  /-- No exception has left a thread. -/
  running : s.terminated = false
  /-- The map still has it. -/
  ahead : ∀ k i, copy.lookup k = some i → s.m_map_boost.lookup k = some i ∧ 0 ≤ i.num ∧ i.num ≤ 3

/-- **One visit**: the entry ages, and nothing else changes. -/
theorem Underway.visit (h : Underway copy s) {i : Info} (hk : copy.lookup k = some i) :
    ∃ t, sweeping κ s (.visit k) = some t ∧ Underway (copy.erase k) t ∧ t.absent = s.absent ∧
      (∀ j, t.m_map_boost.lookup j = if j = k then aged i else s.m_map_boost.lookup j) ∧
      t.evicted = s.evicted ++ if i.num = 3 then [(k, some 3)] else [] := by
  obtain ⟨hmap, h0, h3⟩ := h.ahead k i hk
  have hstep : sweeping κ s (.visit k) =
      some ({ s with map_copy := some (copy.erase k) }.visit k i) := by
    simp only [sweeping, h.running, h.map_copy, hk, Option.map_some, Bool.false_eq_true, if_false]
  have hahead : ∀ j x, (copy.erase k).lookup j = some x → j ≠ k ∧ copy.lookup j = some x :=
    fun j x hx => Registry.lookup_remove.mp hx
  refine ⟨_, hstep, ?_⟩
  unfold Evaluator.visit
  by_cases hi : i.num = 3
  · rw [if_pos hi]
    refine ⟨⟨rfl, h.running, ?_⟩, rfl, ?_, ?_⟩
    · intro j x hx
      obtain ⟨hjk, hx⟩ := hahead j x hx
      exact ⟨Registry.lookup_remove.mpr ⟨hjk, (h.ahead j x hx).1⟩, (h.ahead j x hx).2⟩
    · intro j
      by_cases hjk : j = k
      · rw [if_pos hjk, hjk, aged, if_pos hi]
        exact AList.lookup_erase _ _
      · rw [if_neg hjk]
        exact AList.lookup_erase_ne hjk
    · rw [if_pos hi, hmap, Option.map_some, hi]
  · rw [if_neg hi, if_pos (by omega)]
    simp only [Registry.modifyAt, hmap, Option.map_some]
    refine ⟨⟨rfl, h.running, ?_⟩, trivial, ?_, ?_⟩
    · intro j x hx
      obtain ⟨hjk, hx⟩ := hahead j x hx
      refine ⟨?_, (h.ahead j x hx).2⟩
      rw [AList.lookup_insert_ne hjk]
      exact (h.ahead j x hx).1
    · intro j
      by_cases hjk : j = k
      · rw [if_pos hjk, hjk, aged, if_neg hi, AList.lookup_insert]
      · rw [if_neg hjk, AList.lookup_insert_ne hjk]
    · rw [if_neg hi, List.append_nil]

/-- A visit is of an entry still to visit. -/
theorem Underway.of_visit (h : Underway copy s) (hs : sweeping κ s (.visit k) = some s') :
    ∃ i, copy.lookup k = some i := by
  simp only [sweeping, h.running, h.map_copy, Bool.false_eq_true, if_false] at hs
  obtain ⟨i, hi, -⟩ := Option.map_eq_some_iff.mp hs
  exact ⟨i, hi⟩

/-- The visits can be made in every order of the entries still to visit. -/
theorem Underway.exec_of_perm (h : Underway copy s) (horder : order.Perm copy.keys) :
    ∃ s', (sweeping κ).exec s (order.map .visit ++ [.done]) = some s' := by
  induction order generalizing s copy with
  | nil =>
    refine ⟨{ s with map_copy := none }, ?_⟩
    rw [List.map_nil, List.nil_append, Machine.exec_singleton]
    simp only [sweeping, h.running, h.map_copy, Option.map_some, horder.nil_eq.symm,
      Bool.false_eq_true, if_false, if_true]
  | cons k order ih =>
    have hk : k ∈ copy := AList.mem_keys.mpr (horder.subset (List.mem_cons_self ..))
    obtain ⟨i, hi⟩ := Option.isSome_iff_exists.mp (AList.lookup_isSome.mpr hk)
    obtain ⟨t, ht, hunder, -⟩ := h.visit hi
    have hrest : order.Perm (copy.erase k).keys := by
      rw [AList.keys_erase]
      exact List.perm_cons_erase (horder.subset (List.mem_cons_self ..)) |>.symm.trans horder.symm
        |>.cons_inv.symm
    obtain ⟨s', hs'⟩ := ih hunder hrest
    refine ⟨s', ?_⟩
    rw [List.map_cons, List.cons_append]
    exact Machine.exec_cons_iff _ |>.mpr ⟨t, ht, hs'⟩

/-- **The visits, to the end**: the entries still to visit age, each once. -/
theorem Underway.of_exec (h : Underway copy s)
    (hs : (sweeping κ).exec s (order.map .visit ++ [.done]) = some s') :
    s'.map_copy = none ∧ s'.terminated = false ∧ s'.absent = s.absent ∧
      (∀ j, s'.m_map_boost.lookup j =
        if j ∈ copy then (s.m_map_boost.lookup j).bind aged else s.m_map_boost.lookup j) ∧
      ∃ closed : List κ, s'.evicted = s.evicted ++ closed.map (fun k => (k, some 3)) ∧
        closed.Nodup ∧ ∀ k, k ∈ closed ↔ (copy.lookup k).map Info.num = some 3 := by
  induction order generalizing s copy with
  | nil =>
    rw [List.map_nil, List.nil_append, Machine.exec_singleton] at hs
    simp only [sweeping, h.running, h.map_copy, Option.map_some, Option.some.injEq,
      Bool.false_eq_true, if_false] at hs
    split at hs <;> cases hs
    rename_i hkeys
    have hnone : ∀ k, k ∉ copy := by
      intro k hk
      have hk := AList.mem_keys.mp hk
      rw [hkeys] at hk
      cases hk
    refine ⟨rfl, rfl, rfl, ?_, [], ?_, List.nodup_nil, ?_⟩
    · intro j
      rw [if_neg (hnone j)]
    · rw [List.map_nil, List.append_nil]
    · intro k
      rw [AList.lookup_eq_none.mpr (hnone k)]
      simp
  | cons k order ih =>
    rw [List.map_cons, List.cons_append] at hs
    obtain ⟨t, ht, hs⟩ := (Machine.exec_cons_iff _).mp hs
    obtain ⟨i, hi⟩ := h.of_visit ht
    obtain ⟨t', ht', hunder, habs, hlook, hev⟩ := h.visit hi
    rw [ht] at ht'
    cases ht'
    obtain ⟨hcopy, hrun, habs', hlook', closed, hev', hnodup, hclosed⟩ := ih hunder hs
    have hk : k ∈ copy := AList.lookup_isSome.mp (by rw [hi]; rfl)
    have hkc : k ∉ closed := by
      rw [hclosed, AList.lookup_erase]
      simp
    refine ⟨hcopy, hrun, habs'.trans habs, ?_, ?_⟩
    · intro j
      rw [hlook', hlook]
      by_cases hjk : j = k
      · have hgone : k ∉ copy.erase k := AList.lookup_eq_none.mp (AList.lookup_erase _ _)
        subst hjk
        rw [if_neg hgone, if_pos rfl, if_pos hk, (h.ahead j i hi).1, Option.bind_some]
      · have hsame : j ∈ copy.erase k ↔ j ∈ copy := by
          rw [← AList.lookup_isSome, ← AList.lookup_isSome, AList.lookup_erase_ne hjk]
        simp only [hsame, if_neg hjk]
    · refine ⟨if i.num = 3 then k :: closed else closed, ?_, ?_, ?_⟩
      · rw [hev', hev]
        split
        · rw [List.append_assoc, List.map_cons, List.singleton_append]
        · rw [List.append_nil]
      · split
        · exact List.nodup_cons.mpr ⟨hkc, hnodup⟩
        · exact hnodup
      · intro j
        by_cases hjk : j = k
        · subst hjk
          rw [hi, Option.map_some, Option.some.injEq]
          split
          · rename_i h3
            exact ⟨fun _ => h3, fun _ => List.mem_cons_self ..⟩
          · rename_i h3
            exact ⟨fun hj => absurd hj hkc, fun hj => absurd hj h3⟩
        · rw [← AList.lookup_erase_ne hjk, ← hclosed]
          split
          · rw [List.mem_cons, or_iff_right hjk]
          · rfl

/-- Between two operations: no sweep is under way, and the counts are in range. -/
structure Between (s : Evaluator κ) : Prop where
  /-- No copy is left. -/
  map_copy : s.map_copy = none
  /-- No exception has left a thread. -/
  running : s.terminated = false
  /-- The counts. -/
  range : ∀ k i, s.m_map_boost.lookup k = some i → 0 ≤ i.num ∧ i.num ≤ 3

/-- The copy of a sweep. -/
theorem Between.copied (h : Between s) :
    ∃ t, sweeping κ s .copy = some t ∧ Underway s.m_map_boost t ∧ t.absent = s.absent ∧
      t.m_map_boost = s.m_map_boost ∧ t.evicted = s.evicted := by
  refine ⟨{ s with map_copy := some s.m_map_boost }, ?_, ⟨rfl, h.running, ?_⟩, rfl, rfl, rfl⟩
  · simp only [sweeping, h.running, h.map_copy, Option.isNone_none, Bool.false_eq_true, if_false,
      if_true]
  · intro k i hi
    exact ⟨hi, h.range k i hi⟩

/-- **A sweep goes through in any order of the entries.** -/
theorem Between.sweep_of_perm (h : Between s) (horder : order.Perm s.m_map_boost.keys) :
    ∃ s', rounds κ s (.sweep order) = some s' := by
  obtain ⟨t, ht, hunder, -⟩ := h.copied
  obtain ⟨s', hs'⟩ := hunder.exec_of_perm horder
  exact ⟨s', (Machine.exec_cons_iff _).mpr ⟨t, ht, hs'⟩⟩

theorem Between.sweep (h : Between s) (hs : rounds κ s (.sweep order) = some s') :
    s'.map_copy = none ∧ s'.terminated = false ∧ Swept s s' := by
  obtain ⟨t, ht, hs⟩ := (Machine.exec_cons_iff _).mp hs
  obtain ⟨t', ht', hunder, habs, hmap, hev⟩ := h.copied
  rw [ht] at ht'
  cases ht'
  obtain ⟨hcopy, hrun, habs', hlook, hclosed⟩ := hunder.of_exec hs
  refine ⟨hcopy, hrun, habs'.trans habs, ?_, ?_⟩
  · intro k
    rw [hlook, hmap]
    split
    · rfl
    · rename_i hk
      rw [AList.lookup_eq_none.mpr hk]
      rfl
  · rw [← hev]
    exact hclosed

/-- What is left after a sweep has been counted. -/
theorem Swept.of_lookup (h : Swept s s') {x : Info} (hx : s'.m_map_boost.lookup k = some x) :
    ∃ i, s.m_map_boost.lookup k = some i ∧ i.num ≠ 3 ∧ x = { i with num := i.num + 1 } := by
  rw [h.entries] at hx
  obtain ⟨i, hi, hx⟩ := Option.bind_eq_some_iff.mp hx
  unfold aged at hx
  split at hx
  · cases hx
  · rename_i h3
    exact ⟨i, hi, h3, (Option.some.inj hx).symm⟩

/-! ### One operation -/

/-- **What an operation does to a count**: it starts it anew, or it adds one if it is a sweep. -/
theorem Between.count_step (h : Between s) (hs : rounds κ s op = some s') {x : Info}
    (hx : s'.m_map_boost.lookup k = some x) :
    Restarts k s op ∧ x.num = 0 ∨
      ¬ Restarts k s op ∧ ∃ i, s.m_map_boost.lookup k = some i ∧ x.num = i.num + sweeps [op] ∧
      x.num ≤ 3 := by
  cases op with
  | add j ip =>
    cases hs
    by_cases hj : j ∈ s.m_map_boost
    · have hsame : s.m_map_boost.add j ip = s.m_map_boost := if_pos hj
      rw [hsame] at hx
      exact .inr ⟨fun hr => hr.2 (hr.1 ▸ hj), x, hx, (Int.add_zero _).symm, (h.range k x hx).2⟩
    · rcases (Registry.lookup_add hj ip).mp hx with ⟨rfl, rfl⟩ | ⟨hne, hx⟩
      · exact .inl ⟨⟨rfl, hj⟩, rfl⟩
      · exact .inr ⟨fun hr => hne hr.1.symm, x, hx, (Int.add_zero _).symm, (h.range k x hx).2⟩
  | remove j =>
    cases hs
    have hx := (Registry.lookup_remove.mp hx).2
    exact .inr ⟨id, x, hx, (Int.add_zero _).symm, (h.range k x hx).2⟩
  | set_0 j =>
    obtain ⟨m, hm, rfl⟩ := Option.map_eq_some_iff.mp hs
    rcases (Registry.lookup_modifyAt hm).mp hx with ⟨rfl, i, -, rfl⟩ | ⟨hne, hx⟩
    · exact .inl ⟨rfl, rfl⟩
    · exact .inr ⟨fun hr => hne hr.symm, x, hx, (Int.add_zero _).symm, (h.range k x hx).2⟩
  | add_userId j userId =>
    obtain ⟨m, hm, rfl⟩ := Option.map_eq_some_iff.mp hs
    rcases (Registry.lookup_modifyAt hm).mp hx with ⟨rfl, i, hi, rfl⟩ | ⟨-, hx⟩
    · exact .inr ⟨id, i, hi, (Int.add_zero _).symm, (h.range k i hi).2⟩
    · exact .inr ⟨id, x, hx, (Int.add_zero _).symm, (h.range k x hx).2⟩
  | sweep order =>
    obtain ⟨-, -, hswept⟩ := h.sweep hs
    obtain ⟨i, hi, h3, rfl⟩ := hswept.of_lookup hx
    have hrange := h.range k i hi
    exact .inr ⟨id, i, hi, rfl, by simp only; omega⟩

theorem Between.step (h : Between s) (hs : rounds κ s op = some s') : Between s' := by
  have hquiet : s'.map_copy = none ∧ s'.terminated = false := by
    cases op with
    | add j ip => cases hs; exact ⟨h.map_copy, h.running⟩
    | remove j => cases hs; exact ⟨h.map_copy, h.running⟩
    | set_0 j =>
      obtain ⟨m, -, rfl⟩ := Option.map_eq_some_iff.mp hs
      exact ⟨h.map_copy, h.running⟩
    | add_userId j userId =>
      obtain ⟨m, -, rfl⟩ := Option.map_eq_some_iff.mp hs
      exact ⟨h.map_copy, h.running⟩
    | sweep order => exact ⟨(h.sweep hs).1, (h.sweep hs).2.1⟩
  refine ⟨hquiet.1, hquiet.2, ?_⟩
  intro k x hx
  rcases h.count_step hs hx with ⟨-, h0⟩ | ⟨-, i, hi, hnum, hle⟩
  · omega
  · have hrange := h.range k i hi
    have hpos : (0 : ℤ) ≤ sweeps [op] := Int.natCast_nonneg _
    omega

theorem between_initial : Between (Evaluator.initial : Evaluator κ) := by
  refine ⟨rfl, rfl, ?_⟩
  intro k i hi
  simp [Evaluator.initial] at hi

/-- **What an operation closes**: a sweep closes what has a `num` of 3, and nothing else does. -/
theorem Between.evicted_step (h : Between s) (hs : rounds κ s op = some s') (k : κ) :
    s'.evicted.filter (fun e => e.1 = k) = s.evicted.filter (fun e => e.1 = k) ∨
      sweeps [op] = 1 ∧ ∃ i, s.m_map_boost.lookup k = some i ∧ i.num = 3 := by
  cases op with
  | add j ip => cases hs; exact .inl rfl
  | remove j => cases hs; exact .inl rfl
  | set_0 j =>
    obtain ⟨m, -, rfl⟩ := Option.map_eq_some_iff.mp hs
    exact .inl rfl
  | add_userId j userId =>
    obtain ⟨m, -, rfl⟩ := Option.map_eq_some_iff.mp hs
    exact .inl rfl
  | sweep order =>
    obtain ⟨closed, hev, -, hclosed⟩ := (h.sweep hs).2.2.closed
    by_cases hk : k ∈ closed
    · obtain ⟨i, hi, h3⟩ := Option.map_eq_some_iff.mp ((hclosed k).mp hk)
      exact .inr ⟨rfl, i, hi, h3⟩
    · left
      rw [hev, List.filter_append, List.append_right_eq_self, List.filter_eq_nil_iff]
      intro e he
      obtain ⟨j, hj, rfl⟩ := List.mem_map.mp he
      rw [decide_eq_true_iff]
      rintro rfl
      exact hk hj

/-! ### Runs -/

variable {t : Evaluator κ} {n : ℕ}

/-- One more operation, and the count goes on. -/
theorem SweptSince.concat (h : SweptSince s ops k n) (hrun : (rounds κ).exec s ops = some t)
    (hop : ¬ Restarts k t op) : SweptSince s (ops ++ [op]) k (n + sweeps [op]) := by
  obtain ⟨before, op', after, t', u, rfl, hbefore, hop', hrestart, hafter, rfl⟩ := h
  have hu : (rounds κ).exec u after = some t := by
    rw [Machine.exec_append, hbefore, Option.bind_some, Machine.exec_cons, hop',
      Option.bind_some] at hrun
    exact hrun
  refine ⟨before, op', after ++ [op], t', u, ?_, hbefore, hop', hrestart, ?_, ?_⟩
  · rw [List.append_assoc, List.cons_append]
  · exact (Machine.guarded_append_iff _ hu).mpr ⟨hafter, (Machine.guarded_singleton _).mpr hop⟩
  · exact (sweeps_append after [op]).symm

/-- One more operation, and the count starts. -/
theorem SweptSince.restart (hrun : (rounds κ).exec s ops = some t) (hs : rounds κ t op = some s')
    (hop : Restarts k t op) : SweptSince s (ops ++ [op]) k 0 :=
  ⟨ops, op, [], t, s', rfl, hrun, hs, hop, trivial, rfl⟩

/-- **The counts of a run.** A count started in the run, or it goes on from before it. -/
theorem Between.counts (h : Between s) (hrun : (rounds κ).exec s ops = some s') :
    Between s' ∧ ∀ k x, s'.m_map_boost.lookup k = some x →
      (∃ n : ℕ, SweptSince s ops k n ∧ x.num = n) ∨
        ∃ i, s.m_map_boost.lookup k = some i ∧
          (rounds κ).Guarded (fun t op => ¬ Restarts k t op) s ops ∧
          x.num = i.num + sweeps ops := by
  refine (rounds κ).exec_history (P := fun ops s' => Between s' ∧
    ∀ k x, s'.m_map_boost.lookup k = some x →
    (∃ n : ℕ, SweptSince s ops k n ∧ x.num = n) ∨ ∃ i, s.m_map_boost.lookup k = some i ∧
      (rounds κ).Guarded (fun t op => ¬ Restarts k t op) s ops ∧
        x.num = i.num + sweeps ops) ?_ ?_ hrun
  · exact ⟨h, fun k x hx => .inr ⟨x, hx, trivial, (Int.add_zero _).symm⟩⟩
  · rintro ops t op t' hrun ⟨hbetween, hcounts⟩ hs
    refine ⟨hbetween.step hs, ?_⟩
    intro k x hx
    rcases hbetween.count_step hs hx with ⟨hrestart, h0⟩ | ⟨hrestart, y, hy, hnum, -⟩
    · exact .inl ⟨0, .restart hrun hs hrestart, h0⟩
    · rcases hcounts k y hy with ⟨n, hsince, hn⟩ | ⟨i, hi, hguard, hn⟩
      · refine .inl ⟨n + sweeps [op], hsince.concat hrun hrestart, ?_⟩
        omega
      · refine .inr ⟨i, hi, (Machine.guarded_append_iff _ hrun).mpr ⟨hguard, ?_⟩, ?_⟩
        · exact (Machine.guarded_singleton _).mpr hrestart
        · rw [sweeps_append]
          omega

/-- No heartbeat comes while a count goes on. -/
theorem not_mem_of_guarded (hguard : (rounds κ).Guarded (fun t op => ¬ Restarts k t op) s ops)
    (hrun : (rounds κ).exec s ops = some s') : .set_0 k ∉ ops := by
  intro hmem
  obtain ⟨t, ht⟩ := hguard.of_mem _ hrun hmem
  exact ht rfl

/-- **A count is the sweeps of a stretch without a heartbeat.** -/
theorem Between.stretch (h : Between s) (hk : ∀ i, s.m_map_boost.lookup k = some i → i.num = 0)
    (hrun : (rounds κ).exec s ops = some s') {x : Info} (hx : s'.m_map_boost.lookup k = some x) :
    ∃ before stretch, ops = before ++ stretch ∧ .set_0 k ∉ stretch ∧ x.num = sweeps stretch := by
  rcases (h.counts hrun).2 k x hx with
    ⟨n, ⟨before, op, after, t, u, rfl, ht, hop, -, hguard, rfl⟩, hn⟩ | ⟨i, hi, hguard, hn⟩
  · refine ⟨before ++ [op], after, by rw [List.append_assoc]; rfl, ?_, hn⟩
    rw [Machine.exec_append, ht, Option.bind_some, Machine.exec_cons, hop, Option.bind_some] at hrun
    exact not_mem_of_guarded hguard hrun
  · refine ⟨[], ops, rfl, not_mem_of_guarded hguard hrun, ?_⟩
    rw [hn, hk i hi, Int.zero_add]

/-- **A client whose heartbeats come is never cut off.** -/
theorem Between.spared (h : Between s) (hk : ∀ i, s.m_map_boost.lookup k = some i → i.num = 0)
    (hbeats : Beats k ops) (hrun : (rounds κ).exec s ops = some s') :
    s'.evicted.filter (fun e => e.1 = k) = s.evicted.filter (fun e => e.1 = k) := by
  refine (rounds κ).exec_history (P := fun ops s' => Beats k ops →
    s'.evicted.filter (fun e => e.1 = k) = s.evicted.filter (fun e => e.1 = k)) ?_ ?_ hrun hbeats
  · exact fun _ => rfl
  · intro ops t op t' hrun ih hs hbeats
    rw [← ih (hbeats.of_infix (List.prefix_append ..).isInfix)]
    rcases (h.counts hrun).1.evicted_step hs k with hev | ⟨hop, x, hx, h3⟩
    · exact hev
    · obtain ⟨before, stretch, rfl, hsilent, hnum⟩ := h.stretch hk hrun hx
      have hinfix : stretch ++ [op] <:+: before ++ stretch ++ [op] := ⟨before, [], by simp⟩
      have hfour : sweeps (stretch ++ [op]) = 4 := by
        rw [sweeps_append, hop]
        omega
      rcases List.mem_append.mp (hbeats _ hinfix hfour) with hmem | hmem
      · exact absurd hmem hsilent
      · rw [List.mem_singleton] at hmem
        subst hmem
        cases hop

/-- **The heartbeat is exact**, in the state `s` that `ops` lead to. -/
structure Exact (ops : List (Round κ)) (s : Evaluator κ) : Prop where
  /-- A `num` is in 0..3, and is the number of sweeps since the entry was inserted or last set to
  0. -/
  counted : ∀ k i, s.m_map_boost.lookup k = some i →
    0 ≤ i.num ∧ i.num ≤ 3 ∧ ∃ n : ℕ, i.num = n ∧ SweptSince Evaluator.initial ops k n
  /-- The next sweep goes through. -/
  sweep : ∀ order, order.Perm s.m_map_boost.keys → ∃ s', rounds κ s (.sweep order) = some s'
  /-- It closes and removes what has a `num` of 3; the others keep their address and user. -/
  swept : ∀ order s', rounds κ s (.sweep order) = some s' → Swept s s'
  /-- An entry with a heartbeat in every stretch of four sweeps is not closed. -/
  spared : ∀ before k ip after t, ops = before ++ .add k ip :: after →
    (rounds κ).exec Evaluator.initial before = some t → k ∉ t.m_map_boost → Beats k after →
      s.evicted.filter (fun e => e.1 = k) = t.evicted.filter (fun e => e.1 = k)

/-- **Heartbeat eviction is exact when operations do not overlap.** -/
theorem exact_of_run (hrun : (rounds κ).exec Evaluator.initial ops = some s) : Exact ops s := by
  obtain ⟨hbetween, hcounts⟩ := between_initial.counts hrun
  refine ⟨?_, fun _ => hbetween.sweep_of_perm, fun _ _ hs => (hbetween.sweep hs).2.2, ?_⟩
  · intro k i hi
    refine ⟨(hbetween.range k i hi).1, (hbetween.range k i hi).2, ?_⟩
    rcases hcounts k i hi with ⟨n, hsince, hn⟩ | ⟨j, hj, -⟩
    · exact ⟨n, hn, hsince⟩
    · simp [Evaluator.initial] at hj
  · rintro before k ip after t rfl ht hk hbeats
    rw [Machine.exec_append, ht, Option.bind_some] at hrun
    obtain ⟨u, hu, hafter⟩ := (Machine.exec_cons_iff _).mp hrun
    have ht' : Between t := (between_initial.counts ht).1
    have hnew : ∀ i, u.m_map_boost.lookup k = some i → i.num = 0 := by
      intro i hi
      rcases ht'.count_step hu hi with ⟨-, h0⟩ | ⟨hrestart, -⟩
      · exact h0
      · exact absurd ⟨rfl, hk⟩ hrestart
    rw [(ht'.step hu).spared hnew hbeats hafter]
    cases hu
    rfl

/-- Two clients, one of which is silent: it is closed by the fourth sweep. -/
theorem exact_of_run_silent : ∃ s : Evaluator ℕ,
    (rounds ℕ).exec Evaluator.initial
      [.add 1 "a", .add 2 "b", .sweep [2, 1], .sweep [1, 2], .set_0 2, .sweep [2, 1],
      .sweep [1, 2]] = some s ∧
      s.evicted = [(1, some 3)] ∧ Exact
        [.add 1 "a", .add 2 "b", .sweep [2, 1], .sweep [1, 2], .set_0 2, .sweep [2, 1],
        .sweep [1, 2]] s := by
  obtain ⟨s, hrun, hev⟩ : ∃ s : Evaluator ℕ, (rounds ℕ).exec Evaluator.initial
      [.add 1 "a", .add 2 "b", .sweep [2, 1], .sweep [1, 2], .set_0 2, .sweep [2, 1],
        .sweep [1, 2]] = some s ∧
        s.evicted = [(1, some 3)] := ⟨_, rfl, rfl⟩
  exact ⟨s, hrun, hev, exact_of_run hrun⟩

end PickUpLight.Heartbeat
