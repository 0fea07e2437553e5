import Mathlib.Algebra.Order.Ring.Nat
import Mathlib.Data.List.AList

/-!
# The status evaluator's maps

`UserStatusEvaluator` (`userstatusevaluator.cpp`) keeps, for every connection, an address, a
user and a number of missed heartbeats. It has one map for each of the two servers,
`m_map` by file descriptor and `m_map_boost` by socket, and every operation once for
each; both are `Registry` here, with the keys as a parameter. `at` on an absent key
throws, which is `none`.
-/

namespace PickUpLight.Heartbeat

/-- `Info`: what the evaluator knows of a connection. -/
structure Info where
  /-- The address. -/
  ip : String
  /-- The user, once logged in. -/
  userId : String
  /-- How many rounds no heartbeat has come. -/
  num : ℤ
  deriving DecidableEq, Repr

/-- `m_map` and `m_map_boost`. -/
abbrev Registry (κ : Type) := AList fun _ : κ => Info

namespace Registry

variable {κ : Type} [DecidableEq κ]

/-- `add`: a connection that is already there stays as it is, as `insert` has it. -/
def add (m : Registry κ) (k : κ) (ip : String) : Registry κ :=
  if k ∈ m then m else m.insert k { ip := ip, userId := "", num := 0 }

/-- `remove`. -/
def remove (m : Registry κ) (k : κ) : Registry κ := m.erase k

/-- An assignment to a field of `m.at(k)`. -/
def modifyAt (m : Registry κ) (k : κ) (f : Info → Info) : Option (Registry κ) :=
  (m.lookup k).map fun info => m.insert k (f info)

/-- `set_0`. -/
def set_0 (m : Registry κ) (k : κ) : Option (Registry κ) :=
  m.modifyAt k fun info => { info with num := 0 }

/-- `add_userId`. -/
def add_userId (m : Registry κ) (k : κ) (userId : String) : Option (Registry κ) :=
  m.modifyAt k fun info => { info with userId := userId }

variable {m m' : Registry κ} {j k : κ} {f : Info → Info}

/-- The entries after `add` of a connection that was not there. -/
theorem lookup_add (h : k ∉ m) (ip : String) {x : Info} :
    (m.add k ip).lookup j = some x ↔
      j = k ∧ x = { ip := ip, userId := "", num := 0 } ∨ j ≠ k ∧ m.lookup j = some x := by
  rw [add, if_neg h]
  by_cases hj : j = k
  · subst hj
    simp [eq_comm]
  · simp [AList.lookup_insert_ne hj, hj]

/-- The connections after `add`. -/
theorem mem_add {ip : String} : j ∈ m.add k ip ↔ j = k ∨ j ∈ m := by
  by_cases hk : k ∈ m
  · rw [add, if_pos hk]
    exact ⟨.inr, fun h => h.elim (fun hj => hj ▸ hk) id⟩
  · rw [add, if_neg hk, AList.mem_insert]

/-- The entries after `remove`. -/
theorem lookup_remove {x : Info} : (m.remove k).lookup j = some x ↔ j ≠ k ∧
      m.lookup j = some x := by
  rw [remove]
  by_cases hj : j = k
  · subst hj
    simp
  · simp [AList.lookup_erase_ne hj, hj]

theorem modifyAt_eq_none : m.modifyAt k f = none ↔ m.lookup k = none := by
  rw [modifyAt, Option.map_eq_none_iff]

/-- The entries after an assignment to a field of `m.at(k)`. -/
theorem lookup_modifyAt (h : m.modifyAt k f = some m') {x : Info} :
    m'.lookup j = some x ↔
      j = k ∧ (∃ info, m.lookup k = some info ∧ x = f info) ∨ j ≠ k ∧ m.lookup j = some x := by
  obtain ⟨info, hinfo, rfl⟩ := Option.map_eq_some_iff.mp h
  by_cases hj : j = k
  · subst hj
    simp [hinfo, eq_comm]
  · simp [AList.lookup_insert_ne hj, hj]

end Registry

end PickUpLight.Heartbeat
