import Mathlib.Algebra.Order.Ring.Nat
import Mathlib.Data.List.Basic
import Mathlib.Data.List.Nodup

/-!
# Rosters

The threads of a program as a list of the points they are at: thread `i` is at the
`i`-th entry. A thread that moves sets its entry, a thread that is created is
appended, and a broadcast maps the list. The lemmas say what becomes of one entry
and of the number of entries of a kind.
-/

namespace PickUpLight.Theory.Roster

universe u v

variable {α : Type u} {l : List α} {i j : ℕ} {a b : α}

/-- After thread `i` has moved to `b`, it is at `b` and the others are where they were. -/
theorem getElem?_set_iff (h : l[i]? = some a) {x : α} :
    (l.set i b)[j]? = some x ↔ i = j ∧ b = x ∨ i ≠ j ∧ l[j]? = some x := by
  have hi : i < l.length := (List.getElem?_eq_some_iff.mp h).1
  by_cases hij : i = j
  · subst hij
    simp [hi]
  · simp [List.getElem?_set_ne hij, hij]

/-- After a thread has been created. -/
theorem getElem?_concat_iff {x : α} : (l ++ [a])[j]? = some x ↔ l[j]? = some x ∨
      j = l.length ∧ x = a := by
  rw [List.getElem?_append]
  split
  · rename_i hlt
    exact ⟨.inl, fun h => h.elim id fun hj => absurd hlt (hj.1 ▸ Nat.lt_irrefl _)⟩
  · rename_i hge
    rw [List.getElem?_singleton, List.getElem?_eq_none (by omega)]
    grind

/-- What an entry is replaced by counts the same, or not at all. -/
theorem filterMap_set_sublist {β : Type v} {f : α → Option β} (h : l[i]? = some a)
    (hb : f b = f a ∨ f b = none) : ((l.set i b).filterMap f).Sublist (l.filterMap f) := by
  induction l generalizing i with
  | nil => cases h
  | cons x l ih =>
    cases i with
    | zero =>
      cases h
      rw [List.set_cons_zero, List.filterMap_cons, List.filterMap_cons]
      rcases hb with hb | hb
      · rw [hb]
      · rw [hb]
        cases f a with
        | none => exact List.Sublist.refl _
        | some y => exact List.sublist_cons_self _ _
    | succ i =>
      rw [List.set_cons_succ, List.filterMap_cons, List.filterMap_cons]
      split
      · exact ih h
      · exact (ih h).cons_cons _

/-- An entry that no longer counts did count once. -/
theorem filterMap_set_perm {β : Type v} {f : α → Option β} {x : β} (h : l[i]? = some a)
    (ha : f a = some x) (hb : f b = none) :
    (l.filterMap f).Perm (x :: (l.set i b).filterMap f) := by
  induction l generalizing i with
  | nil => cases h
  | cons y l ih =>
    cases i with
    | zero =>
      cases h
      rw [List.set_cons_zero, List.filterMap_cons, List.filterMap_cons, ha, hb]
    | succ i =>
      rw [List.set_cons_succ, List.filterMap_cons, List.filterMap_cons]
      cases f y with
      | none => exact ih h
      | some z => exact ((ih h).cons z).trans (.swap x z _)

/-- The number of threads of a kind, when thread `i` moves from `a` to `b`. -/
theorem countP_set_add (f : α → Bool) (h : l[i]? = some a) (b : α) :
    (l.set i b).countP f + (f a).toNat = l.countP f + (f b).toNat := by
  obtain ⟨hi, rfl⟩ := List.getElem?_eq_some_iff.mp h
  rw [List.countP_set hi]
  by_cases ha : f l[i] = true
  · have hpos : 0 < l.countP f := List.countP_pos_iff.mpr ⟨l[i], List.getElem_mem hi, ha⟩
    cases hb : f b <;> simp [ha] <;> omega
  · cases hb : f b <;> simp [ha]

/-- A move between two points that are both of a kind, or both not, changes no number. -/
theorem countP_set_eq (f : α → Bool) (h : l[i]? = some a) (b : α) (hab : f a = f b) :
    (l.set i b).countP f = l.countP f := by
  have := countP_set_add f h b
  rw [hab] at this
  omega

/-- The sum of a rank over the threads, when thread `i` moves from `a` to `b`. -/
theorem sum_map_set_add (f : α → ℕ) (h : l[i]? = some a) (b : α) :
    ((l.set i b).map f).sum + f a = (l.map f).sum + f b := by
  induction l generalizing i with
  | nil => simp at h
  | cons x l ih =>
    cases i with
    | zero =>
      rw [List.getElem?_cons_zero, Option.some.injEq] at h
      subst h
      simp only [List.set_cons_zero, List.map_cons, List.sum_cons]
      omega
    | succ i =>
      have htail := ih (i := i) (by simpa using h)
      simp only [List.set_cons_succ, List.map_cons, List.sum_cons]
      omega

/-- The sum of a rank over the threads, when a broadcast raises the rank of none. -/
theorem sum_map_map_le (f : α → ℕ) (g : α → α) (h : ∀ a, f (g a) ≤ f a) (l : List α) :
    ((l.map g).map f).sum ≤ (l.map f).sum := by
  induction l with
  | nil => exact Nat.le_refl _
  | cons a l ih =>
    have ha := h a
    simp only [List.map_cons, List.sum_cons]
    omega

/-- A kind some thread is of has a positive number. -/
theorem countP_pos_of_getElem? {f : α → Bool} (h : l[i]? = some a) (ha : f a = true) :
    0 < l.countP f :=
  List.countP_pos_iff.mpr ⟨a, List.mem_of_getElem? h, ha⟩

/-- A kind with a positive number has a thread. -/
theorem exists_getElem?_of_countP_pos {f : α → Bool} (h : 0 < l.countP f) :
    ∃ (i : ℕ) (a : α), l[i]? = some a ∧ f a = true := by
  obtain ⟨a, hmem, ha⟩ := List.countP_pos_iff.mp h
  obtain ⟨i, hi⟩ := List.mem_iff_getElem?.mp hmem
  exact ⟨i, a, hi, ha⟩

end PickUpLight.Theory.Roster
