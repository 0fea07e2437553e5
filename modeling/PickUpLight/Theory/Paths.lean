import Mathlib.Algebra.Order.Ring.Nat
import Mathlib.Data.List.Basic

/-!
# Paths

A path is a text, and names a place by the components between its slashes: an empty component and
`.` stay where they are, `..` goes up, and any other component goes down. A place is the list of the
components that lead to it from the root, the last one first.

A directory with a name behind it is the usual way to make a path, and the name alone says where it
leads: it goes up some levels and then down (`relative`, `walk_eq`). The place is inside the
directory exactly when it goes down again the way it went up, and further (`inside_append_iff`).
-/

namespace PickUpLight.Theory.Paths

/-- The components of a path that move. -/
def components (path : List Char) : List (List Char) :=
  (path.splitOn '/').filter fun c => c ≠ [] ∧ c ≠ ['.']

/-- A component leads from one place to the next; the root is above itself. -/
def enter (place : List (List Char)) (c : List Char) : List (List Char) :=
  if c = ['.', '.'] then place.tail else c :: place

/-- Where some components lead. -/
def walk (place : List (List Char)) (cs : List (List Char)) : List (List Char) :=
  cs.foldl enter place

/-- The place a path names. -/
def resolve (path : List Char) : List (List Char) := walk [] (components path)

/-- **A path leads strictly inside a directory.** -/
def Inside (dir path : List Char) : Prop := resolve dir <:+ resolve path ∧
      resolve path ≠ resolve dir

/-- A way from any place: so many levels up, and then down, with the last component first. -/
structure Way where
  ups : ℕ
  down : List (List Char)
  deriving DecidableEq, Repr

namespace Way

/-- The way with one more component. -/
def enter (way : Way) (c : List Char) : Way :=
  if c = ['.', '.'] then
    if way.down = [] then { way with ups := way.ups + 1 } else { way with down := way.down.tail }
  else { way with down := c :: way.down }

/-- Where a way leads. -/
def lead (way : Way) (place : List (List Char)) : List (List Char) := way.down ++ place.drop way.ups

/-- **A way comes back**, and goes on: it leads down again through the levels it has gone up. -/
def Returns (way : Way) (place : List (List Char)) : Prop :=
  place.take way.ups <:+ way.down ∧ way.down ≠ place.take way.ups

instance (way : Way) (place : List (List Char)) : Decidable (way.Returns place) :=
  inferInstanceAs (Decidable (_ ∧ _))

theorem lead_enter (way : Way) (place : List (List Char)) (c : List Char) :
    (way.enter c).lead place = Paths.enter (way.lead place) c := by
  obtain ⟨ups, down⟩ := way
  unfold enter Paths.enter lead
  by_cases hup : c = ['.', '.']
  · simp only [if_pos hup]
    cases down with
    | nil => simp only [if_true, List.nil_append, List.tail_drop]
    | cons d down => simp
  · simp only [if_neg hup, List.cons_append]

end Way

/-- The way a path leads. -/
def relative (path : List Char) : Way := (components path).foldl Way.enter { ups := 0, down := [] }

/-- **The way alone says where components lead.** -/
theorem walk_eq (place : List (List Char)) (cs : List (List Char)) (way : Way) :
    walk (way.lead place) cs = (cs.foldl Way.enter way).lead place := by
  induction cs generalizing way with
  | nil => rfl
  | cons c cs ih =>
    rw [List.foldl_cons, ← ih, Way.lead_enter]
    rfl

/-- A way leads strictly inside the place it starts from exactly when it returns. -/
theorem Way.suffix_lead_iff (way : Way) (place : List (List Char)) :
    place <:+ way.lead place ∧ way.lead place ≠ place ↔ way.Returns place := by
  have hplace : place = place.take way.ups ++ place.drop way.ups := (List.take_append_drop _ _).symm
  unfold lead Returns
  refine and_congr ?_ (not_congr ?_)
  · nth_rewrite 1 [hplace]
    exact List.suffix_append_self_iff
  · nth_rewrite 2 [hplace]
    exact List.append_left_inj _

/-- The components of a directory and of a name behind it. -/
theorem components_append (dir name : List Char) :
    components (dir ++ '/' :: name) = components dir ++ components name := by
  rw [components, List.splitOn_append_cons_self, List.filter_append, components, components]

/-- A slash at the end of a directory changes nothing. -/
theorem resolve_slash (dir : List Char) : resolve (dir ++ ['/']) = resolve dir := by
  have hnone : components [] = [] := by decide
  rw [resolve, components_append, hnone, List.append_nil, resolve]

/-- **A name behind a directory** leads strictly inside it exactly when its way returns. -/
theorem inside_append_iff (dir name : List Char) :
    Inside (dir ++ ['/']) (dir ++ '/' :: name) ↔ (relative name).Returns (resolve dir) := by
  have hpath : resolve (dir ++ '/' :: name) = (relative name).lead (resolve dir) := by
    have hwalk := walk_eq (resolve dir) (components name) { ups := 0, down := [] }
    rw [resolve, components_append, walk, List.foldl_append]
    exact hwalk
  rw [Inside, resolve_slash, hpath, Way.suffix_lead_iff]

/-- **One component that is not `..`** leads inside any place. -/
theorem returns_single {name : List Char} (hslash : '/' ∉ name)
    (hname : name ≠ [] ∧ name ≠ ['.'] ∧ name ≠ ['.', '.'])
    (place : List (List Char)) : (relative name).Returns place := by
  have hcomponents : components name = [name] := by
    rw [components, List.splitOn_eq_singleton hslash]
    exact List.filter_eq_self.mpr (by simpa using ⟨hname.1, hname.2.1⟩)
  have hway : relative name = { ups := 0, down := [name] } := by
    rw [relative, hcomponents, List.foldl_cons, List.foldl_nil, Way.enter, if_neg hname.2.2]
  rw [hway]
  exact ⟨List.nil_suffix, List.cons_ne_nil _ _⟩

end PickUpLight.Theory.Paths
