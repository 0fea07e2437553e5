import PickUpLight.Library.Escapes
import PickUpLight.Library.Integers

/-!
# The values the library can hold

An integer of the library has 64 bits and an object has its members by their keys (`Storable`); two
values that differ in the order of their members only are the same, and `Json.ordered` is the one of
them that the map has. Of a storable value without floating-point numbers `dump` writes the text
(`dump_eq`): there are no strings it throws for, and the buffers are long enough.
-/

namespace PickUpLight.Library

open Control Theory Theory.Utf8

/-- Members in the order of their keys. -/
def sorted {α : Type} (members : List (String × α)) : List (String × α) :=
  members.insertionSort fun a b => a.1 ≤ b.1

mutual

/-- A value with all its members in order. -/
def ordered : Json → Json
  | .arr items => .arr (orderedItems items)
  | .obj members => .obj (sorted (orderedMembers members))
  | j => j

def orderedItems : List Json → List Json
  | [] => []
  | j :: items => ordered j :: orderedItems items

def orderedMembers : List (String × Json) → List (String × Json)
  | [] => []
  | m :: members => (m.1, ordered m.2) :: orderedMembers members

end

/-- What is sorted by its keys may be changed before or after. -/
theorem sorted_map {α β : Type} (f : String × α → β) (members : List (String × α)) :
    sorted (members.map fun m => (m.1, f m)) = (sorted members).map fun m => (m.1, f m) :=
  (List.map_insertionSort (fun a b : String × α => a.1 ≤ b.1) (fun a b : String × β => a.1 ≤ b.1)
    (fun m => (m.1, f m)) members fun _ _ _ _ => Iff.rfl).symm

theorem sorted_perm {α : Type} (members : List (String × α)) : (sorted members).Perm members :=
  List.perm_insertionSort _ _

theorem orderedItems_eq_map (items : List Json) : orderedItems items = items.map ordered := by
  induction items with
  | nil => rfl
  | cons j items ih => rw [orderedItems, ih, List.map_cons]

theorem orderedMembers_eq_map (members : List (String × Json)) :
    orderedMembers members = members.map fun m => (m.1, ordered m.2) := by
  induction members with
  | nil => rfl
  | cons m members ih => rw [orderedMembers, ih, List.map_cons]

/-- Members with different keys are found in any order. -/
theorem lookup_perm {α : Type} {members members' : List (String × α)}
    (hperm : members.Perm members') (hnodup : (members.map Prod.fst).Nodup) (key : String) :
    members.lookup key = members'.lookup key := by
  induction hperm with
  | nil => rfl
  | cons m _ ih =>
    rw [List.lookup_cons, List.lookup_cons, ih hnodup.of_cons]
  | swap m m' members =>
    have hne : m'.1 ≠ m.1 :=
      fun h => (List.nodup_cons.mp hnodup).1 (by rw [h]; exact List.mem_cons_self)
    rw [List.lookup_cons, List.lookup_cons, List.lookup_cons, List.lookup_cons]
    by_cases hm : key = m.1
    · have hm' : (key == m'.1) = false := beq_false_of_ne fun h => hne (h.symm.trans hm)
      rw [hm']
    · rw [beq_false_of_ne hm]
  | trans hperm _ ih ih' => exact (ih hnodup).trans (ih' ((hperm.map Prod.fst).nodup_iff.mp hnodup))

theorem lookup_map {α β : Type} (f : α → β) (members : List (String × α)) (key : String) :
    (members.map fun m => (m.1, f m.2)).lookup key = (members.lookup key).map f := by
  induction members with
  | nil => rfl
  | cons m members ih =>
    rw [List.map_cons, List.lookup_cons, List.lookup_cons, ih]
    split <;> rfl

/-- **The members of an ordered value** are those of the value, ordered. -/
theorem lookup_ordered {members : List (String × Json)} (hnodup : (members.map Prod.fst).Nodup)
    (key : String) :
    (sorted (orderedMembers members)).lookup key = (members.lookup key).map ordered := by
  have hkeys : ((orderedMembers members).map Prod.fst).Nodup := by
    rwa [orderedMembers_eq_map, List.map_map]
  rw [← lookup_perm (sorted_perm _).symm hkeys, orderedMembers_eq_map, lookup_map]

theorem sorted_sorted {α : Type} (members : List (String × α)) :
    sorted (sorted members) = sorted members :=
  (List.pairwise_insertionSort _ _).insertionSort_eq

mutual

/-- The text of an ordered value is the one of the value: it has the members in order in any
case. -/
theorem text_ordered : ∀ j : Json, (ordered j).text = j.text
  | .null | .bool _ | .int _ | .float _ | .str _ => rfl
  | .arr items => by rw [ordered, Json.text, Json.text, texts_ordered items]
  | .obj members => by
    have hsorted :=
      sorted_map (fun m : String × Json => Json.quoted m.1 ++ 58 :: m.2.text)
        (orderedMembers members)
    rw [← Json.entries_eq_map, ← Json.entries_eq_map, entries_ordered members] at hsorted
    have hagain := sorted_sorted (Json.entries members)
    unfold sorted at hsorted hagain
    rw [ordered, Json.text, Json.text, sorted, ← hsorted, hagain]

theorem texts_ordered : ∀ items : List Json, Json.texts (orderedItems items) = Json.texts items
  | [] => rfl
  | j :: items => by rw [orderedItems, Json.texts, Json.texts, text_ordered j, texts_ordered items]

theorem entries_ordered : ∀ members : List (String × Json), Json.entries (orderedMembers members) =
      Json.entries members
  | [] => rfl
  | m :: members => by
    rw [orderedMembers, Json.entries, Json.entries, text_ordered m.2, entries_ordered members]

end

mutual

/-- An ordered value has the same numbers. -/
theorem plain_ordered : ∀ j : Json, j.Plain → (ordered j).Plain
  | .null, h | .bool _, h | .int _, h | .float _, h | .str _, h => h
  | .arr items, h => plainItems_ordered items h
  | .obj members, h => by
    have hmembers := Json.plainMembers_iff.mp (plainMembers_ordered members h)
    exact Json.plainMembers_iff.mpr fun m hm => hmembers m ((sorted_perm _).mem_iff.mp hm)

theorem plainItems_ordered : ∀ items : List Json, Json.PlainItems items →
      Json.PlainItems (orderedItems items)
  | [], h => h
  | j :: items, h => ⟨plain_ordered j h.1, plainItems_ordered items h.2⟩

theorem plainMembers_ordered : ∀ members : List (String × Json), Json.PlainMembers members →
    Json.PlainMembers (orderedMembers members)
  | [], h => h
  | m :: members, h => ⟨plain_ordered m.2 h.1, plainMembers_ordered members h.2⟩

end

/-! ### Writing -/

variable {dump_float : ℚ → List UInt8}

theorem dump_items_eq_map (items : List Json) :
    dump_items dump_float items = items.map (dump dump_float) := by
  induction items with
  | nil => rfl
  | cons j items ih => rw [dump_items, ih, List.map_cons]

theorem dump_members_eq_map (members : List (String × Json)) : dump_members dump_float members =
    members.map fun m =>
      (m.1, (dump_string m.1).bind fun a => (dump dump_float m.2).map fun b => a ++ 0x3A :: b) := by
  induction members with
  | nil => rfl
  | cons m members ih => rw [dump_members, ih, List.map_cons]

/-- Elements that are all written. -/
theorem dump_elements_ok (xs : List (List UInt8)) :
    dump_elements (xs.map .ok) = .ok (List.intercalate [0x2C] xs) := by
  induction xs with
  | nil => rfl
  | cons x xs ih =>
    cases xs with
    | nil => simp [dump_elements, List.intercalate]
    | cons y ys =>
      rw [List.map_cons, List.map_cons, dump_elements, ← List.map_cons, ih,
        List.intercalate_cons_cons]
      · simp [Except.bind, Except.map]
      · simp

theorem dump_string_eq (s : String) : dump_string s = .ok (Json.quoted s) := by
  rcases dump_escaped_cases (utf8 s) with ⟨cs, hcs, hok⟩ | ⟨_, hno, -, -⟩
  · rw [dump_string, hok, ← encode_injective hcs]
    rfl
  · exact absurd ⟨s.toList, rfl⟩ hno

/-- **What is written of a value is its text.** -/
theorem dump_eq {j : Json} (h : Storable j) (hplain : j.Plain) :
    dump dump_float j = .ok j.text := by
  induction h with
  | null => rfl
  | bool b => cases b <;> rfl
  | @int n hlow hhigh =>
    rw [dump, Json.text]
    by_cases hneg : n < 0
    · have hwritten := dump_integer_negative (a := (-n).toNat) (by omega) (by omega)
      rwa [Int.toNat_of_nonneg (by omega), neg_neg, ← utf8_neg hneg] at hwritten
    · have hwritten := dump_integer_natural (a := n.toNat) (by omega)
      rwa [Int.toNat_of_nonneg (by omega), ← utf8_nonneg (by omega)] at hwritten
  | float q => exact hplain.elim
  | str s => rw [dump, dump_string_eq, Json.text]
  | @arr items _ ih =>
    have hitems := Json.plainItems_iff.mp hplain
    have hdumped : dump_items dump_float items = (Json.texts items).map .ok := by
      rw [dump_items_eq_map, Json.texts_eq_map, List.map_map]
      exact List.map_congr_left fun j hj => ih j hj (hitems j hj)
    rw [dump, hdumped, dump_elements_ok, Json.text]
    rfl
  | @obj members _ _ ih =>
    have hmembers := Json.plainMembers_iff.mp hplain
    have hdumped :
        dump_members dump_float members = (Json.entries members).map fun e => (e.1, .ok e.2) := by
      rw [dump_members_eq_map, Json.entries_eq_map, List.map_map]
      refine List.map_congr_left fun m hm => ?_
      rw [dump_string_eq, ih m hm (hmembers m hm)]
      rfl
    have hsorted :=
      sorted_map (fun e => (Except.ok e.2 : Except DumpError _)) (Json.entries members)
    have helements :
        ((sorted (Json.entries members)).map fun e =>
          (e.1, (Except.ok e.2 : Except DumpError _))).map Prod.snd =
          ((sorted (Json.entries members)).map Prod.snd).map .ok := by
      rw [List.map_map, List.map_map]
      rfl
    unfold sorted at hsorted helements
    rw [dump, hdumped, hsorted, helements, dump_elements_ok, Json.text]
    rfl

end PickUpLight.Library
