import Mathlib.Algebra.Order.Ring.Nat
import Mathlib.Data.Rat.Defs

/-!
# JSON

What the handlers use of `nlohmann::json`. Its parser and its writer are parameters
(`Nlohmann`); access to members and conversions are as `json.hpp` and `from_json.hpp`
have them. Where those throw, there is no value here.
-/

namespace PickUpLight.Control

/-- A JSON value. A number that is not an integer is a double, and so a rational. -/
inductive Json where
  | null
  | bool (b : Bool)
  | int (n : ℤ)
  | float (q : ℚ)
  | str (s : String)
  | arr (items : List Json)
  /-- The members; `dump` writes them in the order of their keys. -/
  | obj (members : List (String × Json))

/-- The parser and the writer. -/
structure Nlohmann where
  /-- `parse`, nothing where it throws. -/
  parse : List UInt8 → Option Json
  /-- `dump`. -/
  dump : Json → List UInt8

namespace Json

/-- `operator[]` with a key: a missing member is null, and so is every member of null,
which becomes an object. -/
def member (j : Json) (key : String) : Option Json :=
  match j with
  | null => some null
  | obj members => some ((members.lookup key).getD null)
  | _ => none

/-- Members, after an assignment to one of them. -/
def assign (key : String) (value : Json) : List (String × Json) → List (String × Json)
  | [] => [(key, value)]
  | m :: members => if m.1 = key then (key, value) :: members else m :: assign key value members

/-- An assignment to `operator[]` with a key. -/
def set (j : Json) (key : String) (value : Json) : Json :=
  match j with
  | obj members => obj (assign key value members)
  | _ => obj [(key, value)]

/-- `push_back`, which makes an array of null. -/
def push_back (j : Json) (item : Json) : Json :=
  match j with
  | arr items => arr (items ++ [item])
  | _ => arr [item]

/-- A 32-bit integer, from an integer. -/
def wrap (n : ℤ) : ℤ := n.bmod (2 ^ 32)

/-- A 32-bit integer, from a double: towards zero, and the least one if it does not fit. -/
def truncate (q : ℚ) : ℤ :=
  let n := q.num.tdiv q.den
  if -2 ^ 31 ≤ n ∧ n < 2 ^ 31 then n else -2 ^ 31

/-- Conversion to an enumeration: numbers only. -/
def toEnum : Json → Option ℤ
  | int n => some (wrap n)
  | float q => some (truncate q)
  | _ => none

/-- Conversion to `int`: numbers and truth values. -/
def toInt : Json → Option ℤ
  | bool b => some (if b then 1 else 0)
  | j => j.toEnum

/-- Conversion to `bool`. -/
def toBool : Json → Option Bool
  | bool b => some b
  | _ => none

/-- Conversion to `string`. -/
def toStr : Json → Option String
  | str s => some s
  | _ => none

/-- Comparison with a value of an enumeration, which never throws. -/
def eqCode (j : Json) (code : ℤ) : Bool :=
  match j with
  | int n => n = code
  | float q => q = code
  | _ => false

/-- A number is one code only. -/
theorem eqCode_eq {j : Json} {code : ℤ} (h : j.eqCode code = true) (code' : ℤ) :
    j.eqCode code' = decide (code = code') := by
  cases j with
  | int n =>
    have hn : n = code := by simpa [eqCode] using h
    simp [eqCode, hn]
  | float q =>
    have hq : q = code := by simpa [eqCode] using h
    simp [eqCode, hq]
  | _ => cases h

/-- A member as a `string`. -/
def string (j : Json) (key : String) : Option String := (j.member key).bind toStr

/-- A member as an enumeration's value. -/
def enum (j : Json) (key : String) : Option ℤ := (j.member key).bind toEnum

/-- A member as an `int`. -/
def integer (j : Json) (key : String) : Option ℤ := (j.member key).bind toInt

theorem lookup_assign (key key' : String) (value : Json) (members : List (String × Json)) :
    (assign key value members).lookup key' = if key' = key then some value
      else members.lookup key' := by
  induction members with
  | nil => grind [assign]
  | cons m members ih => grind [assign]

theorem mem_assign {members : List (String × Json)} {key : String} {v : Json} {m : String × Json}
    (h : m ∈ assign key v members) : m = (key, v) ∨ m ∈ members := by
  induction members with
  | nil => exact .inl (List.mem_singleton.mp h)
  | cons m' members ih =>
    rw [assign] at h
    split_ifs at h with hm
    · exact (List.mem_cons.mp h).imp_right (List.mem_cons_of_mem _)
    · rcases List.mem_cons.mp h with rfl | h
      · exact .inr List.mem_cons_self
      · exact (ih h).imp_right (List.mem_cons_of_mem _)

/-- The keys after an assignment: there is one more, if it was not there. -/
theorem map_fst_assign (members : List (String × Json)) (key : String) (v : Json) :
    (assign key v members).map Prod.fst = if key ∈ members.map Prod.fst then members.map Prod.fst
      else members.map Prod.fst ++ [key] := by
  induction members with
  | nil => rfl
  | cons m members ih => grind [assign]

/-- An assignment keeps the keys different. -/
theorem nodup_assign {members : List (String × Json)} (h : (members.map Prod.fst).Nodup)
    (key : String) (v : Json) :
    ((assign key v members).map Prod.fst).Nodup := by
  rw [map_fst_assign]
  split
  · exact h
  · rename_i hkey
    refine List.nodup_append.mpr ⟨h, by simp, ?_⟩
    rintro k hk k' hk' rfl
    rw [List.mem_singleton.mp hk'] at hk
    exact hkey hk

/-- A member after an assignment to it. -/
@[simp] theorem string_set_self (j : Json) (key value : String) :
    (j.set key (.str value)).string key = some value := by
  cases j <;> simp [set, string, member, toStr, lookup_assign]

/-- A member after an assignment to another one. -/
theorem string_set_ne {key key' : String} (h : key' ≠ key) (j value : Json) :
    (j.set key value).string key' = j.string key' := by
  have hnone : ([] : List (String × Json)).lookup key' = none := rfl
  have hlookup := lookup_assign key key' value []
  rw [if_neg h, hnone, assign] at hlookup
  cases j with
  | obj members => simp only [set, string, member, lookup_assign, if_neg h]
  | _ =>
    simp only [set, string, member, hlookup]
    rfl

/-- A member as a `bool`. -/
def boolean (j : Json) (key : String) : Option Bool := (j.member key).bind toBool

end Json

end PickUpLight.Control
