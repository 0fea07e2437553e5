import Mathlib.Data.List.Sort
import PickUpLight.Control.Json
import PickUpLight.Theory.Decimal

/-!
# The texts of JSON values

What `serializer.hpp` makes of a value when it is asked for no indentation and may leave
characters as they are: this is how the server calls `dump`. Members are written in the order
of their keys, which is the one `std::map` keeps them in. `Plain` values have no number that is not
an integer; the server builds no others. Their texts have no zeros in them, and their
lengths are sums over their parts, whatever the order. An integer of the library has 64 bits and an
object has its members by their keys (`Storable`): of the values it can hold, the plain ones are
written as their texts.
-/

namespace PickUpLight.Control

/-- The bytes of a text. -/
def utf8 (s : String) : List UInt8 := s.toList.flatMap String.utf8EncodeChar

theorem zero_ne_ofNat {n : ℕ} (h : n % 256 ≠ 0) : (0 : UInt8) ≠ UInt8.ofNat n := by
  intro h0
  have h1 := congrArg UInt8.toNat h0
  rw [UInt8.toNat_ofNat'] at h1
  exact h h1.symm

theorem zero_not_mem_utf8EncodeChar {c : Char} (h : c.toNat ≠ 0) : 0 ∉ String.utf8EncodeChar c := by
  have hc : c.val.toNat ≠ 0 := h
  have hlt : c.val.toNat < 2 ^ 32 := c.val.toNat_lt
  unfold String.utf8EncodeChar
  dsimp only
  generalize c.val.toNat = v at hc hlt
  split
  · exact List.not_mem_cons_of_ne_of_not_mem (zero_ne_ofNat (by omega)) List.not_mem_nil
  · split
    · simp only [List.mem_cons, List.not_mem_nil, or_false, not_or]
      exact ⟨zero_ne_ofNat (by omega), zero_ne_ofNat (by omega)⟩
    · split
      · simp only [List.mem_cons, List.not_mem_nil, or_false, not_or]
        exact ⟨zero_ne_ofNat (by omega), zero_ne_ofNat (by omega), zero_ne_ofNat (by omega)⟩
      · simp only [List.mem_cons, List.not_mem_nil, or_false, not_or]
        exact ⟨zero_ne_ofNat (by omega), zero_ne_ofNat (by omega), zero_ne_ofNat (by omega),
          zero_ne_ofNat (by omega)⟩

section Numerals

open Theory.Decimal

theorem utf8_repr (n : ℕ) : utf8 n.repr = digits n := by
  rw [utf8, Nat.toList_repr, digits]
  have hdigit : ∀ c ∈ Nat.toDigits 10 n, String.utf8EncodeChar c = [UInt8.ofNat c.toNat] := by
    intro c hc
    have hisDigit := Nat.isDigit_of_mem_toDigits (by decide) (by decide) hc
    have hle : c.toNat ≤ 0x39 :=
      (UInt32.le_iff_toNat_le.mp (of_decide_eq_true (Bool.and_eq_true_iff.mp hisDigit).2))
    exact if_pos (Nat.le_trans hle (by decide))
  generalize Nat.toDigits 10 n = cs at hdigit
  induction cs with
  | nil => rfl
  | cons c cs ih =>
    rw [List.flatMap_cons, hdigit c List.mem_cons_self, ih fun c hc => hdigit c
      (List.mem_cons_of_mem _ hc)]
    rfl

/-- The text of a negative number. -/
theorem utf8_neg {x : ℤ} (h : x < 0) : utf8 (toString x) = 0x2D :: digits (-x).toNat := by
  have hsign : utf8 "-" = [0x2D] := by decide
  rw [Int.toString_eq_repr, Int.repr_eq_if, if_neg (by omega), utf8, String.toList_append,
    List.flatMap_append]
  change utf8 "-" ++ utf8 (-x).toNat.repr = _
  rw [hsign, utf8_repr, List.singleton_append]

theorem utf8_nonneg {x : ℤ} (h : 0 ≤ x) : utf8 (toString x) = digits x.toNat := by
  rw [Int.toString_eq_repr, Int.repr_eq_if, if_pos h, utf8_repr]

end Numerals

namespace Json

/-- A hexadecimal digit. -/
def hexDigit (n : ℕ) : UInt8 := if n < 10 then UInt8.ofNat (48 + n) else UInt8.ofNat (87 + n)

/-- `dump_escaped`, for one character. -/
def escapeChar (c : Char) : List UInt8 :=
  match c.toNat with
  | 8 => utf8 "\\b"
  | 9 => utf8 "\\t"
  | 10 => utf8 "\\n"
  | 12 => utf8 "\\f"
  | 13 => utf8 "\\r"
  | 34 => utf8 "\\\""
  | 92 => utf8 "\\\\"
  | n => if n < 32 then utf8 "\\u00" ++ [hexDigit (n / 16), hexDigit (n % 16)]
    else String.utf8EncodeChar c

def dump_escaped (s : String) : List UInt8 := s.toList.flatMap escapeChar

/-- A string, between its quotation marks. -/
def quoted (s : String) : List UInt8 := 34 :: (dump_escaped s ++ [34])

mutual

/-- **The text of a value**; the text of a number that is not an integer is left out. -/
def text : Json → List UInt8
  | null => utf8 "null"
  | bool true => utf8 "true"
  | bool false => utf8 "false"
  | int n => utf8 (toString n)
  | float _ => []
  | str s => quoted s
  | arr items => 91 :: (List.intercalate [44] (texts items) ++ [93])
  | obj members =>
    123 :: (List.intercalate [44]
      (((entries members).insertionSort fun a b => a.1 ≤ b.1).map Prod.snd) ++ [125])

/-- The texts of the items of an array. -/
def texts : List Json → List (List UInt8)
  | [] => []
  | j :: items => j.text :: texts items

/-- The texts of the members of an object, by their keys. -/
def entries : List (String × Json) → List (String × List UInt8)
  | [] => []
  | m :: members => (m.1, quoted m.1 ++ 58 :: m.2.text) :: entries members

end

mutual

/-- There is no number in the value that is not an integer. -/
def Plain : Json → Prop
  | float _ => False
  | arr items => PlainItems items
  | obj members => PlainMembers members
  | _ => True

/-- All items of an array are plain. -/
def PlainItems : List Json → Prop
  | [] => True
  | j :: items => j.Plain ∧ PlainItems items

/-- All members of an object are plain. -/
def PlainMembers : List (String × Json) → Prop
  | [] => True
  | m :: members => m.2.Plain ∧ PlainMembers members

end

theorem plainItems_iff {items : List Json} : PlainItems items ↔ ∀ j ∈ items, j.Plain := by
  induction items with
  | nil => simp [PlainItems]
  | cons j items ih => rw [PlainItems, ih, List.forall_mem_cons]

theorem plainMembers_iff {members : List (String × Json)} :
    PlainMembers members ↔ ∀ m ∈ members, m.2.Plain := by
  induction members with
  | nil => simp [PlainMembers]
  | cons m members ih => rw [PlainMembers, ih, List.forall_mem_cons]

theorem texts_eq_map (items : List Json) : texts items = items.map text := by
  induction items with
  | nil => rfl
  | cons j items ih => rw [texts, ih, List.map_cons]

theorem entries_eq_map (members : List (String × Json)) :
    entries members = members.map fun m => (m.1, quoted m.1 ++ 58 :: m.2.text) := by
  induction members with
  | nil => rfl
  | cons m members ih => rw [entries, ih, List.map_cons]

/-! ### Lengths -/

/-- Some texts with commas between them. -/
theorem length_intercalate (xs : List (List UInt8)) :
    (List.intercalate [44] xs).length = (xs.map List.length).sum + (xs.length - 1) := by
  induction xs with
  | nil => rfl
  | cons x xs ih =>
    cases xs with
    | nil => simp [List.intercalate]
    | cons y ys =>
      rw [List.intercalate_cons_cons, List.length_append, List.length_append, ih]
      simp only [List.map_cons, List.sum_cons, List.length_cons, List.length_nil]
      omega

@[simp] theorem length_quoted (s : String) : (quoted s).length = (dump_escaped s).length + 2 := by
  simp [quoted]

@[simp] theorem length_text_str (s : String) :
    (str s).text.length = (dump_escaped s).length + 2 := by
  rw [text, length_quoted]

/-- An array is as long as its items and the commas between them. -/
theorem length_text_arr (items : List Json) :
    (arr items).text.length = 2 + (items.map fun j => j.text.length).sum + (items.length - 1) := by
  rw [text, List.length_cons, List.length_append, length_intercalate, texts_eq_map, List.map_map,
    List.length_map, List.length_singleton]
  simp only [Function.comp_def]
  omega

/-- An object is as long as its members, with their keys, and the commas between them. -/
theorem length_text_obj (members : List (String × Json)) :
    (obj members).text.length =
      2 + (members.map fun m => (dump_escaped m.1).length + 3 + m.2.text.length).sum +
      (members.length - 1) := by
  have hperm := (List.perm_insertionSort (fun a b => a.1 ≤ b.1) (entries members)).map
    fun m : String × List UInt8 => m.2.length
  rw [text, List.length_cons, List.length_append, length_intercalate, List.map_map, List.length_map,
    List.length_insertionSort, List.length_singleton]
  simp only [Function.comp_def]
  rw [hperm.sum_nat, entries_eq_map, List.map_map, List.length_map]
  have hentry : (fun m : String × Json => (dump_escaped m.1).length + 3 + m.2.text.length) =
      (fun m : String × List UInt8 => m.2.length) ∘ fun m =>
        (m.1, quoted m.1 ++ 58 :: m.2.text) := by
    funext m
    simp only [Function.comp, List.length_append, length_quoted, List.length_cons]
    omega
  rw [hentry]
  omega

/-! ### Zeros -/

theorem zero_not_mem_escapeChar (c : Char) : 0 ∉ escapeChar c := by
  have hhex : ∀ n, n < 16 → hexDigit n ≠ 0 := by decide
  unfold escapeChar
  split
  · decide
  · decide
  · decide
  · decide
  · decide
  · decide
  · decide
  · split
    · rename_i hlt
      have hfront : 0 ∉ utf8 "\\u00" := by decide
      simp only [List.mem_append, hfront, List.mem_cons, List.not_mem_nil, or_false, false_or,
        not_or]
      exact ⟨(hhex _ (by omega)).symm, (hhex _ (by omega)).symm⟩
    · rename_i hge
      exact zero_not_mem_utf8EncodeChar (by omega)

theorem zero_not_mem_dump_escaped (s : String) : 0 ∉ dump_escaped s := by
  simp only [dump_escaped, List.mem_flatMap, not_exists, not_and]
  exact fun c _ => zero_not_mem_escapeChar c

theorem zero_not_mem_quoted (s : String) : 0 ∉ quoted s := by
  simp [quoted, zero_not_mem_dump_escaped]

/-- The text of an integer is made of digits and a sign. -/
theorem zero_not_mem_int (n : ℤ) : 0 ∉ utf8 (toString n) := by
  have hdigits : ∀ m : ℕ, 0 ∉ Theory.Decimal.digits m := fun m h =>
    absurd (Theory.Decimal.isDigit_of_mem_digits h) (by decide)
  by_cases h : n < 0
  · rw [utf8_neg h, List.mem_cons, not_or]
    exact ⟨by decide, hdigits _⟩
  · rw [utf8_nonneg (by omega)]
    exact hdigits _

theorem zero_not_mem_intercalate {xs : List (List UInt8)} (h : ∀ x ∈ xs, 0 ∉ x) :
    0 ∉ List.intercalate [44] xs := by
  induction xs with
  | nil => simp [List.intercalate]
  | cons x xs ih =>
    cases xs with
    | nil => simpa [List.intercalate] using h
    | cons y ys =>
      rw [List.intercalate_cons_cons]
      have hx := h x (by simp)
      have hrest := ih fun z hz => h z (List.mem_cons_of_mem _ hz)
      simp [hx, hrest]

mutual

/-- There are no zeros in a text. -/
theorem zero_not_mem_text : ∀ j : Json, 0 ∉ j.text
  | null => by decide
  | bool true => by decide
  | bool false => by decide
  | int n => by
    rw [text]
    exact zero_not_mem_int n
  | float _ => List.not_mem_nil
  | str s => by
    rw [text]
    exact zero_not_mem_quoted s
  | arr items => by
    rw [text]
    have hitems := zero_not_mem_intercalate (zero_not_mem_texts items)
    simp [hitems]
  | obj members => by
    rw [text]
    have hmembers := zero_not_mem_entries members
    have hsorted : ∀ x ∈ ((entries members).insertionSort fun a b => a.1 ≤ b.1).map Prod.snd,
        0 ∉ x := by
      simp only [List.mem_map, List.mem_insertionSort]
      rintro x ⟨m, hm, rfl⟩
      exact hmembers m hm
    simp [zero_not_mem_intercalate hsorted]

theorem zero_not_mem_texts : ∀ items : List Json, ∀ x ∈ texts items, 0 ∉ x
  | [] => by simp [texts]
  | j :: items => by
    simp only [texts, List.mem_cons, forall_eq_or_imp]
    exact ⟨zero_not_mem_text j, zero_not_mem_texts items⟩

theorem zero_not_mem_entries : ∀ members : List (String × Json), ∀ m ∈ entries members, 0 ∉ m.2
  | [] => by simp [entries]
  | m :: members => by
    simp only [entries, List.mem_cons, forall_eq_or_imp]
    refine ⟨?_, zero_not_mem_entries members⟩
    have hvalue := zero_not_mem_text m.2
    simp [zero_not_mem_quoted, hvalue]

end

/-! ### The least lengths -/

mutual

/-- The number of bytes every text of a value has at least. A number that is not an integer may
be written in several ways, with one digit at least. -/
def least : Json → ℕ
  | float _ => 1
  | arr items => 2 + leastItems items + (items.length - 1)
  | obj members => 2 + leastMembers members + (members.length - 1)
  | j => j.text.length

/-- The same of the items of an array. -/
def leastItems : List Json → ℕ
  | [] => 0
  | j :: items => least j + leastItems items

/-- The same of the members of an object, with their keys. -/
def leastMembers : List (String × Json) → ℕ
  | [] => 0
  | m :: members => (dump_escaped m.1).length + 3 + least m.2 + leastMembers members

end

mutual

/-- The text of a plain value is as short as can be. -/
theorem least_eq : ∀ j : Json, j.Plain → j.least = j.text.length
  | null, _ | bool _, _ | int _, _ | str _, _ => by simp only [least]
  | float _, h => h.elim
  | arr items, h => by
    rw [length_text_arr, least, leastItems_eq items h]
  | obj members, h => by
    rw [length_text_obj, least, leastMembers_eq members h]

theorem leastItems_eq : ∀ items : List Json, PlainItems items →
    leastItems items = (items.map fun j => j.text.length).sum
  | [], _ => rfl
  | j :: items, h => by
    rw [leastItems, least_eq j h.1, leastItems_eq items h.2, List.map_cons, List.sum_cons]

theorem leastMembers_eq : ∀ members : List (String × Json), PlainMembers members →
    leastMembers members =
      (members.map fun m => (dump_escaped m.1).length + 3 + m.2.text.length).sum
  | [], _ => rfl
  | m :: members, h => by
    rw [leastMembers, least_eq m.2 h.1, leastMembers_eq members h.2, List.map_cons, List.sum_cons]

end

/-- A member is a part of its object. -/
theorem leastMembers_lookup {members : List (String × Json)} {key : String} {value : Json}
    (h : members.lookup key = some value) :
    ∃ rest : List (String × Json),
      leastMembers members = (dump_escaped key).length + 3 + least value + leastMembers rest ∧
      members.length = rest.length + 1 ∧ ∀ key', key' ≠ key →
      rest.lookup key' = members.lookup key' := by
  induction members with
  | nil => cases h
  | cons m members ih =>
    obtain ⟨k, v⟩ := m
    by_cases hk : key = k
    · subst hk
      have hv : v = value := by simpa using h
      subst hv
      refine ⟨members, rfl, rfl, fun key' hne => ?_⟩
      have hbeq : (key' == key) = false := by simpa using hne
      rw [List.lookup_cons, hbeq]
    · have hbeq : (key == k) = false := by simpa using hk
      rw [List.lookup_cons, hbeq] at h
      obtain ⟨rest, hsum, hlength, hlookup⟩ := ih h
      refine ⟨(k, v) :: rest,
        ?_, by rw [List.length_cons, hlength, List.length_cons], fun key' hne => ?_⟩
      · simp only [leastMembers, hsum]
        omega
      · simp only [List.lookup_cons, hlookup key' hne]

/-- A member that is a string is in the object. -/
theorem lookup_of_string {j : Json} {key s : String} (h : j.string key = some s) :
    ∃ members, j = obj members ∧ members.lookup key = some (str s) := by
  cases j with
  | obj members =>
    refine ⟨members, rfl, ?_⟩
    simp only [string, member, Option.bind_some] at h
    cases hv : members.lookup key with
    | none => simp [hv, toStr] at h
    | some v =>
      rw [hv, Option.getD_some] at h
      cases v <;> simp_all [toStr]
  | _ => simp [string, member, toStr] at h

theorem dump_escaped_append (s t : String) :
    dump_escaped (s ++ t) = dump_escaped s ++ dump_escaped t := by
  simp [dump_escaped]

/-- A character takes six bytes at most. -/
theorem length_escapeChar_le (c : Char) : (escapeChar c).length ≤ 6 := by
  unfold escapeChar
  split
  · decide
  · decide
  · decide
  · decide
  · decide
  · decide
  · decide
  · split
    · simp [utf8]
      decide
    · rw [String.length_utf8EncodeChar]
      exact c.utf8Size_le_four.trans (by decide)

theorem length_dump_escaped_le (s : String) : (dump_escaped s).length ≤ 6 * s.length := by
  rw [dump_escaped, ← String.length_toList]
  induction s.toList with
  | nil => rfl
  | cons c cs ih =>
    have hc := length_escapeChar_le c
    simp only [List.flatMap_cons, List.length_append, List.length_cons]
    omega

end Json

theorem length_le_utf8 (s : String) : s.length ≤ (utf8 s).length := by
  rw [utf8, ← String.length_toList]
  induction s.toList with
  | nil => rfl
  | cons c cs ih =>
    have hc := c.utf8Size_pos
    simp only [List.flatMap_cons, List.length_append, List.length_cons,
      String.length_utf8EncodeChar]
    omega

/-! ### Values that can be held -/

/-- **A value that the library can hold.** -/
inductive Storable : Json → Prop where
  | null : Storable .null
  | bool (b : Bool) : Storable (.bool b)
  | int {n : ℤ} : -2 ^ 63 ≤ n → n < 2 ^ 64 → Storable (.int n)
  | float (q : ℚ) : Storable (.float q)
  | str (s : String) : Storable (.str s)
  | arr {items : List Json} : (∀ j ∈ items, Storable j) → Storable (.arr items)
  | obj {members : List (String × Json)} : (members.map Prod.fst).Nodup →
    (∀ m ∈ members, Storable m.2) →
    Storable (.obj members)

/-- A value that the library can hold and write. -/
def Written (j : Json) : Prop := Storable j ∧ j.Plain

theorem written_null : Written .null := ⟨.null, trivial⟩

theorem written_str (s : String) : Written (.str s) := ⟨.str s, trivial⟩

theorem written_bool (b : Bool) : Written (.bool b) := ⟨.bool b, trivial⟩

theorem written_int {n : ℤ} (hlow : -2 ^ 31 ≤ n) (hhigh : n < 2 ^ 31) : Written (.int n) :=
  ⟨.int (by omega) (by omega), trivial⟩

theorem written_obj_iff {members : List (String × Json)} :
    Written (.obj members) ↔ (members.map Prod.fst).Nodup ∧ ∀ m ∈ members, Written m.2 := by
  constructor
  · rintro ⟨_ | _ | _ | _ | _ | _ | ⟨hnodup, hstorable⟩, hplain⟩
    exact ⟨hnodup, fun m hm => ⟨hstorable m hm, Json.plainMembers_iff.mp hplain m hm⟩⟩
  · rintro ⟨hnodup, hmembers⟩
    exact ⟨.obj hnodup fun m hm => (hmembers m hm).1, Json.plainMembers_iff.mpr
      fun m hm => (hmembers m hm).2⟩

theorem written_arr_iff {items : List Json} : Written (.arr items) ↔ ∀ j ∈ items, Written j := by
  constructor
  · rintro ⟨_ | _ | _ | _ | _ | hstorable | _, hplain⟩
    exact fun j hj => ⟨hstorable j hj, Json.plainItems_iff.mp hplain j hj⟩
  · intro hitems
    exact ⟨.arr fun j hj => (hitems j hj).1, Json.plainItems_iff.mpr fun j hj => (hitems j hj).2⟩

theorem Written.set {j value : Json} (hj : Written j) (key : String) (hvalue : Written value) :
    Written (j.set key value) := by
  have hone : Written (.obj [(key, value)]) :=
    written_obj_iff.mpr
      ⟨List.nodup_singleton _, fun m hm => by rw [List.mem_singleton.mp hm]; exact hvalue⟩
  cases j with
  | obj members =>
    obtain ⟨hnodup, hmembers⟩ := written_obj_iff.mp hj
    refine written_obj_iff.mpr ⟨Json.nodup_assign hnodup key value, fun m hm => ?_⟩
    rcases Json.mem_assign hm with rfl | hm
    · exact hvalue
    · exact hmembers m hm
  | _ => exact hone

theorem Written.push_back {j item : Json} (hj : Written j) (hitem : Written item) :
    Written (j.push_back item) := by
  have hone : Written (.arr [item]) :=
    written_arr_iff.mpr fun j hj => by rw [List.mem_singleton.mp hj]; exact hitem
  cases j with
  | arr items =>
    refine written_arr_iff.mpr fun j hmem => ?_
    rcases List.mem_append.mp hmem with hmem | hmem
    · exact written_arr_iff.mp hj j hmem
    · rw [List.mem_singleton.mp hmem]
      exact hitem
  | _ => exact hone

/-- The writer is the one of `serializer.hpp`: of a value that the library can hold, without a
number that is not an integer, it writes the text. -/
def Nlohmann.Writes (lib : Nlohmann) : Prop := ∀ j : Json, Storable j → j.Plain →
      lib.dump j = j.text

theorem Nlohmann.Writes.dump_eq {lib : Nlohmann} (hlib : lib.Writes) {j : Json} (h : Written j) :
    lib.dump j = j.text :=
  hlib j h.1 h.2

/-- The parser takes no text for a value that cannot be written in so few bytes. -/
def Nlohmann.Reads (lib : Nlohmann) : Prop := ∀ text j, lib.parse text = some j →
      j.least ≤ text.length

end PickUpLight.Control
