import PickUpLight.Library.Grammar
import PickUpLight.Library.Tokens
import PickUpLight.Library.Values

/-!
# What is written can be read

The tokens of a text that `dump` writes are those of its value (`value_text`), and so `parse` has
the value back (`parse_text`).
-/

namespace PickUpLight.Library

open Control Theory Theory.Utf8 Theory.Decimal

variable {strtod : List UInt8 → Option ℚ} {rest rest' : List UInt8} {t : Token}

/-! ### Tokens -/

/-- The bytes there may be after a value in a text. -/
def Closed (rest : List UInt8) : Prop := ∀ c more, rest = c :: more → c = 0x2C ∨ c = 0x5D ∨ c = 0x7D

theorem closed_nil : Closed [] := fun _ _ h => by cases h

theorem closed_cons {c : UInt8} (hc : c = 0x2C ∨ c = 0x5D ∨ c = 0x7D) (more : List UInt8) :
    Closed (c :: more) := by
  intro c' more' h
  cases h
  exact hc

/-- An integer ends where a value does. -/
theorem stuck_closed (hrest : Closed rest) (n : ℕ) : number_table.Stuck (afterInteger n) rest := by
  rintro c more rfl
  unfold afterInteger
  rcases hrest c more rfl with rfl | rfl | rfl <;> (split_ifs <;> rfl)

/-- **Integers are read**, up to the end of the value. -/
theorem scan_int {n : ℤ} (hlow : -2 ^ 63 ≤ n) (hhigh : n < 2 ^ 64) (hrest : Closed rest) :
    ∃ t, IsAtom t (.int n) ∧ scan strtod (utf8 (toString n) ++ rest) = (t, rest) := by
  have hscan : ∀ sg m, IsSign sg → ∃ t, NumeralToken strtod (sg ++ digits m) t ∧
      scan strtod (sg ++ digits m ++ rest) = (t, rest) := by
    intro sg m hsg
    have hfirst : ∃ c more, sg ++ digits m = c :: more ∧ (c = 0x2D ∨ IsDigit c) := by
      rcases hsg with rfl | rfl
      · obtain ⟨c, more, hcons⟩ := List.exists_cons_of_ne_nil (digits_ne_nil m)
        exact ⟨c, more, hcons,
          .inr (isDigit_of_mem_digits (n := m) (by rw [hcons]; exact List.mem_cons_self))⟩
      · exact ⟨_, _, rfl, .inl rfl⟩
    obtain ⟨c, more, hcons, hc⟩ := hfirst
    have haccepting : (afterInteger m).accepting = true := by
      unfold afterInteger
      split_ifs <;> rfl
    have htaken : c :: (more ++ rest) = sg ++ digits m ++ rest := by rw [hcons, List.cons_append]
    have hstops :=
      scan_number_stops strtod htaken hc (table_signed_integer hsg m) (stuck_closed hrest m)
    rw [← htaken, scan_number_token hc]
    exact hstops.1 haccepting
  by_cases hneg : n < 0
  · obtain ⟨t, ht, hscanned⟩ := hscan [0x2D] (-n).toNat (.inr rfl)
    rw [utf8_neg hneg]
    refine ⟨t, ?_, hscanned⟩
    rw [List.singleton_append] at ht
    generalize hlexeme : (0x2D : UInt8) :: digits (-n).toNat = lexeme at ht
    cases ht with
    | @unsigned m _ => exact absurd hlexeme.symm (digits_ne_minus m _)
    | @integer m _ =>
      have hm := digits_injective (List.cons.inj hlexeme).2
      have hn : n = -m := by omega
      rw [hn]
      exact .integer _
    | float _ hlarge =>
      have hle := hlarge _ hlexeme.symm
      omega
  · obtain ⟨t, ht, hscanned⟩ := hscan [] n.toNat (.inl rfl)
    rw [utf8_nonneg (by omega)]
    refine ⟨t, ?_, hscanned⟩
    rw [List.nil_append] at ht
    generalize hlexeme : digits n.toNat = lexeme at ht
    cases ht with
    | @unsigned m _ =>
      have hm := digits_injective hlexeme
      have hn : n = m := by omega
      rw [hn]
      exact .unsigned m
    | integer => exact absurd hlexeme (digits_ne_minus _ _)
    | float hlarge _ =>
      have hle := hlarge _ hlexeme.symm
      omega

/-- **Strings are read**, up to the quotation mark. -/
theorem scan_quoted (s : String) (rest : List UInt8) :
    scan strtod (Json.quoted s ++ rest) = (.value_string (utf8 s), rest) := by
  have hspelled := spelled_escaped s.toList
  have hscan :
      scan strtod (Json.quoted s ++ rest) = scan_string (Json.dump_escaped s ++ [0x22] ++ rest) :=
    rfl
  rw [hscan]
  refine StringScan.reads_loop (s := ⟨_, []⟩) (r := (utf8 s, rest)).mp ⟨_, _, hspelled, ?_, rfl⟩
  exact List.append_assoc _ _ _

/-! ### Values -/

/-- Some texts with commas between them. -/
theorem intercalate_cons (x : List UInt8) (xs : List (List UInt8)) :
    List.intercalate [0x2C] (x :: xs) = x ++ xs.flatMap (0x2C :: ·) := by
  induction xs generalizing x with
  | nil => simp [List.intercalate]
  | cons y ys ih =>
    rw [List.intercalate_cons_cons, ih, List.flatMap_cons, List.append_assoc]
    rfl

/-- After a value there is a comma or the end of what it is in. -/
theorem closed_more (xs : List (List UInt8)) {c : UInt8} (hc : c = 0x5D ∨ c = 0x7D)
    (rest : List UInt8) :
    Closed (xs.flatMap (0x2C :: ·) ++ c :: rest) := by
  cases xs with
  | nil => exact closed_cons (.inr hc) rest
  | cons x xs => exact closed_cons (.inl rfl) _

/-- A value is read where its text is. -/
def ReadBack (strtod : List UInt8 → Option ℚ) (j : Json) : Prop :=
  ∀ rest, Closed rest → IsValue (tokens strtod (j.text ++ rest)) (ordered j) (tokens strtod rest)

theorem read_atom {j : Json} (h : ∀ rest, Closed rest → ∃ t, IsAtom t (ordered j) ∧
      scan strtod (j.text ++ rest) = (t, rest)) :
    ReadBack strtod j := by
  intro rest hrest
  obtain ⟨t, hatom, hscan⟩ := h rest hrest
  rw [tokens_step hscan (by rintro rfl; cases hatom)]
  exact .atom hatom

theorem read_items {items : List Json} (h : ∀ j ∈ items, ReadBack strtod j) (rest : List UInt8) :
    MoreItems (tokens strtod ((items.map Json.text).flatMap (0x2C :: ·) ++ 0x5D :: rest))
      (items.map ordered)
      (tokens strtod rest) := by
  induction items with
  | nil =>
    have hend : scan strtod (0x5D :: rest) = (.end_array, rest) := rfl
    rw [List.map_nil, List.flatMap_nil, List.nil_append, tokens_step hend (by simp)]
    exact .done
  | cons j items ih =>
    have hcomma : ∀ more, scan strtod (0x2C :: more) = (.value_separator, more) := fun _ => rfl
    rw [List.map_cons, List.flatMap_cons, List.append_assoc, List.cons_append,
      tokens_step (hcomma _) (by simp)]
    exact .more (h j List.mem_cons_self _ (closed_more _ (.inl rfl) _))
      (ih fun j hj => h j (List.mem_cons_of_mem _ hj))

/-- The text of a member. -/
def memberText (m : String × Json) : List UInt8 := Json.quoted m.1 ++ 0x3A :: m.2.text

/-- The tokens of a key, and the text after them. -/
theorem tokens_member (m : String × Json) (rest : List UInt8) :
    tokens strtod (memberText m ++ rest) =
    .value_string (utf8 m.1) :: .name_separator :: tokens strtod (m.2.text ++ rest) := by
  have hcolon : ∀ more, scan strtod (0x3A :: more) = (.name_separator, more) := fun _ => rfl
  rw [memberText, List.append_assoc, List.cons_append, tokens_step (scan_quoted m.1 _) (by simp),
    tokens_step (hcolon _) (by simp)]

theorem text_utf8 (s : String) : Sax.text (utf8 s) = s := by
  rw [Sax.text]
  exact congrArg (Option.getD · "") (decode_encode s)

theorem read_members {members : List (String × Json)} (h : ∀ m ∈ members, ReadBack strtod m.2)
    (rest : List UInt8) :
    MoreMembers (tokens strtod ((members.map memberText).flatMap (0x2C :: ·) ++ 0x7D :: rest))
      (members.map fun m => (m.1, ordered m.2)) (tokens strtod rest) := by
  induction members with
  | nil =>
    have hend : scan strtod (0x7D :: rest) = (.end_object, rest) := rfl
    rw [List.map_nil, List.flatMap_nil, List.nil_append, tokens_step hend (by simp)]
    exact .done
  | cons m members ih =>
    have hcomma : ∀ more, scan strtod (0x2C :: more) = (.value_separator, more) := fun _ => rfl
    rw [List.map_cons, List.flatMap_cons, List.append_assoc, List.cons_append,
      tokens_step (hcomma _) (by simp), tokens_member]
    have hmore :=
      @MoreMembers.more _ _ _ (utf8 m.1) _ _ (h m List.mem_cons_self _ (closed_more _ (.inr rfl) _))
      (ih fun m hm => h m (List.mem_cons_of_mem _ hm))
    rwa [text_utf8] at hmore

theorem assign_append {key : String} {members : List (String × Json)}
    (h : key ∉ members.map Prod.fst) (v : Json) :
    Json.assign key v members = members ++ [(key, v)] := by
  induction members with
  | nil => rfl
  | cons m members ih =>
    rw [List.map_cons, List.mem_cons, not_or] at h
    rw [Json.assign, if_neg (Ne.symm h.1), ih h.2, List.cons_append]

/-- Members with keys that are not there yet are added at the end. -/
theorem collect_append {members read : List (String × Json)}
    (h : ((members ++ read).map Prod.fst).Nodup) :
    collect members read = members ++ read := by
  induction read generalizing members with
  | nil => exact (List.append_nil _).symm
  | cons m read ih =>
    have hkey : m.1 ∉ members.map Prod.fst := by
      rw [List.map_append, List.map_cons] at h
      intro hm
      exact (List.nodup_append.mp h).2.2 m.1 hm m.1 List.mem_cons_self rfl
    have hcollect : collect members (m :: read) = collect (Json.assign m.1 m.2 members) read := rfl
    rw [hcollect, assign_append hkey]
    have happend : members ++ [(m.1, m.2)] ++ read = members ++ m :: read := by
      rw [List.append_assoc]; rfl
    rw [ih (by rwa [happend]), happend]

/-- **A value is read where its text is.** -/
theorem readBack {j : Json} (h : Storable j) (hplain : j.Plain) : ReadBack strtod j := by
  induction h with
  | null => exact read_atom fun _ _ => ⟨.literal_null, .null, rfl⟩
  | bool b =>
    cases b with
    | true => exact read_atom fun _ _ => ⟨.literal_true, .true, rfl⟩
    | false => exact read_atom fun _ _ => ⟨.literal_false, .false, rfl⟩
  | int hlow hhigh => exact read_atom fun _ hrest => scan_int hlow hhigh hrest
  | float q => exact hplain.elim
  | str s =>
    refine read_atom fun rest _ => ⟨.value_string (utf8 s), ?_, scan_quoted s rest⟩
    have hatom := IsAtom.string (utf8 s)
    rwa [text_utf8] at hatom
  | @arr items _ ih =>
    intro rest _
    have hitems := Json.plainItems_iff.mp hplain
    have hbegin : ∀ more, scan strtod (0x5B :: more) = (.begin_array, more) := fun _ => rfl
    rw [Json.text, ordered, Json.texts_eq_map, orderedItems_eq_map, List.cons_append,
      tokens_step (hbegin _) (by simp), List.append_assoc]
    cases items with
    | nil =>
      have hend : scan strtod (0x5D :: rest) = (.end_array, rest) := rfl
      change IsValue (_ :: tokens strtod (0x5D :: rest)) _ _
      rw [tokens_step hend (by simp)]
      exact .no_items
    | cons j items =>
      rw [List.map_cons, List.map_cons, intercalate_cons, List.append_assoc]
      have hfirst := ih j List.mem_cons_self (hitems j List.mem_cons_self)
      have hothers : ∀ j ∈ items, ReadBack strtod j := fun j hj =>
        ih j (List.mem_cons_of_mem _ hj) (hitems j (List.mem_cons_of_mem _ hj))
      exact .items (hfirst _ (closed_more _ (.inl rfl) _)) (read_items hothers rest)
  | @obj members hnodup _ ih =>
    intro rest _
    have hmembers := Json.plainMembers_iff.mp hplain
    have hbegin : ∀ more, scan strtod (0x7B :: more) = (.begin_object, more) := fun _ => rfl
    have htexts :
        ((sorted (Json.entries members)).map Prod.snd) = (sorted members).map memberText := by
      rw [Json.entries_eq_map, sorted_map, List.map_map]
      rfl
    have hread : ∀ m ∈ sorted members, ReadBack strtod m.2 := fun m hm =>
      ih m ((sorted_perm members).mem_iff.mp hm) (hmembers m ((sorted_perm members).mem_iff.mp hm))
    have hkeys : ((sorted members).map Prod.fst).Nodup :=
      ((sorted_perm members).map Prod.fst).nodup_iff.mpr hnodup
    unfold sorted at htexts
    rw [Json.text, htexts, ordered, orderedMembers_eq_map, sorted_map, List.cons_append,
      tokens_step (hbegin _) (by simp), List.append_assoc]
    change IsValue
      (_ :: tokens strtod
    (List.intercalate [0x2C] ((sorted members).map memberText) ++ 0x7D :: rest)) _ _
    generalize sorted members = ms at hread hkeys
    cases ms with
    | nil =>
      have hend : scan strtod (0x7D :: rest) = (.end_object, rest) := rfl
      change IsValue (_ :: tokens strtod (0x7D :: rest)) _ _
      rw [tokens_step hend (by simp)]
      exact .no_members
    | cons m ms =>
      rw [List.map_cons, List.map_cons, intercalate_cons, List.append_assoc, tokens_member]
      have hfirst := hread m List.mem_cons_self
      have hothers : ∀ m ∈ ms, ReadBack strtod m.2 :=
        fun m hm => hread m (List.mem_cons_of_mem _ hm)
      have hvalue :=
        @IsValue.members _ _ _ (utf8 m.1) _ _ (hfirst _ (closed_more _ (.inr rfl) _))
          (read_members hothers rest)
      have hcollect :
          (([] ++ (m.1, ordered m.2) :: ms.map fun m : String × Json => (m.1, ordered m.2)).map
            Prod.fst).Nodup := by
        rw [List.nil_append, List.map_cons, List.map_map]
        exact hkeys
      rwa [text_utf8, collect_append hcollect] at hvalue

/-- The first byte of a text is one of ASCII. -/
theorem text_head {j : Json} (hplain : j.Plain) : ∃ c rest, j.text = c :: rest ∧ c ≠ 0xEF := by
  cases j with
  | null => exact ⟨_, _, rfl, by decide⟩
  | bool b => cases b <;> exact ⟨_, _, rfl, by decide⟩
  | int n =>
    by_cases hneg : n < 0
    · exact ⟨_, _, utf8_neg hneg, by decide⟩
    · obtain ⟨c, more, hcons⟩ := List.exists_cons_of_ne_nil (digits_ne_nil n.toNat)
      have hdigit : IsDigit c :=
        isDigit_of_mem_digits (n := n.toNat) (by rw [hcons]; exact List.mem_cons_self)
      refine ⟨c, more, (utf8_nonneg (by omega)).trans hcons, ?_⟩
      rintro rfl
      revert hdigit
      decide
  | float q => exact hplain.elim
  | str s => exact ⟨_, _, rfl, by decide⟩
  | arr items => exact ⟨_, _, rfl, by decide⟩
  | obj members => exact ⟨_, _, rfl, by decide⟩

/-- **The text of a value is read as the value.** -/
theorem parse_text {j : Json} (h : Storable j) (hplain : j.Plain) :
    parse strtod j.text = .ok (ordered j) := by
  obtain ⟨c, rest, hcons, hc⟩ := text_head hplain
  have hbom : skip_bom j.text = (true, j.text) := by
    rw [hcons]
    exact if_neg hc
  have hend : tokens strtod [] = [] := tokens_eq_nil_iff.mpr rfl
  have hvalue : IsValue (tokens strtod (j.text ++ [])) (ordered j) (tokens strtod []) :=
    readBack h hplain [] closed_nil
  rw [List.append_nil, hend] at hvalue
  exact parse_iff.mpr ⟨j.text, hbom, hvalue⟩

end PickUpLight.Library
