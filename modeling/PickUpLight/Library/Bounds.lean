import PickUpLight.Library.RoundTrip

/-!
# What is read can be written

Every value the parser has is one that the library can hold (`parse_storable`), and no text is
shorter than the one that is written of its value (`parse_least`).
-/

namespace PickUpLight.Library

open Control Theory Theory.Utf8 Theory.Decimal

variable {strtod : List UInt8 → Option ℚ} {rest : List UInt8} {t : Token} {j : Json}
  {ts ts' : List Token}

/-! ### The tokens of a text -/

/-- The value of a token can be held. -/
def Token.Storable : Token → Prop
  | .value_unsigned n => n < 2 ^ 64
  | .value_integer n => -2 ^ 63 ≤ n ∧ n ≤ 0
  | _ => True

/-- The bytes a token has at least. -/
def Token.least : Token → ℕ
  | .value_string buf => (Json.dump_escaped (Sax.text buf)).length + 2
  | .value_unsigned n => (utf8 (toString (n : ℤ))).length
  | .value_integer n => (utf8 (toString n)).length
  | .literal_true | .literal_null => 4
  | .literal_false => 5
  | .parse_error _ | .end_of_input => 0
  | _ => 1

theorem text_encode (cs : List Char) : Sax.text (encode cs) = String.ofList cs := by
  have h := text_utf8 (String.ofList cs)
  rwa [utf8, String.toList_ofList] at h

theorem Lexeme.storable {lexeme : List UInt8} (h : Lexeme strtod lexeme t) : t.Storable := by
  cases h with
  | word hw =>
    have htable : ∀ p ∈ words, p.2.Storable := by simp [words, Token.Storable]
    exact htable _ hw
  | string => trivial
  | number _ ht =>
    cases ht with
    | unsigned hn => exact hn
    | integer hn => exact ⟨by omega, by omega⟩
    | float => trivial

/-- **No token is written in fewer bytes.** -/
theorem Lexeme.least_le {lexeme : List UInt8} (h : Lexeme strtod lexeme t) :
    t.least ≤ lexeme.length := by
  cases h with
  | word hw =>
    have htable : ∀ p ∈ words, p.2.least ≤ p.1.length := by simp [words, Token.least]
    exact htable _ hw
  | @string spelled cs hspelled =>
    have hle := hspelled.length_le
    rw [Token.least, text_encode, Json.dump_escaped, String.toList_ofList]
    simp only [List.length_append, List.length_cons, List.length_nil]
    omega
  | number hnumeral ht =>
    cases ht with
    | unsigned => rw [Token.least, utf8_nonneg (by omega), Int.toNat_natCast]
    | @integer n _ =>
      rw [Token.least]
      rcases Nat.eq_zero_or_pos n with rfl | hpos
      · decide
      · rw [utf8_neg (by omega), neg_neg, Int.toNat_natCast]
    | float =>
      obtain ⟨c, more, rfl, -⟩ := numeral_first hnumeral
      exact Nat.succ_le_succ (Nat.zero_le _)

/-- The bytes some tokens have at least. -/
def leastOf (ts : List Token) : ℕ := (ts.map Token.least).sum

theorem leastOf_cons (t : Token) (ts : List Token) : leastOf (t :: ts) = t.least + leastOf ts :=
  List.sum_cons

/-- **The tokens of a text** can be held, and the text is not shorter than they are. -/
theorem tokens_bound (strtod : List UInt8 → Option ℚ) (rest : List UInt8) :
    (∀ t ∈ tokens strtod rest, t.Storable) ∧ leastOf (tokens strtod rest) ≤ rest.length := by
  induction hn : rest.length using Nat.strong_induction_on generalizing rest with
  | _ n ih =>
    by_cases hend : (scan strtod rest).1 = .end_of_input
    · rw [tokens_eq_nil_iff.mpr hend]
      exact ⟨fun _ ht => absurd ht List.not_mem_nil, Nat.zero_le _⟩
    have hscan : scan strtod rest = ((scan strtod rest).1, (scan strtod rest).2) := rfl
    have hlt := (scan_shorter strtod rest).resolve_right fun h => hend (congrArg Prod.fst h)
    obtain ⟨hstorable, hleast⟩ := ih _ (hn ▸ hlt) _ rfl
    have htoken : (scan strtod rest).1.Storable ∧
        (scan strtod rest).1.least + (scan strtod rest).2.length ≤ rest.length := by
      by_cases hordinary : (scan strtod rest).1.Ordinary
      · obtain ⟨space, lexeme, -, hlexeme, -, hrest⟩ := lexeme_of_scan hordinary hscan
        have hle := hlexeme.least_le
        refine ⟨hlexeme.storable, ?_⟩
        conv_rhs => rw [hrest]
        simp only [List.length_append]
        omega
      · obtain ⟨_, herror⟩ := (Token.cases_of_not_ordinary hordinary).resolve_right hend
        rw [herror]
        refine ⟨trivial, ?_⟩
        change 0 + _ ≤ _
        omega
    rw [tokens_step hscan hend, leastOf_cons]
    refine ⟨List.forall_mem_cons.mpr ⟨htoken.1, hstorable⟩, ?_⟩
    omega

/-! ### Values -/

theorem storable_of_atom (h : IsAtom t j) (ht : t.Storable) : Storable j := by
  cases h with
  | unsigned n => exact .int (by omega) (by change n < 2 ^ 64 at ht; omega)
  | integer n => exact .int ht.1 (by have := ht.2; omega)
  | null => exact .null
  | true => exact .bool true
  | false => exact .bool false
  | float q => exact .float q
  | string val => exact .str _

theorem collect_storable {members read : List (String × Json)} (h : Storable (.obj members))
    (hread : ∀ m ∈ read, Storable m.2) : Storable (.obj (collect members read)) := by
  induction read generalizing members with
  | nil => exact h
  | cons m read ih =>
    rw [List.forall_mem_cons] at hread
    refine ih ?_ hread.2
    cases h with
    | obj hnodup hmembers =>
      refine .obj (Json.nodup_assign hnodup _ _) fun m' hm' => ?_
      rcases Json.mem_assign hm' with rfl | hm'
      · exact hread.1
      · exact hmembers m' hm'

/-- The members of an object are not longer than what has been read of them. -/
def weight (members : List (String × Json)) : ℕ := Json.leastMembers members + members.length

theorem weight_assign (key : String) (v : Json) (members : List (String × Json)) :
    weight (Json.assign key v members) ≤
      weight members + ((Json.dump_escaped key).length + 3 + v.least + 1) := by
  induction members with
  | nil => simp [weight, Json.assign, Json.leastMembers]
  | cons m members ih =>
    rw [Json.assign]
    split_ifs with hm
    · simp only [weight, Json.leastMembers, List.length_cons]
      omega
    · simp only [weight, Json.leastMembers, List.length_cons] at ih ⊢
      omega

theorem weight_collect (members read : List (String × Json)) :
    weight (collect members read) ≤ weight members + weight read := by
  induction read generalizing members with
  | nil => exact Nat.le_refl _
  | cons m read ih =>
    have hassign := weight_assign m.1 m.2 members
    refine (ih _).trans ?_
    simp only [weight, Json.leastMembers, List.length_cons] at hassign ⊢
    omega

theorem assign_ne_nil (key : String) (v : Json) (members : List (String × Json)) :
    Json.assign key v members ≠ [] := by
  cases members with
  | nil => exact List.cons_ne_nil _ _
  | cons m members =>
    rw [Json.assign]
    split_ifs <;> exact List.cons_ne_nil _ _

theorem collect_ne_nil {members : List (String × Json)} (h : members ≠ [])
    (read : List (String × Json)) :
    collect members read ≠ [] := by
  induction read generalizing members with
  | nil => exact h
  | cons m read ih => exact ih (assign_ne_nil m.1 m.2 members)

/-- All of these can be held. -/
def AllStorable (ts : List Token) : Prop := ∀ t ∈ ts, t.Storable

theorem AllStorable.tail (h : AllStorable (t :: ts)) : AllStorable ts :=
  (List.forall_mem_cons.mp h).2

theorem least_of_atom (h : IsAtom t j) : j.least ≤ t.least := by
  cases h with
  | string val => simp [Json.least, Token.least]
  | float q => exact Nat.le_refl 1
  | null => decide
  | true => decide
  | false => decide
  | unsigned n => exact Nat.le_refl _
  | integer n => exact Nat.le_refl _

mutual

/-- **A value of tokens that can be held can be held**, and its text is not longer than they are. -/
theorem IsValue.bound : ∀ {ts v ts'}, IsValue ts v ts' → AllStorable ts →
    Storable v ∧ AllStorable ts' ∧ v.least + leastOf ts' ≤ leastOf ts
  | t :: ts, v, _, .atom h, hts => by
    have hle := least_of_atom h
    rw [leastOf_cons]
    exact ⟨storable_of_atom h (hts t List.mem_cons_self), hts.tail, by omega⟩
  | _, _, ts, .no_items, hts => by
    refine ⟨.arr (by simp), hts.tail.tail, ?_⟩
    simp only [leastOf_cons, Token.least, Json.least, Json.leastItems, List.length_nil]
    omega
  | _, _, _, .items hv hmore, hts => by
    obtain ⟨hfirst, hts, hle⟩ := hv.bound hts.tail
    obtain ⟨hothers, hts, hle'⟩ := hmore.bound hts
    refine ⟨.arr (List.forall_mem_cons.mpr ⟨hfirst, hothers⟩), hts, ?_⟩
    simp only [leastOf_cons, Token.least, Json.least, Json.leastItems, List.length_cons]
    omega
  | _, _, ts, .no_members, hts => by
    refine ⟨.obj List.nodup_nil (by simp), hts.tail.tail, ?_⟩
    simp only [leastOf_cons, Token.least, Json.least, Json.leastMembers, List.length_nil]
    omega
  | _, _, _, @IsValue.members _ _ _ key v ms hv hmore, hts => by
    obtain ⟨hfirst, hts, hle⟩ := hv.bound hts.tail.tail.tail
    obtain ⟨hothers, hts, hle'⟩ := hmore.bound hts
    have hweight := weight_collect [] ((Sax.text key, v) :: ms)
    have hnone : Storable (.obj []) := .obj List.nodup_nil (by simp)
    have hpos := List.length_pos_iff.mpr (collect_ne_nil (assign_ne_nil (Sax.text key) v []) ms)
    change 0 < (collect [] ((Sax.text key, v) :: ms)).length at hpos
    refine ⟨collect_storable hnone (List.forall_mem_cons.mpr ⟨hfirst, hothers⟩), hts, ?_⟩
    simp only [weight, Json.leastMembers, List.length_cons, List.length_nil] at hweight hle'
    simp only [leastOf_cons, Token.least, Json.least]
    omega

theorem MoreItems.bound : ∀ {ts vs ts'}, MoreItems ts vs ts' → AllStorable ts →
    (∀ v ∈ vs, Storable v) ∧ AllStorable ts' ∧
      Json.leastItems vs + vs.length + 1 + leastOf ts' ≤ leastOf ts
  | _, _, _, .done, hts => by
    refine ⟨by simp, hts.tail, ?_⟩
    simp only [leastOf_cons, Token.least, Json.leastItems, List.length_nil]
    omega
  | _, _, _, .more hv hmore, hts => by
    obtain ⟨hfirst, hts, hle⟩ := hv.bound hts.tail
    obtain ⟨hothers, hts, hle'⟩ := hmore.bound hts
    refine ⟨List.forall_mem_cons.mpr ⟨hfirst, hothers⟩, hts, ?_⟩
    simp only [leastOf_cons, Token.least, Json.leastItems, List.length_cons]
    omega

theorem MoreMembers.bound : ∀ {ts ms ts'}, MoreMembers ts ms ts' → AllStorable ts →
    (∀ m ∈ ms, Storable m.2) ∧ AllStorable ts' ∧ weight ms + 1 + leastOf ts' ≤ leastOf ts
  | _, _, _, .done, hts => by
    refine ⟨by simp, hts.tail, ?_⟩
    simp only [leastOf_cons, Token.least, weight, Json.leastMembers, List.length_nil]
    omega
  | _, _, _, .more hv hmore, hts => by
    obtain ⟨hfirst, hts, hle⟩ := hv.bound hts.tail.tail.tail
    obtain ⟨hothers, hts, hle'⟩ := hmore.bound hts
    refine ⟨List.forall_mem_cons.mpr ⟨hfirst, hothers⟩, hts, ?_⟩
    simp only [weight, leastOf_cons, Token.least, Json.leastMembers, List.length_cons] at hle' ⊢
    omega

end

theorem skip_bom_length (text : List UInt8) : (skip_bom text).2.length ≤ text.length := by
  cases text with
  | nil => exact Nat.le_refl 0
  | cons c text =>
    unfold skip_bom
    dsimp only
    split_ifs
    · cases text with
      | nil => exact Nat.zero_le _
      | cons c text =>
        dsimp only
        split_ifs
        · cases text with
          | nil => exact Nat.zero_le _
          | cons c text => simp only [List.length_cons]; omega
        · simp only [List.length_cons]; omega
    · exact Nat.le_refl _

/-- **What the parser has can be held**, and is not shorter as a text than it is. -/
theorem parse_bound {text : List UInt8} (h : parse strtod text = .ok j) :
    Storable j ∧ j.least ≤ text.length := by
  obtain ⟨rest, hbom, hvalue⟩ := parse_iff.mp h
  obtain ⟨hstorable, hleast⟩ := tokens_bound strtod rest
  obtain ⟨hj, -, hle⟩ := hvalue.bound hstorable
  have hlength := skip_bom_length text
  rw [hbom] at hlength
  dsimp only at hlength
  exact ⟨hj, by omega⟩

end PickUpLight.Library
