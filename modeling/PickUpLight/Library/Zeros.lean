import Mathlib.Data.List.TakeWhile
import PickUpLight.Library.Grammar
import PickUpLight.Library.Tokens

/-!
# Zeros end the text

No token has a zero in it (`Lexeme.no_zero`), so that a zero is the end of the text for the parser,
whatever comes after it (`parse_takeWhile`): it makes no difference whether it is given a buffer, or
the string in it.
-/

namespace PickUpLight.Library

open Control Theory Theory.Utf8 Theory.Decimal

variable {strtod : List UInt8 → Option ℚ} {rest before : List UInt8} {t : Token} {j : Json}
  {ts ts' : List Token}

/-! ### Tokens have no zeros -/

theorem Hex.no_zero {ds : List UInt8} {n : ℕ} (h : Hex ds n) : 0 ∉ ds := by
  have hne : ∀ {c : UInt8} {i}, hexValue c = some i → 0 ≠ c := by
    rintro _ i hc rfl
    cases hc
  obtain ⟨hi, hj, hk, hl⟩ := h
  simp only [List.mem_cons, List.not_mem_nil, or_false, not_or]
  exact ⟨hne hi, hne hj, hne hk, hne hl⟩

theorem Piece.no_zero {piece : List UInt8} {c : Char} (h : Piece piece c) : 0 ∉ piece := by
  have hshort : ∀ p ∈ shorts, 0 ≠ p.1 := by decide
  cases h with
  | plain hcontrol _ _ => exact zero_not_mem_utf8EncodeChar (by omega)
  | slashed h =>
    rw [List.mem_cons, not_or]
    refine ⟨by decide, ?_⟩
    cases h with
    | letter hx =>
      rw [List.mem_singleton]
      exact hshort _ hx
    | code h =>
      rw [List.mem_cons, not_or]
      refine ⟨by decide, ?_⟩
      cases h with
      | one hds => exact hds.no_zero
      | two hds hds' =>
        simp only [List.mem_append, List.mem_cons, not_or]
        exact ⟨hds.no_zero, by decide, by decide, hds'.no_zero⟩

theorem Spelled.no_zero {spelled : List UInt8} {cs : List Char} (h : Spelled spelled cs) :
    0 ∉ spelled := by
  induction h with
  | nil => exact List.not_mem_nil
  | cons hpiece _ ih =>
    rw [List.mem_append, not_or]
    exact ⟨hpiece.no_zero, ih⟩

theorem table_zero (s : NumberState) : number_table s 0 = none := by
  cases s <;> rfl

/-- No numeral goes on with a zero. -/
theorem not_opens_zero (lexeme : List UInt8) : ¬OpensNumeral (lexeme ++ [0]) := by
  rw [opensNumeral_iff, Machine.exec_append]
  cases number_table.exec .init lexeme with
  | none => exact Bool.false_ne_true
  | some s =>
    rw [Option.bind_some, Machine.exec_singleton, table_zero]
    exact Bool.false_ne_true

theorem numeral_no_zero {lexeme : List UInt8} (h : IsNumeral lexeme) : 0 ∉ lexeme := by
  intro hzero
  obtain ⟨first, more, rfl⟩ := List.append_of_mem hzero
  refine not_opens_zero first ⟨more, ?_⟩
  rwa [List.append_assoc]

theorem Lexeme.no_zero {lexeme : List UInt8} (h : Lexeme strtod lexeme t) : 0 ∉ lexeme := by
  have hword : ∀ p ∈ words, 0 ∉ p.1 := by decide
  cases h with
  | word hw => exact hword _ hw
  | string hspelled =>
    simp only [List.cons_append, List.mem_cons, List.mem_append, List.not_mem_nil, or_false, not_or]
    exact ⟨by decide, hspelled.no_zero, by decide⟩
  | number hnumeral _ => exact numeral_no_zero hnumeral

theorem IsSpace.no_zero {space : List UInt8} (h : IsSpace space) : 0 ∉ space := fun hzero =>
  absurd (h 0 hzero) (by decide)

/-! ### The scanner before a zero -/

/-- What has no zero in it is before the first one. -/
theorem append_zero {taken more after : List UInt8} (htaken : 0 ∉ taken)
    (h : before ++ 0 :: after = taken ++ more) :
    ∃ left, before = taken ++ left ∧ more = left ++ 0 :: after := by
  rcases List.append_eq_append_iff.mp h with ⟨x, rfl, hx⟩ | ⟨left, hbefore, hmore⟩
  · cases x with
    | nil => exact ⟨[], by rw [List.append_nil, List.append_nil], hx.symm⟩
    | cons c x =>
      obtain ⟨rfl, -⟩ := List.cons.inj hx
      exact absurd (List.mem_append_right before List.mem_cons_self) htaken
  · exact ⟨left, hbefore, hmore⟩

/-- A token before a zero is the same without it. -/
theorem scan_before_zero (ht : t.Ordinary) (after : List UInt8) :
    scan strtod (before ++ 0 :: after) = (t, rest) ↔
    ∃ left, rest = left ++ 0 :: after ∧ scan strtod before = (t, left) := by
  constructor
  · intro h
    obtain ⟨space, lexeme, hspace, hlexeme, hstops, heq⟩ := lexeme_of_scan ht h
    have hzero : 0 ∉ space ++ lexeme := by
      rw [List.mem_append, not_or]
      exact ⟨hspace.no_zero, hlexeme.no_zero⟩
    obtain ⟨left, rfl, rfl⟩ := append_zero hzero heq
    refine ⟨left, rfl, ?_⟩
    rw [List.append_assoc, scan_space hspace]
    refine lexeme_read hlexeme fun hnumeral x more hleft => ?_
    exact hstops hnumeral x (more ++ 0 :: after) (by rw [hleft]; rfl)
  · rintro ⟨left, rfl, h⟩
    obtain ⟨space, lexeme, hspace, hlexeme, hstops, rfl⟩ := lexeme_of_scan ht h
    rw [List.append_assoc, List.append_assoc, scan_space hspace]
    refine lexeme_read hlexeme fun hnumeral x more hleft => ?_
    cases left with
    | nil =>
      obtain ⟨rfl, -⟩ := List.cons.inj hleft
      exact not_opens_zero lexeme
    | cons c left =>
      obtain ⟨rfl, -⟩ := List.cons.inj hleft
      exact hstops hnumeral c left rfl

/-- A text that ends before a zero ends without it. -/
theorem end_before_zero (after : List UInt8) :
    (scan strtod (before ++ 0 :: after)).1 = .end_of_input ↔
      (scan strtod before).1 = .end_of_input := by
  rw [scan_end_iff, scan_end_iff]
  constructor
  · rintro ⟨space, hspace, rfl | ⟨more, heq⟩⟩
    · exact absurd (List.mem_append_right before List.mem_cons_self) hspace.no_zero
    · obtain ⟨left, rfl, hleft⟩ := append_zero hspace.no_zero heq
      refine ⟨space, hspace, ?_⟩
      cases left with
      | nil => exact .inl (List.append_nil _)
      | cons c left =>
        obtain ⟨rfl, -⟩ := List.cons.inj hleft
        exact .inr ⟨left, rfl⟩
  · rintro ⟨space, hspace, rfl | ⟨more, rfl⟩⟩
    · exact ⟨before, hspace, .inr ⟨after, rfl⟩⟩
    · exact ⟨space, hspace, .inr ⟨more ++ 0 :: after, by rw [List.append_assoc]; rfl⟩⟩

/-! ### The parser -/

/-- The scanner has failed at one of these tokens. -/
def Faulty (ts : List Token) : Prop := ∃ error_message, .parse_error error_message ∈ ts

theorem Faulty.tail (h : Faulty (t :: ts)) (ht : t.Ordinary) : Faulty ts := by
  obtain ⟨error_message, herror⟩ := h
  rcases List.mem_cons.mp herror with rfl | herror
  · exact ht.elim
  · exact ⟨error_message, herror⟩

theorem IsAtom.ordinary {v : Json} (h : IsAtom t v) : t.Ordinary := by
  cases h <;> trivial

mutual

/-- There is no fault within a value. -/
theorem IsValue.faulty : ∀ {ts v ts'}, IsValue ts v ts' → Faulty ts → Faulty ts'
  | _, _, _, .atom h, hfault => hfault.tail h.ordinary
  | _, _, _, .no_items, hfault | _, _, _, .no_members, hfault => (hfault.tail trivial).tail trivial
  | _, _, _, .items hv hmore, hfault => hmore.faulty (hv.faulty (hfault.tail trivial))
  | _, _, _, .members hv hmore, hfault =>
    hmore.faulty (hv.faulty (((hfault.tail trivial).tail trivial).tail trivial))

theorem MoreItems.faulty : ∀ {ts vs ts'}, MoreItems ts vs ts' → Faulty ts → Faulty ts'
  | _, _, _, .done, hfault => hfault.tail trivial
  | _, _, _, .more hv hmore, hfault => hmore.faulty (hv.faulty (hfault.tail trivial))

theorem MoreMembers.faulty : ∀ {ts ms ts'}, MoreMembers ts ms ts' → Faulty ts → Faulty ts'
  | _, _, _, .done, hfault => hfault.tail trivial
  | _, _, _, .more hv hmore, hfault =>
    hmore.faulty (hv.faulty (((hfault.tail trivial).tail trivial).tail trivial))

end

theorem not_value_of_faulty (h : Faulty ts) : ¬IsValue ts j [] := by
  intro hv
  obtain ⟨_, hmem⟩ := hv.faulty h
  cases hmem

/-- The scanner fails first where it fails without the zero. -/
theorem tokens_before_zero (strtod : List UInt8 → Option ℚ) (before after : List UInt8) :
    tokens strtod (before ++ 0 :: after) = tokens strtod before ∨
    Faulty (tokens strtod (before ++ 0 :: after)) ∧ Faulty (tokens strtod before) := by
  induction hn : before.length using Nat.strong_induction_on generalizing before with
  | _ n ih =>
    have hfault : ∀ {rest}, ¬(scan strtod rest).1.Ordinary → (scan strtod rest).1 ≠ .end_of_input →
        Faulty (tokens strtod rest) := by
      intro rest hnot hend
      obtain ⟨error_message, herror⟩ := (Token.cases_of_not_ordinary hnot).resolve_right hend
      refine ⟨error_message, ?_⟩
      rw [tokens_eq, tokens_from, if_neg hend, herror]
      exact List.mem_cons_self
    by_cases hend : (scan strtod before).1 = .end_of_input
    · exact .inl
        ((tokens_eq_nil_iff.mpr ((end_before_zero after).mpr hend)).trans
    (tokens_eq_nil_iff.mpr hend).symm)
    have hend' := fun h => hend ((end_before_zero after).mp h)
    by_cases hordinary : (scan strtod before).1.Ordinary
    · have hscan : scan strtod before = ((scan strtod before).1, (scan strtod before).2) := rfl
      have hscan' := (scan_before_zero hordinary after).mpr ⟨_, rfl, hscan⟩
      have hlt := (scan_shorter strtod before).resolve_right fun h => hend (congrArg Prod.fst h)
      rw [tokens_step hscan hend, tokens_step hscan' hend]
      rcases ih _ (hn ▸ hlt) _ rfl with heq | ⟨⟨m, hm⟩, ⟨m', hm'⟩⟩
      · exact .inl (by rw [heq])
      · exact .inr ⟨⟨m, List.mem_cons_of_mem _ hm⟩, ⟨m', List.mem_cons_of_mem _ hm'⟩⟩
    · refine .inr ⟨hfault (fun h => hordinary ?_) hend', hfault hordinary hend⟩
      obtain ⟨left, -, hleft⟩ :=
        (scan_before_zero h after).mp (rfl : scan strtod (before ++ 0 :: after) = (_, _))
      rw [hleft]
      exact h

/-- A byte order mark has no zero. -/
theorem skip_bom_before_zero (before after : List UInt8) : ∃ ok left, skip_bom before = (ok, left) ∧
    ∃ left', skip_bom (before ++ 0 :: after) = (ok, left') ∧
      (ok = true → left' = left ++ 0 :: after) := by
  cases before with
  | nil => exact ⟨true, [], rfl, 0 :: after, rfl, fun _ => rfl⟩
  | cons c before =>
    by_cases hc : c = 0xEF
    · subst hc
      cases before with
      | nil => exact ⟨false, [], rfl, after, rfl, fun h => by cases h⟩
      | cons c before =>
        by_cases hc : c = 0xBB
        · subst hc
          cases before with
          | nil => exact ⟨false, [], rfl, after, rfl, fun h => by cases h⟩
          | cons c before => exact ⟨c = 0xBF, before, rfl, before ++ 0 :: after, rfl, fun _ => rfl⟩
        · refine ⟨false, before, if_neg hc, before ++ 0 :: after, if_neg hc, fun h => by cases h⟩
    · exact ⟨true, c :: before, if_neg hc, c :: before ++ 0 :: after, if_neg hc, fun _ => rfl⟩

theorem parse_before_zero (before after : List UInt8) :
    parse strtod (before ++ 0 :: after) = .ok j ↔ parse strtod before = .ok j := by
  obtain ⟨ok, left, hbom, left', hbom', hleft⟩ := skip_bom_before_zero before after
  rw [parse_iff, parse_iff, Makes, Makes, hbom, hbom']
  cases ok with
  | false => simp
  | true =>
    simp only [Prod.mk.injEq, true_and, exists_eq_left', hleft]
    rcases tokens_before_zero strtod left after with heq | ⟨hfault, hfault'⟩
    · rw [heq]
    · exact iff_of_false (not_value_of_faulty hfault) (not_value_of_faulty hfault')

/-- **The parser takes a buffer for the string in it**: nothing after a zero is read, and there is
no value that a zero is a part of. -/
theorem parse_takeWhile (text : List UInt8) : parse strtod (text.takeWhile (· ≠ 0)) = .ok j ↔
      parse strtod text = .ok j := by
  by_cases hzero : 0 ∈ text
  · obtain ⟨before, after, rfl, hbefore⟩ := List.eq_append_cons_of_mem hzero
    have hne : ∀ c ∈ before, decide (c ≠ 0) = true :=
      fun c hc => decide_eq_true fun h0 => hbefore (h0 ▸ hc)
    have htake : (before ++ 0 :: after).takeWhile (· ≠ 0) = before := by
      rw [List.takeWhile_append_of_pos hne]
      exact List.append_nil before
    rw [htake, parse_before_zero]
  · have hne : ∀ c ∈ text, decide (c ≠ 0) = true :=
      fun c hc => decide_eq_true fun h0 => hzero (h0 ▸ hc)
    rw [List.takeWhile_eq_self_iff.mpr hne]

end PickUpLight.Library
