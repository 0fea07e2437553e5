import PickUpLight.Library.Lexer

/-!
# Numbers are read as they should be

The table of `scan_number` reads numerals: a sign, an integer without zeros in front, a fraction,
an exponent (`numeral_iff`). As the scanner goes on for as long as it can, what it takes is the
longest beginning of the input that a numeral begins with, and it is a number if that is a
numeral (`scan_number_spec`).
-/

namespace PickUpLight.Library

open Theory Theory.Decimal

/-! ### Numerals -/

/-- Some digits, one at least. -/
def IsDigits (ds : List UInt8) : Prop := ds ≠ [] ∧ ∀ c ∈ ds, IsDigit c

/-- A sign, or none. -/
def IsSign (sg : List UInt8) : Prop := sg = [] ∨ sg = [0x2D]

/-- A fraction, or none. -/
def IsFraction (f : List UInt8) : Prop := f = [] ∨ ∃ ds, IsDigits ds ∧ f = 0x2E :: ds

/-- The sign of an exponent, or none. -/
def IsExponentSign (sg : List UInt8) : Prop := sg = [] ∨ sg = [0x2B] ∨ sg = [0x2D]

/-- The letter of an exponent. -/
def IsLetter (c : UInt8) : Prop := c = 0x65 ∨ c = 0x45

/-- An exponent, or none. -/
def IsExponent (e : List UInt8) : Prop :=
  e = [] ∨ ∃ c sg ds, IsLetter c ∧ IsExponentSign sg ∧ IsDigits ds ∧ e = c :: (sg ++ ds)

/-- **Numerals.** -/
def IsNumeral (lexeme : List UInt8) : Prop :=
  ∃ sg n f e, IsSign sg ∧ IsFraction f ∧ IsExponent e ∧ lexeme = sg ++ digits n ++ f ++ e

/-- What has been read in a state. -/
inductive ReadTo : NumberState → List UInt8 → Prop where
  | init : ReadTo .init []
  | minus : ReadTo .minus [0x2D]
  | zero {sg : List UInt8} : IsSign sg → ReadTo .zero (sg ++ digits 0)
  | any1 {sg : List UInt8} {n : ℕ} : IsSign sg → 0 < n → ReadTo .any1 (sg ++ digits n)
  | decimal1 {sg : List UInt8} {n : ℕ} : IsSign sg → ReadTo .decimal1 (sg ++ digits n ++ [0x2E])
  | decimal2 {sg ds : List UInt8} {n : ℕ} : IsSign sg → IsDigits ds →
    ReadTo .decimal2 (sg ++ digits n ++ 0x2E :: ds)
  | exponent {sg f : List UInt8} {n : ℕ} {c : UInt8} : IsSign sg → IsFraction f → IsLetter c →
    ReadTo .exponent (sg ++ digits n ++ f ++ [c])
  | sign {sg f g : List UInt8} {n : ℕ} {c : UInt8} : IsSign sg → IsFraction f → IsLetter c →
    IsExponentSign g → g ≠ [] → ReadTo .sign (sg ++ digits n ++ f ++ c :: g)
  | any2 {sg f g ds : List UInt8} {n : ℕ} {c : UInt8} : IsSign sg → IsFraction f → IsLetter c →
    IsExponentSign g → IsDigits ds → ReadTo .any2 (sg ++ digits n ++ f ++ c :: (g ++ ds))

variable {s t : NumberState} {c : UInt8} {taken rest ds : List UInt8}

theorem IsDigits.concat (h : IsDigits ds) (hc : IsDigit c) : IsDigits (ds ++ [c]) := by
  refine ⟨by simp, fun x hx => ?_⟩
  rcases List.mem_append.mp hx with hx | hx
  · exact h.2 x hx
  · exact List.mem_singleton.mp hx ▸ hc

theorem IsDigits.singleton (hc : IsDigit c) : IsDigits [c] :=
  ⟨List.cons_ne_nil _ _, by simpa using hc⟩

/-- A numeral that is not zero, with one more digit. -/
theorem digits_concat {n : ℕ} (hn : 0 < n) (hc : IsDigit c) :
    digits n ++ [c] = digits (10 * n + (c.toNat - 0x30)) := by
  have hrange := isDigit_iff.mp hc
  have hdiv : (10 * n + (c.toNat - 0x30)) / 10 = n := by omega
  have hmod : (10 * n + (c.toNat - 0x30)) % 10 = c.toNat - 0x30 := by omega
  rw [digits_of_ge (n := 10 * n + (c.toNat - 0x30)) (by omega), hdiv, hmod, ← digit_of_isDigit hc]

theorem digits_single (hc : IsDigit c) : digits (c.toNat - 0x30) = [c] := by
  have hrange := isDigit_iff.mp hc
  rw [digits_of_lt (by omega), ← digit_of_isDigit hc]

theorem pos_of_digit (hc : IsDigit c) (h0 : c ≠ 0x30) : 0 < c.toNat - 0x30 := by
  have hrange := isDigit_iff.mp hc
  have hne : c.toNat ≠ 0x30 := fun h => h0 (UInt8.toNat_inj.mp h)
  omega

/-- A digit after the sign begins an integer. -/
theorem ReadTo.first {sg : List UInt8} (hsg : IsSign sg) {next : NumberState}
    (h : (if c = 0x30 then some NumberState.zero else if IsDigit c then some .any1 else none) =
      some next) :
    ReadTo next (sg ++ [c]) := by
  split_ifs at h with h0 hdigit
  · cases h
    subst h0
    exact .zero hsg
  · cases h
    rw [← digits_single hdigit]
    exact .any1 hsg (pos_of_digit hdigit h0)

/-- A letter after an integer begins an exponent. -/
theorem ReadTo.letter {sg : List UInt8} {n : ℕ} (hsg : IsSign sg) (hc : IsLetter c) :
    ReadTo .exponent (sg ++ digits n ++ [c]) := by
  have hexponent := ReadTo.exponent (n := n) hsg (.inl rfl) hc
  rwa [List.append_nil] at hexponent

/-- **One byte**: what has been read in the next state. -/
theorem ReadTo.step (h : ReadTo s taken) (ht : number_table s c = some t) :
    ReadTo t (taken ++ [c]) := by
  cases h with
  | init =>
    simp only [number_table] at ht
    by_cases hminus : c = 0x2D
    · rw [if_pos hminus] at ht
      cases ht
      subst hminus
      exact .minus
    · rw [if_neg hminus] at ht
      exact .first (.inl rfl) ht
  | minus => exact .first (.inr rfl) ht
  | zero hsg =>
    simp only [number_table] at ht
    split_ifs at ht with hpoint hletter
    · cases ht
      subst hpoint
      exact .decimal1 hsg
    · cases ht
      exact .letter hsg hletter
  | any1 hsg hn =>
    simp only [number_table] at ht
    split_ifs at ht with hdigit hpoint hletter
    · cases ht
      rw [List.append_assoc, digits_concat hn hdigit]
      exact .any1 hsg (by omega)
    · cases ht
      subst hpoint
      exact .decimal1 hsg
    · cases ht
      exact .letter hsg hletter
  | decimal1 hsg =>
    simp only [number_table] at ht
    split_ifs at ht with hdigit
    cases ht
    rw [List.append_assoc]
    exact .decimal2 hsg (.singleton hdigit)
  | decimal2 hsg hds =>
    simp only [number_table] at ht
    split_ifs at ht with hdigit hletter
    · cases ht
      rw [List.append_assoc, List.cons_append]
      exact .decimal2 hsg (hds.concat hdigit)
    · cases ht
      exact .exponent hsg (.inr ⟨_, hds, rfl⟩) hletter
  | exponent hsg hf hc =>
    simp only [number_table] at ht
    split_ifs at ht with hsign hdigit
    · cases ht
      rw [List.append_assoc]
      refine .sign (g := [c]) hsg hf hc ?_ (List.cons_ne_nil _ _)
      rcases hsign with rfl | rfl
      · exact .inr (.inl rfl)
      · exact .inr (.inr rfl)
    · cases ht
      rw [List.append_assoc]
      exact .any2 (g := []) hsg hf hc (.inl rfl) (.singleton hdigit)
  | sign hsg hf hc hesg hne =>
    simp only [number_table] at ht
    split_ifs at ht with hdigit
    cases ht
    rw [List.append_assoc, List.cons_append]
    exact .any2 hsg hf hc hesg (.singleton hdigit)
  | @any2 sg f g ds n x hsg hf hc hesg hds =>
    simp only [number_table] at ht
    split_ifs at ht with hdigit
    cases ht
    rw [List.append_assoc _ (x :: (g ++ ds)), List.cons_append, List.append_assoc g]
    exact .any2 hsg hf hc hesg (hds.concat hdigit)

/-- **A run**: a state says what has been read. -/
theorem readTo_of_exec (h : number_table.exec .init taken = some s) : ReadTo s taken :=
  Machine.exec_history number_table (P := fun ls s => ReadTo s ls) .init
    (fun _ _ _ _ _ hread hstep => hread.step hstep) h

/-! ### Numerals are read -/

theorem table_digits {s : NumberState} (hs : ∀ c, IsDigit c → number_table s c = some s)
    (hds : ∀ c ∈ ds, IsDigit c) :
    number_table.exec s ds = some s := by
  induction ds with
  | nil => rfl
  | cons c ds ih =>
    rw [Machine.exec_cons, hs c (hds c List.mem_cons_self), Option.bind_some]
    exact ih fun x hx => hds x (List.mem_cons_of_mem c hx)

/-- A first digit, and then others. -/
theorem table_first_digits {s t : NumberState} (hs : ∀ c, IsDigit c → number_table s c = some t)
    (ht : ∀ c, IsDigit c → number_table t c = some t) (hds : IsDigits ds) :
    number_table.exec s ds = some t := by
  obtain ⟨c, ds, rfl⟩ := List.exists_cons_of_ne_nil hds.1
  rw [Machine.exec_cons, hs c (hds.2 c List.mem_cons_self), Option.bind_some]
  exact table_digits ht fun x hx => hds.2 x (List.mem_cons_of_mem c hx)

/-- The state after an integer. -/
def afterInteger (n : ℕ) : NumberState := if n = 0 then .zero else .any1

/-- A digit is no sign, no point and no letter. -/
theorem isDigit_ne (h : IsDigit c) : c ≠ 0x2D ∧ c ≠ 0x2B ∧ c ≠ 0x2E ∧ c ≠ 0x65 ∧ c ≠ 0x45 := by
  have hrange := isDigit_iff.mp h
  refine ⟨?_, ?_, ?_, ?_, ?_⟩ <;>
    · rintro rfl
      revert hrange
      decide

theorem table_integer (s : NumberState)
    (hs : ∀ c, IsDigit c → number_table s c = if c = 0x30 then some .zero else some .any1)
    (n : ℕ) : number_table.exec s (digits n) = some (afterInteger n) := by
  by_cases hn : n = 0
  · subst hn
    rw [digits_of_lt (by decide), Machine.exec_singleton, hs _ (isDigit_digit (by decide))]
    rfl
  · obtain ⟨c, rest, heq, hc, hne⟩ := head_digits (Nat.pos_of_ne_zero hn)
    rw [heq, Machine.exec_cons, hs c hc, if_neg hne, Option.bind_some, afterInteger, if_neg hn]
    refine table_digits (fun c hc => if_pos hc) fun x hx => isDigit_of_mem_digits (n := n) ?_
    rw [heq]
    exact List.mem_cons_of_mem c hx

theorem table_signed_integer {sg : List UInt8} (hsg : IsSign sg) (n : ℕ) :
    number_table.exec .init (sg ++ digits n) = some (afterInteger n) := by
  rcases hsg with rfl | rfl
  · refine table_integer .init (fun c hc => ?_) n
    simp only [number_table]
    rw [if_neg (isDigit_ne hc).1, if_pos hc]
  · refine table_integer .minus (fun c hc => ?_) n
    simp only [number_table]
    rw [if_pos hc]

/-- The state after a fraction. -/
def afterFraction (n : ℕ) (f : List UInt8) : NumberState :=
  if f = [] then afterInteger n else .decimal2

theorem table_fraction {f : List UInt8} (hf : IsFraction f) (n : ℕ) :
    number_table.exec (afterInteger n) f = some (afterFraction n f) := by
  rcases hf with rfl | ⟨ds, hds, rfl⟩
  · rfl
  · have hpoint : number_table (afterInteger n) 0x2E = some .decimal1 := by
      unfold afterInteger
      split_ifs <;> rfl
    rw [Machine.exec_cons, hpoint, Option.bind_some, afterFraction, if_neg (List.cons_ne_nil _ _)]
    exact table_first_digits (fun c hc => if_pos hc) (fun c hc => if_pos hc) hds

/-- The states in which a number may end. -/
def NumberState.accepting : NumberState → Bool
  | .zero | .any1 | .decimal2 | .any2 => true
  | _ => false

theorem table_letter (hc : IsLetter c) (n : ℕ) (f : List UInt8) :
    number_table (afterFraction n f) c = some .exponent := by
  unfold afterFraction afterInteger
  rcases hc with rfl | rfl <;> (split_ifs <;> rfl)

theorem table_exponent {e : List UInt8} (he : IsExponent e) (n : ℕ) (f : List UInt8) :
    ∃ s, number_table.exec (afterFraction n f) e = some s ∧ s.accepting = true := by
  rcases he with rfl | ⟨c, sg, ds, hc, hsg, hds, rfl⟩
  · refine ⟨_, rfl, ?_⟩
    unfold afterFraction afterInteger
    split_ifs <;> rfl
  · refine ⟨.any2, ?_, rfl⟩
    rw [Machine.exec_cons, table_letter hc, Option.bind_some]
    have hany2 : ∀ c, IsDigit c → number_table .any2 c = some .any2 := fun c hc => if_pos hc
    have hsign : number_table.exec .sign ds = some .any2 :=
      table_first_digits (fun c hc => if_pos hc) hany2 hds
    rcases hsg with rfl | rfl | rfl
    · refine table_first_digits (fun c hc => ?_) hany2 hds
      simp only [number_table]
      rw [if_neg (not_or.mpr ⟨(isDigit_ne hc).2.1, (isDigit_ne hc).1⟩), if_pos hc]
    · exact hsign
    · exact hsign

/-- **The table reads numerals**, and accepts nothing else. -/
theorem numeral_iff (lexeme : List UInt8) :
    IsNumeral lexeme ↔ ∃ s, number_table.exec .init lexeme = some s ∧ s.accepting = true := by
  constructor
  · rintro ⟨sg, n, f, e, hsg, hf, he, rfl⟩
    obtain ⟨s, hs, haccepting⟩ := table_exponent he n f
    refine ⟨s, ?_, haccepting⟩
    rw [Machine.exec_append, Machine.exec_append, table_signed_integer hsg, Option.bind_some,
      table_fraction hf, Option.bind_some, hs]
  · rintro ⟨s, hs, haccepting⟩
    cases readTo_of_exec hs with
    | zero hsg => exact ⟨_, 0, [], [], hsg, .inl rfl, .inl rfl, by simp⟩
    | @any1 _ n hsg _ => exact ⟨_, n, [], [], hsg, .inl rfl, .inl rfl, by simp⟩
    | @decimal2 _ _ n hsg hds => exact ⟨_, n, _, [], hsg, .inr ⟨_, hds, rfl⟩, .inl rfl, by simp⟩
    | any2 hsg hf hc hesg hds =>
      exact ⟨_, _, _, _, hsg, hf, .inr ⟨_, _, _, hc, hesg, hds, rfl⟩, rfl⟩
    | _ => cases haccepting

/-- Bytes that a numeral may begin with. -/
def OpensNumeral (bytes : List UInt8) : Prop := ∃ more, IsNumeral (bytes ++ more)

/-- Every state can come to its end. -/
theorem table_complete : ∀ s : NumberState, s.accepting = true ∨ ∃ t, number_table s 0x30 = some t ∧
      t.accepting = true
  | .init => .inr ⟨.zero, rfl, rfl⟩
  | .minus => .inr ⟨.zero, rfl, rfl⟩
  | .zero => .inl rfl
  | .any1 => .inl rfl
  | .decimal1 => .inr ⟨.decimal2, rfl, rfl⟩
  | .decimal2 => .inl rfl
  | .exponent => .inr ⟨.any2, rfl, rfl⟩
  | .sign => .inr ⟨.any2, rfl, rfl⟩
  | .any2 => .inl rfl

theorem opensNumeral_iff (bytes : List UInt8) :
    OpensNumeral bytes ↔ (number_table.exec .init bytes).isSome := by
  constructor
  · rintro ⟨more, h⟩
    obtain ⟨s, hs, -⟩ := (numeral_iff _).mp h
    rw [Machine.exec_append] at hs
    obtain ⟨t, ht, -⟩ := Option.bind_eq_some_iff.mp hs
    rw [ht, Option.isSome_some]
  · intro h
    obtain ⟨s, hs⟩ := Option.isSome_iff_exists.mp h
    rcases table_complete s with haccepting | ⟨t, ht, haccepting⟩
    · exact ⟨[], (numeral_iff _).mpr ⟨s, by rw [List.append_nil, hs], haccepting⟩⟩
    · refine ⟨[0x30], (numeral_iff _).mpr ⟨t, ?_, haccepting⟩⟩
      rw [Machine.exec_append, hs, Option.bind_some, Machine.exec_singleton, ht]

/-! ### Tokens -/

/-- The token of a numeral: an integer, where it is one and has 64 bits, and what `strtod` says
otherwise. -/
inductive NumeralToken (strtod : List UInt8 → Option ℚ) : List UInt8 → Token → Prop where
  | unsigned {n : ℕ} : n < 2 ^ 64 → NumeralToken strtod (digits n) (.value_unsigned n)
  | integer {n : ℕ} : n ≤ 2 ^ 63 → NumeralToken strtod (0x2D :: digits n) (.value_integer (-n))
  | float {lexeme : List UInt8} : (∀ n, lexeme = digits n → 2 ^ 64 ≤ n) →
    (∀ n, lexeme = 0x2D :: digits n → 2 ^ 63 < n) →
    NumeralToken strtod lexeme (.value_float (strtod lexeme))

variable {strtod : List UInt8 → Option ℚ}

theorem digits_injective : Function.Injective digits := fun n m h => by
  rw [← value_digits n, h, value_digits]

/-- No numeral without a sign begins with one. -/
theorem digits_ne_minus (n : ℕ) (rest : List UInt8) : digits n ≠ 0x2D :: rest := by
  intro h
  have hdigit : IsDigit 0x2D := isDigit_of_mem_digits (n := n) (by rw [h]; exact List.mem_cons_self)
  exact absurd hdigit (by decide)

theorem done_unsigned (n : ℕ) (rest : List UInt8) :
    NumeralToken strtod (digits n) (scan_number_done strtod ⟨.value_unsigned, digits n, rest⟩) := by
  simp only [scan_number_done, strtoull, value_digits]
  by_cases hn : n < 2 ^ 64
  · rw [if_pos hn]
    exact .unsigned hn
  · rw [if_neg hn]
    refine .float (fun m hm => ?_) fun m hm => absurd hm (digits_ne_minus n _)
    rw [← digits_injective hm]
    omega

theorem done_integer (n : ℕ) (rest : List UInt8) :
    NumeralToken strtod (0x2D :: digits n)
      (scan_number_done strtod ⟨.value_integer, 0x2D :: digits n, rest⟩) := by
  simp only [scan_number_done, strtoll, value_digits]
  rw [if_pos trivial]
  by_cases hn : n ≤ 2 ^ 63
  · rw [if_pos hn]
    exact .integer hn
  · rw [if_neg hn]
    refine .float (fun m hm => absurd hm.symm (digits_ne_minus m _)) fun m hm => ?_
    rw [← digits_injective (List.cons.inj hm).2]
    omega

/-- A number that is not read as an integer is none. -/
theorem done_float {lexeme : List UInt8} (h : number_table.exec .init lexeme = some s)
    (hs : s = .decimal2 ∨ s = .any2) (rest : List UInt8) :
    NumeralToken strtod lexeme (scan_number_done strtod ⟨.value_float, lexeme, rest⟩) := by
  have hinteger : ∀ sg n, IsSign sg → lexeme ≠ sg ++ digits n := by
    rintro sg n hsg rfl
    rw [table_signed_integer hsg, afterInteger] at h
    have heq := Option.some.inj h
    split_ifs at heq <;> rcases hs with rfl | rfl <;> cases heq
  exact .float (fun n hn => absurd hn (hinteger [] n (.inl rfl))) fun n hn =>
    absurd hn (hinteger [0x2D] n (.inr rfl))

/-- **What `scan_number` comes to**, where it stops. -/
theorem scan_number_stops (strtod : List UInt8 → Option ℚ) {rest' : List UInt8}
    (htaken : c :: rest = taken ++ rest') (hc : c = 0x2D ∨ IsDigit c)
    (hexec : number_table.exec .init taken = some s) (hstuck : number_table.Stuck s rest') :
    (s.accepting = true →
      ∃ t, NumeralToken strtod taken t ∧ scan_number strtod c rest = (t, rest')) ∧
    (s.accepting = false →
      ∃ error_message, scan_number strtod c rest = (.parse_error error_message, rest'.tail)) := by
  have hlongest := Machine.longest_eq_iff.mpr ⟨htaken, hexec, hstuck⟩
  have hinit := scan_number_init_eq rest hc
  rw [hlongest] at hinit
  have hread := readTo_of_exec hexec
  have hminus : ∀ sg n, IsSign sg → taken = sg ++ digits n → (c = 0x2D ↔ sg = [0x2D]) := by
    rintro sg n (rfl | rfl) rfl
    · obtain ⟨d, ds, hds⟩ := List.exists_cons_of_ne_nil (digits_ne_nil n)
      have hd : IsDigit d := isDigit_of_mem_digits (n := n) (by rw [hds]; exact List.mem_cons_self)
      rw [List.nil_append, hds] at htaken
      obtain ⟨rfl, -⟩ := List.cons.inj htaken
      exact ⟨fun h => absurd h (isDigit_ne hd).1, fun h => by cases h⟩
    · obtain ⟨rfl, -⟩ := List.cons.inj htaken
      exact ⟨fun _ => rfl, fun _ => rfl⟩
  have hinteger : ∀ sg n, IsSign sg → taken = sg ++ digits n →
      NumeralToken strtod taken (scan_number_done strtod
        ⟨if c = 0x2D then .value_integer else .value_unsigned, [] ++ taken, rest'⟩) := by
    rintro sg n hsg htaken'
    have hiff := hminus sg n hsg htaken'
    rcases hsg with rfl | rfl
    · rw [if_neg (fun h => by cases hiff.mp h), List.nil_append, htaken']
      exact done_unsigned n rest'
    · rw [if_pos (hiff.mpr rfl), List.nil_append, htaken']
      exact done_integer n rest'
  unfold scan_number
  rw [hinit]
  constructor
  · intro haccepting
    cases hread with
    | zero hsg => exact ⟨_, hinteger _ _ hsg rfl, rfl⟩
    | any1 hsg _ => exact ⟨_, hinteger _ _ hsg rfl, rfl⟩
    | decimal2 _ _ => exact ⟨_, done_float hexec (.inl rfl) rest', rfl⟩
    | any2 _ _ _ _ _ => exact ⟨_, done_float hexec (.inr rfl) rest', rfl⟩
    | _ => cases haccepting
  · intro hrejecting
    cases s <;> first | exact ⟨_, rfl⟩ | cases hrejecting

/-- **Numbers are read as they should be**: what is taken begins a numeral, and does not with the
next byte. It is a number exactly if it is a numeral. -/
theorem scan_number_spec (strtod : List UInt8 → Option ℚ) {c : UInt8} (hc : c = 0x2D ∨ IsDigit c)
    (rest : List UInt8) :
    ∃ taken rest', c :: rest = taken ++ rest' ∧ OpensNumeral taken ∧
      (∀ x more, rest' = x :: more → ¬ OpensNumeral (taken ++ [x])) ∧
      (IsNumeral taken →
        ∃ t, NumeralToken strtod taken t ∧ scan_number strtod c rest = (t, rest')) ∧
      (¬ IsNumeral taken →
        ∃ error_message, scan_number strtod c rest = (.parse_error error_message, rest'.tail)) := by
  obtain ⟨htaken, hexec, hstuck⟩ :=
    Machine.longest_eq_iff.mp (rfl : number_table.longest .init (c :: rest) = _)
  obtain ⟨haccepts, hrejects⟩ := scan_number_stops strtod htaken hc hexec hstuck
  refine ⟨_, _, htaken, (opensNumeral_iff _).mpr (by rw [hexec]; rfl), ?_, ?_, ?_⟩
  · intro x more hrest
    rw [opensNumeral_iff, Machine.exec_append, hexec, Option.bind_some, Machine.exec_singleton,
      hstuck x more hrest]
    exact Bool.false_ne_true
  · intro hnumeral
    obtain ⟨s, hs, haccepting⟩ := (numeral_iff _).mp hnumeral
    obtain rfl := Option.some.inj (hexec.symm.trans hs)
    exact haccepts haccepting
  · intro hnumeral
    refine hrejects ?_
    by_contra hne
    exact hnumeral ((numeral_iff _).mpr ⟨_, hexec, Bool.not_eq_false _ ▸ hne⟩)

/-- A digit after a zero is not taken. -/
theorem scan_number_after_zero : ∃ taken rest', (0x30 : UInt8) :: [0x37] = taken ++ rest' ∧
      OpensNumeral taken ∧
    (∀ x more, rest' = x :: more → ¬ OpensNumeral (taken ++ [x])) ∧
    (IsNumeral taken → ∃ t, NumeralToken (fun _ => none) taken t ∧
      scan_number (fun _ => none) 0x30 [0x37] = (t, rest')) ∧
    (¬ IsNumeral taken → ∃ error_message,
      scan_number (fun _ => none) 0x30 [0x37] = (.parse_error error_message, rest'.tail)) :=
  scan_number_spec (fun _ => none) (.inr (by decide)) [0x37]

end PickUpLight.Library
