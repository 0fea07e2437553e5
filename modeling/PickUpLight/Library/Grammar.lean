import PickUpLight.Library.Parser

/-!
# The grammar of the texts

The tokens of a text make a value, or they do not (`IsValue`): this is the grammar, and there is
nothing in it of how it is parsed. The parser takes the texts whose tokens make a value, with
nothing after it, and has that value (`parse_iff`). While it runs, the containers that are open say
what the tokens to come must be (`After`), and no round changes what they must be.
-/

namespace PickUpLight.Library

open Control Theory

variable {strtod : List UInt8 → Option ℚ}

/-! ### Tokens -/

/-- **The tokens of a text**, up to its end. -/
def tokens (strtod : List UInt8 → Option ℚ) (rest : List UInt8) : List Token :=
  if _h : (scan strtod rest).1 = .end_of_input then []
  else (scan strtod rest).1 :: tokens strtod (scan strtod rest).2
termination_by rest.length
decreasing_by
  exact (scan_shorter strtod rest).resolve_right fun hend => ‹¬_› (congrArg Prod.fst hend)

/-- The tokens from one on that has been read. -/
def tokens_from (strtod : List UInt8 → Option ℚ) (t : Token) (rest : List UInt8) : List Token :=
  if t = .end_of_input then [] else t :: tokens strtod rest

theorem tokens_eq (rest : List UInt8) :
    tokens strtod rest = tokens_from strtod (scan strtod rest).1 (scan strtod rest).2 := by
  rw [tokens]
  split_ifs with h
  · exact (if_pos h).symm
  · exact (if_neg h).symm

theorem tokens_step {rest rest' : List UInt8} {t : Token} (h : scan strtod rest = (t, rest'))
    (ht : t ≠ .end_of_input) :
    tokens strtod rest = t :: tokens strtod rest' := by
  rw [tokens_eq, tokens_from, h, if_neg ht]

theorem tokens_eq_nil_iff {rest : List UInt8} :
    tokens strtod rest = [] ↔ (scan strtod rest).1 = .end_of_input := by
  rw [tokens_eq, tokens_from]
  by_cases h : (scan strtod rest).1 = .end_of_input
  · rw [if_pos h]
    exact iff_of_true rfl h
  · rw [if_neg h]
    exact iff_of_false (List.cons_ne_nil _ _) h

/-! ### The grammar -/

/-- A token that is a value of its own. -/
inductive IsAtom : Token → Json → Prop where
  | null : IsAtom .literal_null .null
  | true : IsAtom .literal_true (.bool true)
  | false : IsAtom .literal_false (.bool false)
  | unsigned (n : ℕ) : IsAtom (.value_unsigned n) (.int n)
  | integer (n : ℤ) : IsAtom (.value_integer n) (.int n)
  | float (q : ℚ) : IsAtom (.value_float (some q)) (.float q)
  | string (val : List UInt8) : IsAtom (.value_string val) (.str (Sax.text val))

/-- The members of an object, when some have been read; the last of one key stays. -/
def collect (members read : List (String × Json)) : List (String × Json) :=
  read.foldl (fun members m => Json.assign m.1 m.2 members) members

mutual

/-- **A value**, and the tokens after it. -/
inductive IsValue : List Token → Json → List Token → Prop where
  | atom {t : Token} {v : Json} {ts : List Token} : IsAtom t v → IsValue (t :: ts) v ts
  | no_items {ts : List Token} : IsValue (.begin_array :: .end_array :: ts) (.arr []) ts
  | items {ts ts₁ ts₂ : List Token} {v : Json} {vs : List Json} :
    IsValue ts v ts₁ → MoreItems ts₁ vs ts₂ →
    IsValue (.begin_array :: ts) (.arr (v :: vs)) ts₂
  | no_members {ts : List Token} : IsValue (.begin_object :: .end_object :: ts) (.obj []) ts
  | members {ts ts₁ ts₂ : List Token} {key : List UInt8} {v : Json} {ms : List (String × Json)} :
    IsValue ts v ts₁ → MoreMembers ts₁ ms ts₂ →
      IsValue (.begin_object :: .value_string key :: .name_separator :: ts)
        (.obj (collect [] ((Sax.text key, v) :: ms))) ts₂

/-- The items of an array after the first one, and its end. -/
inductive MoreItems : List Token → List Json → List Token → Prop where
  | done {ts : List Token} : MoreItems (.end_array :: ts) [] ts
  | more {ts ts₁ ts₂ : List Token} {v : Json} {vs : List Json} :
    IsValue ts v ts₁ → MoreItems ts₁ vs ts₂ →
    MoreItems (.value_separator :: ts) (v :: vs) ts₂

/-- The members of an object after the first one, and its end. -/
inductive MoreMembers : List Token → List (String × Json) → List Token → Prop where
  | done {ts : List Token} : MoreMembers (.end_object :: ts) [] ts
  | more {ts ts₁ ts₂ : List Token} {key : List UInt8} {v : Json} {ms : List (String × Json)} :
    IsValue ts v ts₁ → MoreMembers ts₁ ms ts₂ →
      MoreMembers (.value_separator :: .value_string key :: .name_separator :: ts)
        ((Sax.text key, v) :: ms) ts₂

end

/-! ### Open containers -/

/-- What is there to read of a container that is open, after one of its parts. -/
inductive Finish : Container → List Token → Json → List Token → Prop where
  | array {items vs : List Json} {ts ts' : List Token} : MoreItems ts vs ts' →
    Finish (.array items) ts (.arr (items ++ vs)) ts'
  | object {members ms : List (String × Json)} {key : Option String} {ts ts' : List Token} :
    MoreMembers ts ms ts' →
    Finish (.object members key) ts (.obj (collect members ms)) ts'

/-- **What is there to read after a value**, for the value at the root to be this one. -/
def After : List Container → Json → List Token → Json → Prop
  | [], v, ts, j => ts = [] ∧ v = j
  | c :: cs, v, ts, j => ∃ w ts', Finish (Sax.put v c) ts w ts' ∧ After cs w ts' j

/-- The same, when the handler has the value. -/
def Sax.Ends (sax : Sax) (ts : List Token) (j : Json) : Prop :=
  match sax.ref_stack with
  | [] => ts = [] ∧ sax.root = j
  | c :: cs => ∃ w ts', Finish c ts w ts' ∧ After cs w ts' j

variable {c : Container} {cs : List Container} {items : List Json} {members : List (String × Json)}
  {key : List UInt8} {object_element : Option String} {t : Token} {ts ts' : List Token}
    {v w j : Json} {sax : Sax}
  {p : Parser} {states : List Bool}

theorem ends_handle_value (v : Json) (sax : Sax) : (Sax.handle_value v sax).Ends ts j ↔
      After sax.ref_stack v ts j := by
  obtain ⟨root, ref_stack⟩ := sax
  cases ref_stack with
  | nil => rfl
  | cons c cs => rfl

theorem not_finish_nil : ¬Finish c [] w ts' := by
  rintro (h | h) <;> cases h

theorem finish_array_end : Finish (.array items) (.end_array :: ts) w ts' ↔ w = .arr items ∧
      ts' = ts := by
  constructor
  · rintro (h | h)
    cases h
    exact ⟨by rw [List.append_nil], rfl⟩
  · rintro ⟨rfl, rfl⟩
    have h : Finish (.array items) (.end_array :: ts') (.arr (items ++ [])) ts' := .array .done
    rwa [List.append_nil] at h

theorem finish_array_more : Finish (.array items) (.value_separator :: ts) w ts' ↔
    ∃ v ts₁, IsValue ts v ts₁ ∧ Finish (.array (items ++ [v])) ts₁ w ts' := by
  constructor
  · rintro (h | h)
    cases h with
    | @more _ ts₁ _ v vs hv hmore =>
      refine ⟨v, ts₁, hv, ?_⟩
      have h : Finish (.array (items ++ [v])) ts₁ (.arr (items ++ [v] ++ vs)) ts' := .array hmore
      rwa [List.append_assoc] at h
  · rintro ⟨v, ts₁, hv, hmore⟩
    cases hmore with
    | array h =>
      rw [List.append_assoc]
      exact .array (.more hv h)

/-- After an item there is a comma or the end of the array. -/
theorem not_finish_array (hcomma : t ≠ .value_separator) (hend : t ≠ .end_array) :
    ¬Finish (.array items) (t :: ts) w ts' := by
  rintro (h | h)
  cases h with
  | done => exact hend rfl
  | more => exact hcomma rfl

theorem finish_object_end :
    Finish (.object members object_element) (.end_object :: ts) w ts' ↔ w = .obj members ∧
      ts' = ts := by
  constructor
  · rintro (h | h)
    cases h
    exact ⟨rfl, rfl⟩
  · rintro ⟨rfl, rfl⟩
    have h : Finish (.object members object_element) (.end_object :: ts')
      (.obj (collect members [])) ts' := .object .done
    exact h

theorem finish_object_more :
    Finish (.object members object_element) (.value_separator :: ts) w ts' ↔
    ∃ key ts₀, ts = .value_string key :: .name_separator :: ts₀ ∧ ∃ v ts₁, IsValue ts₀ v ts₁ ∧
      Finish (.object (Json.assign (Sax.text key) v members) (some (Sax.text key))) ts₁ w ts' := by
  constructor
  · rintro (h | h)
    cases h with
    | @more ts₀ ts₁ _ key v ms hv hmore => exact ⟨key, ts₀, rfl, v, ts₁, hv, .object hmore⟩
  · rintro ⟨key, ts₀, rfl, v, ts₁, hv, hmore⟩
    cases hmore with
    | @object _ ms _ _ _ h =>
      have h' :
          Finish (.object members object_element)
            (.value_separator :: .value_string key :: .name_separator :: ts₀)
            (.obj (collect members ((Sax.text key, v) :: ms))) ts' := .object (.more hv h)
      exact h'

/-- After a member there is a comma or the end of the object. -/
theorem not_finish_object (hcomma : t ≠ .value_separator) (hend : t ≠ .end_object) :
    ¬Finish (.object members object_element) (t :: ts) w ts' := by
  rintro (h | h)
  cases h with
  | done => exact hend rfl
  | more => exact hcomma rfl

/-! ### The rounds -/

/-- The tokens there are to read, when one has been read. -/
def Parser.pending (strtod : List UInt8 → Option ℚ) (p : Parser) : List Token :=
  tokens_from strtod p.last_token p.rest

theorem pending_get_token (p : Parser) :
    (p.get_token strtod).pending strtod = tokens strtod p.rest :=
  (tokens_eq p.rest).symm

theorem pending_cons (h : p.last_token = t) (ht : t ≠ .end_of_input) :
    p.pending strtod = t :: tokens strtod p.rest := by
  rw [Parser.pending, tokens_from, h, if_neg ht]

/-- The containers that the parser is in are those of the handler. -/
def Container.IsArray : Container → Bool
  | .array _ => true
  | .object _ _ => false

/-- The parser and its handler are in the same containers. -/
def Parser.Agrees (p : Parser) : Prop := p.states = p.sax.ref_stack.map Container.IsArray

/-- **What the tokens to come must be**, for the parser to have this value in the end. -/
def Parser.Expects (strtod : List UInt8 → Option ℚ) (p : Parser) (j : Json) : Prop :=
  if p.skip_to_state_evaluation then p.sax.Ends (tokens strtod p.rest) j
  else ∃ v ts, IsValue (p.pending strtod) v ts ∧ After p.sax.ref_stack v ts j

/-- The same at the end of the loop. -/
def Finished (strtod : List UInt8 → Option ℚ) : Except ParseError (Sax × List UInt8) → Json → Prop
  | .ok (sax, rest), j => tokens strtod rest = [] ∧ sax.root = j
  | .error _, _ => False

/-- A round that means this. -/
def Round.Means (strtod : List UInt8 → Option ℚ) (P : Json → Prop) : Round → Prop
  | .inl t => t.Agrees ∧ ∀ j, P j ↔ t.Expects strtod j
  | .inr r => ∀ j, P j ↔ Finished strtod r j

theorem Round.Means.congr {P Q : Json → Prop} {x : Round} (h : x.Means strtod Q)
    (hPQ : ∀ j, P j ↔ Q j) :
    x.Means strtod P := by
  cases x with
  | inl t => exact ⟨h.1, fun j => (hPQ j).trans (h.2 j)⟩
  | inr r => exact fun j => (hPQ j).trans (h j)

theorem means_unexpected {P : Json → Prop} {context : String} {expected : Option String}
    (h : ∀ j, ¬P j) :
    (p.unexpected context expected).Means strtod P :=
  fun j => iff_of_false (h j) id

/-- A part of the container that is open comes next. -/
theorem ends_more {c : Container} (c' : Container) {ts : List Token} (ts₀ : List Token)
    (h : ∀ w ts', Finish c ts w ts' ↔ ∃ v ts₁, IsValue ts₀ v ts₁ ∧
      Finish (Sax.put v c') ts₁ w ts') :
    (∃ w ts', Finish c ts w ts' ∧ After cs w ts' j) ↔ ∃ v ts₁, IsValue ts₀ v ts₁ ∧
      After (c' :: cs) v ts₁ j := by
  constructor
  · rintro ⟨w, ts', hfinish, hafter⟩
    obtain ⟨v, ts₁, hv, hfinish⟩ := (h w ts').mp hfinish
    exact ⟨v, ts₁, hv, w, ts', hfinish, hafter⟩
  · rintro ⟨v, ts₁, hv, w, ts', hfinish, hafter⟩
    exact ⟨w, ts', (h w ts').mpr ⟨v, ts₁, hv, hfinish⟩, hafter⟩

/-- The container that is open ends. -/
theorem ends_done {c : Container} {ts : List Token} (ts₀ : List Token) (w₀ : Json)
    (h : ∀ w ts', Finish c ts w ts' ↔ w = w₀ ∧ ts' = ts₀) :
    (∃ w ts', Finish c ts w ts' ∧ After cs w ts' j) ↔ After cs w₀ ts₀ j := by
  constructor
  · rintro ⟨w, ts', hfinish, hafter⟩
    obtain ⟨rfl, rfl⟩ := (h w ts').mp hfinish
    exact hafter
  · intro hafter
    exact ⟨w₀, ts₀, (h w₀ ts₀).mpr ⟨rfl, rfl⟩, hafter⟩

theorem agrees_handle_value {root : Json} (v : Json) {rest : List UInt8} {skip : Bool}
    (h : states = cs.map Container.IsArray) :
    (Parser.mk rest t states skip (Sax.handle_value v ⟨root, cs⟩)).Agrees := by
  cases cs with
  | nil => exact h
  | cons c cs =>
    refine h.trans ?_
    cases c with
    | array items => rfl
    | object members key => cases key <;> rfl

/-- The part that `key` makes for a value is the one the value goes to. -/
theorem put_key (members : List (String × Json)) (k : String) (v : Json) :
    Json.assign k v (if (members.lookup k).isSome then members else members ++ [(k, .null)]) =
      Json.assign k v members := by
  split_ifs with h
  · rfl
  · rw [Option.not_isSome_iff_eq_none] at h
    induction members with
    | nil => exact if_pos rfl
    | cons m members ih =>
      rw [List.lookup_cons] at h
      split at h
      · cases h
      · rename_i hne
        have hne' : m.1 ≠ k := fun heq => by simp [heq] at hne
        rw [List.cons_append, Json.assign, Json.assign, if_neg hne', if_neg hne', ih h]

variable {root : Json} {rest : List UInt8} {remember : Parser → Parser}

theorem after_item_means (hstates : states = cs.map Container.IsArray) :
    ((Parser.mk rest t (true :: states) false ⟨root, .array items :: cs⟩).after_item strtod
      states).Means strtod
      fun j => ∃ w ts', Finish (.array items) (tokens_from strtod t rest) w ts' ∧
      After cs w ts' j := by
  unfold Parser.after_item
  by_cases hcomma : t = .value_separator
  · rw [if_pos hcomma, hcomma]
    refine ⟨congrArg (true :: ·) hstates, fun j => ?_⟩
    refine (ends_more (.array items) (tokens strtod rest) fun w ts' => ?_).trans ?_
    · exact finish_array_more
    · change _ ↔ ∃ v ts, IsValue (Parser.pending strtod (Parser.get_token strtod _)) v ts ∧ _
      rw [pending_get_token]
      rfl
  by_cases hend : t = .end_array
  · rw [if_neg hcomma, if_pos hend, hend]
    refine ⟨agrees_handle_value _ hstates, fun j => ?_⟩
    refine (ends_done (tokens strtod rest) (.arr items) fun w ts' => ?_).trans ?_
    · exact finish_array_end
    · exact (ends_handle_value (.arr items) ⟨root, cs⟩).symm
  · rw [if_neg hcomma, if_neg hend]
    refine means_unexpected ?_
    rintro j ⟨w, ts', hfinish, -⟩
    unfold tokens_from at hfinish
    split_ifs at hfinish
    · exact not_finish_nil hfinish
    · exact not_finish_array hcomma hend hfinish

/-- A member comes next, and then what there is after it. -/
def MemberComes (members : List (String × Json)) (cs : List Container) (ts : List Token)
    (j : Json) : Prop :=
  ∃ key ts₀, ts = .value_string key :: .name_separator :: ts₀ ∧
    ∃ v ts₁, IsValue ts₀ v ts₁ ∧ After (.object members (some (Sax.text key)) :: cs) v ts₁ j

theorem parse_key_means (members : List (String × Json)) (cs : List Container)
    (hremember : ∀ rest t sax,
      remember ⟨rest, t, states, false, sax⟩ =
      ⟨rest, t, false :: cs.map Container.IsArray, false, sax⟩) :
    ((Parser.mk rest t states false ⟨root, .object members object_element :: cs⟩).parse_key strtod
      remember).Means strtod
      (MemberComes members cs (tokens_from strtod t rest)) := by
  unfold Parser.parse_key
  dsimp only
  split
  · rename_i key
    have htokens :
        tokens_from strtod (.value_string key) rest = .value_string key :: tokens strtod rest :=
      if_neg (by simp)
    rw [htokens]
    change Round.Means strtod _ (if (scan strtod rest).1 = .name_separator then
      .inl (Parser.get_token strtod
        (remember ⟨(scan strtod rest).2, (scan strtod rest).1, states, false, ⟨root,
        .object (if (members.lookup (Sax.text key)).isSome then members else members ++
          [(Sax.text key, .null)])
          (some (Sax.text key)) :: cs⟩⟩)) else _)
    rw [hremember]
    by_cases hcolon : (scan strtod rest).1 = .name_separator
    · rw [if_pos hcolon]
      refine ⟨rfl, fun j => ?_⟩
      have hrest : tokens strtod rest = .name_separator :: tokens strtod (scan strtod rest).2 := by
        rw [tokens_eq, tokens_from, if_neg (by rw [hcolon]; simp), hcolon]
      rw [hrest]
      change _ ↔ ∃ v ts, IsValue (Parser.pending strtod (Parser.get_token strtod _)) v ts ∧
        ∃ w ts', Finish (.object (Json.assign _ v _) _) ts w ts' ∧ After cs w ts' j
      rw [pending_get_token]
      simp only [put_key]
      constructor
      · rintro ⟨key', ts₀, heq, hvalue⟩
        simp only [List.cons.injEq, Token.value_string.injEq, true_and] at heq
        obtain ⟨rfl, rfl⟩ := heq
        exact hvalue
      · intro hvalue
        exact ⟨key, _, rfl, hvalue⟩
    · rw [if_neg hcolon]
      refine means_unexpected ?_
      rintro j ⟨key', ts₀, heq, -⟩
      rw [tokens_eq, tokens_from] at heq
      split_ifs at heq
      · cases heq
      · simp only [List.cons.injEq] at heq
        exact hcolon heq.2.1
  · rename_i hkey
    refine means_unexpected ?_
    rintro j ⟨key, ts₀, heq, -⟩
    rw [tokens_from] at heq
    split_ifs at heq
    simp only [List.cons.injEq] at heq
    exact hkey key heq.1

theorem after_member_means (hstates : states = cs.map Container.IsArray) :
    ((Parser.mk rest t (false :: states) false
      ⟨root, .object members object_element :: cs⟩).after_member strtod
      states).Means strtod
        fun j => ∃ w ts', Finish (.object members object_element) (tokens_from strtod t rest) w
        ts' ∧ After cs w ts' j := by
  unfold Parser.after_member
  by_cases hcomma : t = .value_separator
  · rw [if_pos hcomma, hcomma]
    refine (parse_key_means members cs (fun _ _ _ => ?_)).congr fun j => ?_
    · rw [hstates]
      rfl
    · have htokens :
        tokens_from strtod .value_separator rest = .value_separator :: tokens strtod rest :=
        if_neg (by simp)
      rw [← tokens_eq, htokens]
      constructor
      · rintro ⟨w, ts', hfinish, hafter⟩
        obtain ⟨key, ts₀, heq, v, ts₁, hv, hfinish⟩ := finish_object_more.mp hfinish
        exact ⟨key, ts₀, heq, v, ts₁, hv, w, ts', hfinish, hafter⟩
      · rintro ⟨key, ts₀, heq, v, ts₁, hv, w, ts', hfinish, hafter⟩
        exact ⟨w, ts', finish_object_more.mpr ⟨key, ts₀, heq, v, ts₁, hv, hfinish⟩, hafter⟩
  by_cases hend : t = .end_object
  · rw [if_neg hcomma, if_pos hend, hend]
    refine ⟨agrees_handle_value _ hstates, fun j => ?_⟩
    refine (ends_done (tokens strtod rest) (.obj members) fun w ts' => ?_).trans ?_
    · exact finish_object_end
    · exact (ends_handle_value (.obj members) ⟨root, cs⟩).symm
  · rw [if_neg hcomma, if_neg hend]
    refine means_unexpected ?_
    rintro j ⟨w, ts', hfinish, -⟩
    unfold tokens_from at hfinish
    split_ifs at hfinish
    · exact not_finish_nil hfinish
    · exact not_finish_object hcomma hend hfinish

/-- **What follows a value is what the open containers say.** -/
theorem evaluate_state_means (strtod : List UInt8 → Option ℚ) (hp : p.Agrees)
    (hskip : p.skip_to_state_evaluation = false) :
    (p.evaluate_state strtod).Means strtod (p.sax.Ends (tokens strtod p.rest)) := by
  obtain ⟨rest, t, states, skip, ⟨root, ref_stack⟩⟩ := p
  cases hskip
  change states = ref_stack.map Container.IsArray at hp
  cases ref_stack with
  | nil =>
    rw [hp]
    exact fun j => Iff.rfl
  | cons c cs =>
    cases c with
    | array items =>
      rw [hp]
      refine (after_item_means rfl).congr fun j => ?_
      rw [← tokens_eq]
      rfl
    | object members key =>
      rw [hp]
      refine (after_member_means rfl).congr fun j => ?_
      rw [← tokens_eq]
      rfl

/-! ### The round -/

/-- A value comes next, and then what there is after it. -/
def ValueComes (cs : List Container) (ts : List Token) (j : Json) : Prop :=
  ∃ v ts', IsValue ts v ts' ∧ After cs v ts' j

/-- A value that is one token. -/
theorem value_atom (hatom : IsAtom t v) : ValueComes cs (t :: ts) j ↔ After cs v ts j := by
  constructor
  · rintro ⟨w, ts', hw, hafter⟩
    cases hatom <;> cases hw with
    | atom h =>
      cases h
      exact hafter
  · intro hafter
    exact ⟨v, ts, .atom hatom, hafter⟩

theorem parsed_means (hp : p.Agrees) (hskip : p.skip_to_state_evaluation = false)
    (hatom : IsAtom t v) :
    (p.parsed strtod v).Means strtod
      (ValueComes p.sax.ref_stack (tokens_from strtod t p.rest)) := by
  have htokens : tokens_from strtod t p.rest = t :: tokens strtod p.rest :=
    if_neg (by rintro rfl; cases hatom)
  obtain ⟨rest, t', states, skip, ⟨root, cs⟩⟩ := p
  cases hskip
  refine (evaluate_state_means strtod (agrees_handle_value v hp) rfl).congr fun j => ?_
  rw [htokens]
  exact (value_atom hatom).trans (ends_handle_value v _).symm

/-- No value begins with this token. -/
theorem value_none (hatom : ∀ v, ¬IsAtom t v) (harray : t ≠ .begin_array)
    (hobject : t ≠ .begin_object) :
    ¬ValueComes cs (tokens_from strtod t rest) j := by
  rintro ⟨w, ts', hw, -⟩
  unfold tokens_from at hw
  generalize tokens strtod rest = ts at hw
  split_ifs at hw
  · cases hw
  · cases hw with
    | atom h => exact hatom w h
    | no_items | items => exact harray rfl
    | no_members | members => exact hobject rfl

theorem value_array : ValueComes cs (.begin_array :: ts) j ↔
    (∃ ts₀, ts = .end_array :: ts₀ ∧ After cs (.arr []) ts₀ j) ∨
      ValueComes (.array [] :: cs) ts j := by
  constructor
  · rintro ⟨w, ts', hw, hafter⟩
    cases hw with
    | atom h => cases h
    | no_items => exact .inl ⟨ts', rfl, hafter⟩
    | @items _ ts₁ _ v vs hv hmore => exact .inr ⟨v, ts₁, hv, _, ts', .array hmore, hafter⟩
  · rintro (⟨ts₀, rfl, hafter⟩ | ⟨v, ts₁, hv, w, ts', hfinish, hafter⟩)
    · exact ⟨_, ts₀, .no_items, hafter⟩
    · cases hfinish with
      | array hmore => exact ⟨_, ts', .items hv hmore, hafter⟩

theorem value_object : ValueComes cs (.begin_object :: ts) j ↔
    (∃ ts₀, ts = .end_object :: ts₀ ∧ After cs (.obj []) ts₀ j) ∨ MemberComes [] cs ts j := by
  constructor
  · rintro ⟨w, ts', hw, hafter⟩
    cases hw with
    | atom h => cases h
    | no_members => exact .inl ⟨ts', rfl, hafter⟩
    | @members ts₀ ts₁ _ key v ms hv hmore =>
      exact .inr ⟨key, ts₀, rfl, v, ts₁, hv, _, ts', .object hmore, hafter⟩
  · rintro (⟨ts₀, rfl, hafter⟩ | ⟨key, ts₀, rfl, v, ts₁, hv, w, ts', hfinish, hafter⟩)
    · exact ⟨_, ts₀, .no_members, hafter⟩
    · cases hfinish with
      | object hmore => exact ⟨_, ts', .members hv hmore, hafter⟩

theorem first_item_means (hstates : states = cs.map Container.IsArray) :
    ((Parser.mk rest t states false ⟨root, .array [] :: cs⟩).first_item strtod).Means strtod
      (ValueComes cs (.begin_array :: tokens_from strtod t rest)) := by
  unfold Parser.first_item
  by_cases hend : t = .end_array
  · rw [if_pos hend, hend]
    refine (evaluate_state_means strtod (agrees_handle_value _ hstates) rfl).congr fun j => ?_
    refine Iff.trans ?_ (ends_handle_value (.arr []) ⟨root, cs⟩).symm
    have htokens : tokens_from strtod .end_array rest = .end_array :: tokens strtod rest :=
      if_neg (by simp)
    rw [value_array]
    constructor
    · rintro (⟨ts₀, heq, hafter⟩ | hvalue)
      · rw [htokens, List.cons.injEq] at heq
        rw [← heq.2] at hafter
        exact hafter
      · exact absurd hvalue (value_none (fun v h => by cases h) (by simp) (by simp))
    · exact fun hafter => .inl ⟨_, htokens, hafter⟩
  · rw [if_neg hend]
    refine ⟨congrArg (true :: ·) hstates, fun j => ?_⟩
    rw [value_array]
    refine or_iff_right ?_
    rintro ⟨ts₀, heq, -⟩
    unfold tokens_from at heq
    split_ifs at heq
    exact hend (List.cons.inj heq).1

theorem first_member_means (hstates : states = cs.map Container.IsArray) :
    ((Parser.mk rest t states false ⟨root, .object [] none :: cs⟩).first_member strtod).Means strtod
      (ValueComes cs (.begin_object :: tokens_from strtod t rest)) := by
  unfold Parser.first_member
  by_cases hend : t = .end_object
  · rw [if_pos hend, hend]
    refine (evaluate_state_means strtod (agrees_handle_value _ hstates) rfl).congr fun j => ?_
    refine Iff.trans ?_ (ends_handle_value (.obj []) ⟨root, cs⟩).symm
    have htokens : tokens_from strtod .end_object rest = .end_object :: tokens strtod rest :=
      if_neg (by simp)
    rw [value_object, htokens]
    constructor
    · rintro (⟨ts₀, heq, hafter⟩ | ⟨key, ts₀, heq, -⟩)
      · rw [List.cons.injEq] at heq
        rw [← heq.2] at hafter
        exact hafter
      · cases (List.cons.inj heq).1
    · exact fun hafter => .inl ⟨_, rfl, hafter⟩
  · rw [if_neg hend]
    refine (parse_key_means [] cs (fun _ _ _ => ?_)).congr fun j => ?_
    · rw [hstates]
      rfl
    · rw [value_object]
      refine or_iff_right ?_
      rintro ⟨ts₀, heq, -⟩
      unfold tokens_from at heq
      split_ifs at heq
      exact hend (List.cons.inj heq).1

theorem parse_value_means (strtod : List UInt8 → Option ℚ) (hp : p.Agrees)
    (hskip : p.skip_to_state_evaluation = false) :
    (p.parse_value strtod).Means strtod (ValueComes p.sax.ref_stack (p.pending strtod)) := by
  have hatom : ∀ {v}, IsAtom p.last_token v →
      (p.parsed strtod v).Means strtod (ValueComes p.sax.ref_stack (p.pending strtod)) :=
        fun h => parsed_means hp hskip h
  have hnone : (∀ v, ¬IsAtom p.last_token v) → p.last_token ≠ .begin_array →
    p.last_token ≠ .begin_object →
      ∀ j, ¬ValueComes p.sax.ref_stack (p.pending strtod) j := fun h h₁ h₂ j => value_none h h₁ h₂
  unfold Parser.parse_value
  split
  · rename_i hbegin
    rw [pending_cons hbegin (by simp), tokens_eq]
    obtain ⟨rest, t, states, skip, ⟨root, cs⟩⟩ := p
    cases hskip
    exact first_member_means hp
  · rename_i hbegin
    rw [pending_cons hbegin (by simp), tokens_eq]
    obtain ⟨rest, t, states, skip, ⟨root, cs⟩⟩ := p
    cases hskip
    exact first_item_means hp
  · rename_i h
    rw [h] at hnone
    exact fun j => iff_of_false (hnone (fun v hv => by cases hv) (by simp) (by simp) j) id
  all_goals first
    | exact hatom (by rw [‹p.last_token = _›]; constructor)
    | skip
  · rename_i h
    rw [h] at hnone
    exact means_unexpected (hnone (fun v hv => by cases hv) (by simp) (by simp))
  · rename_i hobject harray _ hfloat hfalse hnull htrue hinteger hstring hunsigned _
    refine means_unexpected (hnone (fun v hv => ?_) harray hobject)
    generalize p.last_token = t at *
    cases hv with
    | null => exact hnull rfl
    | true => exact htrue rfl
    | false => exact hfalse rfl
    | unsigned n => exact hunsigned n rfl
    | integer n => exact hinteger n rfl
    | float q => exact hfloat q rfl
    | string val => exact hstring val rfl

/-- **No round changes what the tokens to come must be.** -/
theorem pass_means (strtod : List UInt8 → Option ℚ) (hp : p.Agrees) :
    (p.pass strtod).Means strtod (p.Expects strtod) := by
  unfold Parser.pass
  split_ifs with hskip
  · have h := evaluate_state_means strtod (p := { p with skip_to_state_evaluation := false }) hp rfl
    exact h.congr fun j => by rw [Parser.Expects, if_pos hskip]
  · have h := parse_value_means strtod hp (Bool.eq_false_of_not_eq_true hskip)
    exact h.congr fun j => by rw [Parser.Expects, if_neg hskip]; rfl

/-- What the parser ends with. -/
theorem sax_parse_means (strtod : List UInt8 → Option ℚ) (hp : p.Agrees) (j : Json) :
    p.Expects strtod j ↔ Finished strtod (p.sax_parse_internal strtod) j := by
  refine loop_means (I := Parser.Agrees) (D := Parser.Expects strtod) (E := Finished strtod) ?_ ?_
    hp j
  · intro s t hs h
    have hmeans := pass_means strtod hs
    rw [h] at hmeans
    exact hmeans
  · intro s r hs h
    have hmeans := pass_means strtod hs
    rw [h] at hmeans
    exact hmeans

/-- The tokens of a text, after a byte order mark, make this value. -/
def Makes (strtod : List UInt8 → Option ℚ) (text : List UInt8) (j : Json) : Prop :=
  ∃ rest, skip_bom text = (true, rest) ∧ IsValue (tokens strtod rest) j []

theorem parse_iff {text : List UInt8} : parse strtod text = .ok j ↔ Makes strtod text j := by
  have hp : (Parser.mk (scan_first strtod text).2 (scan_first strtod text).1 [] false
      ⟨.null, []⟩).Agrees :=
    rfl
  have hloop := sax_parse_means strtod hp j
  have hparse : parse strtod text = .ok j ↔ Finished strtod (Parser.sax_parse_internal strtod
      ⟨(scan_first strtod text).2, (scan_first strtod text).1, [], false, ⟨.null, []⟩⟩) j := by
    unfold parse
    split
    · rename_i h
      rw [h]
      exact iff_of_false (fun h' => by cases h') id
    · rename_i sax rest h
      rw [h]
      change _ ↔ tokens strtod rest = [] ∧ sax.root = j
      rw [tokens_eq_nil_iff]
      split_ifs with hend
      · simp [hend]
      · simp [hend]
  have hvalue : (Parser.mk (scan_first strtod text).2 (scan_first strtod text).1 [] false
      ⟨.null, []⟩).Expects strtod j ↔
      IsValue (tokens_from strtod (scan_first strtod text).1 (scan_first strtod text).2) j [] := by
    constructor
    · rintro ⟨v, ts, hv, rfl, rfl⟩
      exact hv
    · intro hv
      exact ⟨j, [], hv, rfl, rfl⟩
  rw [hparse, ← hloop, hvalue]
  unfold Makes scan_first
  split
  · rename_i rest hbom
    rw [hbom, ← tokens_eq]
    simp
  · rename_i rest hbom
    rw [hbom]
    have herror :
        tokens_from strtod (.parse_error "invalid BOM; must be 0xEF 0xBB 0xBF if given") rest =
          .parse_error "invalid BOM; must be 0xEF 0xBB 0xBF if given" :: tokens strtod rest :=
      if_neg (by simp)
    rw [herror]
    generalize tokens strtod rest = ts
    constructor
    · intro hv
      cases hv with
      | atom h => cases h
    · rintro ⟨rest', h, -⟩
      cases h

/-- **The grammar of the texts**: the tokens of a text make one value at most. The parser has it,
and throws where there is none. -/
theorem parse_decides (strtod : List UInt8 → Option ℚ) (text : List UInt8) :
    (∃ j, parse strtod text = .ok j ∧ ∀ j', Makes strtod text j' ↔ j' = j) ∨
      ∃ err, parse strtod text = .error err ∧ ∀ j, ¬Makes strtod text j := by
  cases h : parse strtod text with
  | ok j =>
    refine .inl ⟨j, rfl, fun j' => ?_⟩
    rw [← parse_iff, h, Except.ok.injEq, eq_comm]
  | error err =>
    refine .inr ⟨err, rfl, fun j hj => ?_⟩
    rw [parse_iff.mpr hj] at h
    cases h

end PickUpLight.Library
