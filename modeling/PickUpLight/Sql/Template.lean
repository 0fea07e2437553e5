import PickUpLight.Sql.Syntax

/-!
# Statements from templates

A program writes a statement from code of its own, and texts that it splices in, as numbers or
within quotes. `Scans` says what has been read of such a text, piece by piece: when the texts are
what they are taken for, each is one token, and `parse_template` says what comes out.
-/

namespace PickUpLight.Sql

open PickUpLight.Theory

variable {s : List Char} {pre ts ts' : List Token} {c : Char} {mode mode' : Mode}
  {t text n : String}
  {st : Statement}

/-! ### Reading from the middle -/

theorem start_frame (pre : List Token) (h : start ts c = some (mode, ts')) :
    start (pre ++ ts) c = some (mode, pre ++ ts') := by
  unfold start at h ⊢
  split_ifs at h ⊢ <;> cases h
  · rfl
  · rfl
  · rfl
  · rw [List.append_assoc]

/-- What has been read before does not matter. -/
theorem lexer_frame (pre : List Token) (h : lexer (mode, ts) c = some (mode', ts')) :
    lexer (mode, pre ++ ts) c = some (mode', pre ++ ts') := by
  cases mode with
  | between => exact start_frame pre h
  | word acc =>
    simp only [lexer] at h ⊢
    split_ifs at h ⊢
    · cases h; rfl
    · obtain ⟨token, ht, h⟩ := Option.bind_eq_some_iff.mp h
      rw [ht, Option.bind_some, List.append_assoc]
      exact start_frame pre h
  | text acc =>
    simp only [lexer] at h ⊢
    split_ifs at h ⊢ <;> cases h <;> rfl
  | quoted acc =>
    simp only [lexer] at h ⊢
    split_ifs at h ⊢
    · cases h; rfl
    · rw [List.append_assoc]
      exact start_frame pre h
  | escaped acc =>
    cases h
    rfl

theorem exec_frame (pre : List Token) (h : lexer.exec (mode, ts) s = some (mode', ts')) :
    lexer.exec (mode, pre ++ ts) s = some (mode', pre ++ ts') := by
  induction s generalizing mode ts with
  | nil => cases h; rfl
  | cons c s ih =>
    obtain ⟨⟨m, t⟩, ht, h⟩ := (Machine.exec_cons_iff _).mp h
    exact (Machine.exec_cons_iff _).mpr ⟨_, lexer_frame pre ht, ih h⟩

theorem finish_frame (pre : List Token) (h : finish (mode, ts) = some ts') :
    finish (mode, pre ++ ts) = some (pre ++ ts') := by
  cases mode with
  | between => cases h; rfl
  | word acc =>
    obtain ⟨token, ht, rfl⟩ := Option.map_eq_some_iff.mp h
    rw [finish, ht, Option.map_some, List.append_assoc]
  | quoted acc =>
    cases h
    rw [finish, List.append_assoc]
  | text acc => cases h
  | escaped acc => cases h

theorem tokensFrom_frame (pre : List Token) (h : tokensFrom (mode, ts) s = some ts') :
    tokensFrom (mode, pre ++ ts) s = some (pre ++ ts') := by
  obtain ⟨⟨m, t⟩, ht, h⟩ := Option.bind_eq_some_iff.mp h
  rw [tokensFrom, exec_frame pre ht, Option.bind_some, finish_frame pre h]

/-! ### Templates -/

/-- The text is read up to the mode, and these are its tokens. -/
def Scans (text : String) (mode : Mode) (ts : List Token) : Prop :=
  lexer.exec (.between, []) text.toList = some (mode, ts)

/-- No token goes on in the text that follows. -/
def apart (rest : List Char) : Bool := rest.head?.all fun c => !isWordChar c && c != quote

/-- A token that is over is read before the text that follows. -/
theorem exec_apart {token : Token} (happ : apart (c :: s) = true)
    (hstart : isWordChar c = false → c ≠ quote → lexer (mode, pre) c = start (pre ++ [token]) c)
    (hs : lexer.exec (.between, []) (c :: s) = some (mode', ts)) :
    lexer.exec (mode, pre) (c :: s) = some (mode', pre ++ token :: ts) := by
  simp only [apart, List.head?_cons, Option.all_some, Bool.and_eq_true, Bool.not_eq_true',
    bne_iff_ne, ne_eq] at happ
  have hframe := exec_frame (pre ++ [token]) hs
  rw [List.append_nil, List.append_assoc, List.singleton_append, Machine.exec_cons] at hframe
  rw [Machine.exec_cons, hstart happ.1 happ.2]
  exact hframe

namespace Scans

theorem append (h : Scans text mode ts) {a : String}
    (ha : lexer.exec (mode, ts) a.toList = some (mode', ts')) :
    Scans (text ++ a) mode' ts' := by
  rw [Scans, String.toList_append, Machine.exec_append, h]
  exact ha

/-- Code. Its characters are given as a list, so that they are never taken out of the string. -/
theorem code (h : lexer.exec (.between, []) s = some (mode, ts)) :
    Scans (String.ofList s) mode ts := by
  rw [Scans, String.toList_ofList, h]

/-- A text that is spliced in as it is, as a number, and code. -/
theorem number (h : Scans text .between ts) (hn : IsNumber n) (happ : apart (c :: s) = true)
    (hs : lexer.exec (.between, []) (c :: s) = some (mode, ts')) :
    Scans (text ++ n ++ String.ofList (c :: s)) mode (ts ++ .number n :: ts') := by
  refine (h.append (exec_digits hn.1 hn.2)).append ?_
  rw [String.toList_ofList]
  refine exec_apart happ (fun hc _ => ?_) hs
  simp only [lexer, hc, classify_digits hn.2, Option.bind_some, Bool.false_eq_true, if_false,
    String.ofList_toList]

/-- A text that is spliced in within quotes, and code. -/
theorem literal (h : Scans text (.text []) ts) (ht : Literal t.toList)
    (happ : apart (c :: s) = true) (hs : lexer.exec (.between, []) (c :: s) = some (mode, ts')) :
    Scans (text ++ t ++ String.ofList (quote :: c :: s)) mode (ts ++ .text t :: ts') := by
  refine (h.append (exec_literal ht)).append ?_
  rw [String.toList_ofList, Machine.exec_cons, lexer_quote, Option.bind_some]
  refine exec_apart happ (fun _ hc => ?_) hs
  simp only [lexer, if_neg hc, String.ofList_toList]

/-- A number may come last. -/
theorem lex_number (h : Scans text .between ts) (hn : IsNumber n) :
    lex (text ++ n) = some (ts ++ [.number n]) := by
  have hexec : Scans (text ++ n) (.word n.toList) ts := h.append (exec_digits hn.1 hn.2)
  rw [lex, tokensFrom, hexec, Option.bind_some, finish, classify_digits hn.2, Option.map_some,
    String.ofList_toList]

end Scans

/-- **The statement of a template** is the statement of the text. -/
theorem parse_template (h : Scans text mode ts) (hfinish : finish (mode, ts) = some ts')
    (hst : Parser.statement ts' = some st) : parse text = some st := by
  rw [parse, lex, tokensFrom, h, Option.bind_some, hfinish, Option.bind_some, hst]

/-- **The statement of a template that ends with a number.** -/
theorem parse_template_number (h : Scans text .between ts) (hn : IsNumber n)
    (hst : Parser.statement (ts ++ [.number n]) = some st) : parse (text ++ n) = some st := by
  rw [parse, h.lex_number hn, Option.bind_some, hst]

/-- **The statement of a template with a text in place of a literal**, which need not be one. -/
theorem parse_spliced {before : String} {tail : List Char} {ending : List Token}
    (h : Scans before (.text []) ts)
    (htext : text.toList = before.toList ++ (t.toList ++ quote :: tail)) (htail : quote ∉ tail)
    (hending : tokensFrom (.between, []) tail = some ending) (hparse : parse text = some st) :
    ∃ w more, Parser.statement (ts ++ .text w :: more) = some st ∧ w.length ≤ t.length ∧
      (w = t → Literal t.toList) ∧ ((∃ w', Token.text w' ∈ more) ∨ more = ending) := by
  obtain ⟨tokens, hlex, hst⟩ := Option.bind_eq_some_iff.mp hparse
  rw [lex, htext, tokensFrom_append h] at hlex
  obtain ⟨w, more, rfl, hlen, hw, hmore⟩ := tokensFrom_spliced htail hlex
  rw [String.length_toList, String.length_toList] at hlen
  refine ⟨w, more, hst, hlen, fun heq => hw (by rw [heq]), hmore.imp_right fun hmore => ?_⟩
  have hframe := tokensFrom_frame (ts ++ [.text w]) hending
  rw [List.append_nil, hmore, Option.some.injEq, List.append_cons] at hframe
  exact List.append_cancel_left hframe

/-- An insertion with a text spliced in among its values inserts what is read in its place. -/
theorem insert_of_spliced {before table : String} {names : List String} {tail : List Char}
    {ending : List Token} {c : Command} (known : List String)
    (htext : text = before ++ t ++ String.ofList (quote :: tail)) (h : Scans before (.text []) ts)
    (htail : quote ∉ tail) (hending : tokensFrom (.between, []) tail = some ending)
    (hstatement : ∀ w more, Parser.statement (ts ++ .text w :: more) =
      ((Parser.values (known.flatMap (fun x => [.text x, .symbol ',']) ++ .text w :: more)).bind
      fun x =>
        Parser.complete (.insert table (some names) x.1) x.2).map Statement.command)
    (hparse : parse text = some (.command c)) :
    ∃ w vs, c = .insert table (some names) (known.map Value.text ++ .text w :: vs) ∧
      w.length ≤ t.length ∧
      (w = t → Literal t.toList) := by
  have hchars : text.toList = before.toList ++ (t.toList ++ quote :: tail) := by
    rw [htext, String.toList_append, String.toList_append, String.toList_ofList, List.append_assoc]
  obtain ⟨w, more, hst, hle, hliteral, -⟩ := parse_spliced h hchars htail hending hparse
  rw [hstatement] at hst
  obtain ⟨c', hst, hc'⟩ := Option.map_eq_some_iff.mp hst
  cases hc'
  obtain ⟨⟨values, rest⟩, hvalues, hover⟩ := Option.bind_eq_some_iff.mp hst
  obtain ⟨vs, rfl⟩ := Parser.values_known known hvalues
  cases rest with
  | nil => exact ⟨w, vs, (Option.some.inj hover).symm, hle, hliteral⟩
  | cons token rest => cases hover

end PickUpLight.Sql
