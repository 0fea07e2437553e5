import PickUpLight.Sql.Lexer

/-!
# Statements

The statements the developments read, and the parser for them: insertions of literals and of the
current time, deletions and updates by columns with given numbers, and selections, with an
order and a limit, with two counts, and with the union of two of them. A text that is anything
else is no statement here.
-/

namespace PickUpLight.Sql

/-- A condition on a row: a column equals an unquoted number. -/
structure Test where
  column : String
  number : String
  deriving DecidableEq, Repr

/-- A value that is inserted. -/
inductive Value where
  /-- A literal. -/
  | text (s : String)
  /-- `(select now())`. -/
  | now
  deriving DecidableEq, Repr

/-- A statement that changes a table. Without tests, it is about all rows. -/
inductive Command where
  | insert (table : String) (columns : Option (List String)) (values : List Value)
  | delete (table : String) (tests : List Test)
  | update (table column value : String) (tests : List Test)
  deriving DecidableEq, Repr

/-- Rows of a table. -/
structure Source where
  table : String
  tests : List Test
  deriving DecidableEq, Repr

/-- A query. -/
inductive Query where
  /-- Rows of a table, in descending order of a column, from an offset on and up to a number. -/
  | rows (columns : Option (List String)) (source : Source) (order : Option String)
      (limit : Option (ℕ × ℕ))
  /-- How many values a column has, and whether there are so many rows. -/
  | counts (column : String) (source : Source) (times : ℕ) (source' : Source)
  /-- The rows of both, without those that are there already, in descending order of a column. -/
  | union (source source' : Source) (order : String)
  deriving DecidableEq, Repr

/-- A statement. -/
inductive Statement where
  | command (c : Command)
  | query (q : Query)
  deriving DecidableEq, Repr

namespace Parser

/-- Keywords are read in either case. -/
def isWord (k w : String) : Bool := w.toList.map Char.toLower == k.toList

/-- The rest of the tokens, after a keyword. -/
def keyword (k : String) : List Token → Option (List Token)
  | .word w :: rest => if isWord k w then some rest else none
  | _ => none

/-- The rest of the tokens, after a symbol. -/
def symbol (c : Char) : List Token → Option (List Token)
  | .symbol d :: rest => if d = c then some rest else none
  | _ => none

/-- A name. -/
def name : List Token → Option (String × List Token)
  | .word w :: rest => some (w, rest)
  | _ => none

/-- The value of an unquoted number. -/
def value (digits : String) : ℕ := Nat.ofDigitChars 10 digits.toList 0

def number : List Token → Option (ℕ × List Token)
  | .number s :: rest => some (value s, rest)
  | _ => none

/-- What is left is nothing. -/
def complete {α : Type} (a : α) : List Token → Option α
  | [] => some a
  | _ :: _ => none

/-- Names with commas between them. -/
def names : List Token → Option (List String × List Token)
  | .word w :: .symbol ',' :: rest => (names rest).map fun (ns, rest) => (w :: ns, rest)
  | .word w :: rest => some ([w], rest)
  | _ => none

/-- Values with commas between them, up to a bracket. -/
def values : List Token → Option (List Value × List Token)
  | .text s :: .symbol ',' :: rest =>
    (values rest).map fun (vs, rest) => (.text s :: vs, rest)
  | .text s :: .symbol ')' :: rest => some ([.text s], rest)
  | .symbol '(' :: .word w :: .word n :: .symbol '(' :: .symbol ')' :: .symbol ')' :: .symbol ',' ::
    rest =>
    if isWord "select" w && isWord "now" n then (values rest).map fun (vs, rest) =>
      (.now :: vs, rest)
    else none
  | .symbol '(' :: .word w :: .word n :: .symbol '(' :: .symbol ')' :: .symbol ')' :: .symbol ')' ::
    rest =>
    if isWord "select" w && isWord "now" n then some ([.now], rest) else none
  | _ => none

/-- Tests with `and` between them. -/
def tests : List Token → Option (List Test × List Token)
  | .word c :: .symbol '=' :: .number n :: .word a :: rest =>
    if isWord "and" a then
      (tests rest).map fun (ts, rest) => (⟨c, n⟩ :: ts, rest)
    else some ([⟨c, n⟩], .word a :: rest)
  | .word c :: .symbol '=' :: .number n :: rest => some ([⟨c, n⟩], rest)
  | _ => none

/-- The tests after `where`; none without it. -/
def conditions (tokens : List Token) : Option (List Test × List Token) :=
  match keyword "where" tokens with
  | some rest => tests rest
  | none => some ([], tokens)

/-- A table and the tests. -/
def source (tokens : List Token) : Option (Source × List Token) := do
  let (table, rest) ← name (← keyword "from" tokens)
  let (ts, rest) ← conditions rest
  pure (⟨table, ts⟩, rest)

/-- The column after `order by`. -/
def order (tokens : List Token) : Option (Option String × List Token) :=
  match keyword "order" tokens with
  | some rest => do
    let (column, rest) ← name (← keyword "by" rest)
    pure (some column, ← keyword "desc" rest)
  | none => some (none, tokens)

/-- The offset and the number after `limit`. -/
def limit (tokens : List Token) : Option (Option (ℕ × ℕ) × List Token) :=
  match keyword "limit" tokens with
  | some rest => do
    let (offset, rest) ← number rest
    let (num, rest) ← number (← symbol ',' rest)
    pure (some (offset, num), rest)
  | none => some (none, tokens)

/-- A selection, after its columns. -/
def selection (columns : Option (List String)) (tokens : List Token) : Option Query := do
  let (s, rest) ← source tokens
  let (column, rest) ← order rest
  let (range, rest) ← limit rest
  complete (.rows columns s column range) rest

/-- `select * from (select * from … union select * from …) as t order by …`, from the bracket on. -/
def union (tokens : List Token) : Option Query := do
  let (s, rest) ← source (← symbol '*' (← keyword "select" (← symbol '(' tokens)))
  let (s', rest) ← source (← symbol '*' (← keyword "select" (← keyword "union" rest)))
  let (_, rest) ← name (← keyword "as" (← symbol ')' rest))
  match ← order rest with
  | (some column, rest) => complete (.union s s' column) rest
  | (none, _) => none

/-- `select count(distinct …),(select if(count(*)=…,true,false) from …) from …`, from the bracket
on. -/
def counts (tokens : List Token) : Option Query := do
  let (column, rest) ← name (← keyword "distinct" (← symbol '(' tokens))
  let rest ← symbol '(' (← symbol ',' (← symbol ')' rest))
  let rest ← symbol '('
    (← keyword "count" (← symbol '(' (← keyword "if" (← keyword "select" rest))))
  let (times, rest) ← number (← symbol '=' (← symbol ')' (← symbol '*' rest)))
  let rest ← symbol ',' (← keyword "true" (← symbol ',' rest))
  let (s', rest) ← source (← symbol ')' (← keyword "false" rest))
  let (s, rest) ← source (← symbol ')' rest)
  complete (.counts column s times s') rest

/-- A query, after `select`. -/
def query (tokens : List Token) : Option Query :=
  match tokens with
  | .symbol '*' :: .word f :: .symbol '(' :: rest =>
    if isWord "from" f then union (.symbol '(' :: rest) else none
  | .symbol '*' :: rest => selection none rest
  | .word c :: .symbol '(' :: rest =>
    if isWord "count" c then counts (.symbol '(' :: rest) else none
  | tokens => do
    let (columns, rest) ← names tokens
    selection (some columns) rest

/-- The columns of an insertion, if it names them. -/
def columns (tokens : List Token) : Option (Option (List String) × List Token) :=
  match symbol '(' tokens with
  | some rest => do
    let (cs, rest) ← names rest
    pure (some cs, ← symbol ')' rest)
  | none => some (none, tokens)

/-- An insertion, after `insert`. -/
def insertion (tokens : List Token) : Option Command := do
  let (table, rest) ← name (← keyword "into" tokens)
  let (cs, rest) ← columns rest
  let (vs, rest) ← values (← symbol '(' (← keyword "values" rest))
  complete (.insert table cs vs) rest

/-- A deletion, after `delete`. -/
def deletion (tokens : List Token) : Option Command := do
  let (s, rest) ← source tokens
  complete (.delete s.table s.tests) rest

/-- An update, after `update`. -/
def change (tokens : List Token) : Option Command := do
  let (table, rest) ← name tokens
  let (column, rest) ← name (← keyword "set" rest)
  match ← symbol '=' rest with
  | .text s :: rest => do
    let (ts, rest) ← conditions rest
    complete (.update table column s ts) rest
  | _ => none

/-- The statement of some tokens. -/
def statement : List Token → Option Statement
  | .word w :: rest =>
    if isWord "insert" w then (insertion rest).map .command
    else if isWord "delete" w then (deletion rest).map .command
    else if isWord "update" w then (change rest).map .command
    else if isWord "select" w then (query rest).map .query
    else none
  | _ => none

/-! ### Texts in statements -/

variable {tokens rest : List Token} {w : String}

/-- A text among values is one of them. -/
theorem values_text {vs : List Value} (h : values (.text w :: tokens) = some (vs, rest)) :
    ∃ vs', vs = .text w :: vs' := by
  unfold values at h
  split at h
  · obtain ⟨⟨vs', rest'⟩, -, h⟩ := Option.map_eq_some_iff.mp h
    rename_i heq _
    cases heq
    cases h
    exact ⟨vs', rfl⟩
  · rename_i heq
    cases heq
    cases h
    exact ⟨[], rfl⟩
  · rename_i heq
    cases heq
  · rename_i heq
    cases heq
  · cases h

theorem values_comma (s : String) : values (.text s :: .symbol ',' :: rest) =
    (values rest).map fun (vs, rest) => (.text s :: vs, rest) := by
  rw [values]

/-- The values of an insertion go on with the text that is read. -/
theorem values_known {vs : List Value} {more : List Token} (xs : List String)
    (h : values (xs.flatMap (fun x => [.text x, .symbol ',']) ++ .text w :: more) =
      some (vs, rest)) :
    ∃ vs', vs = xs.map Value.text ++ .text w :: vs' := by
  induction xs generalizing vs with
  | nil => exact values_text h
  | cons x xs ih =>
    rw [List.flatMap_cons, List.append_assoc, List.cons_append, List.singleton_append,
      values_comma] at h
    obtain ⟨⟨vs', rest'⟩, h', h⟩ := Option.map_eq_some_iff.mp h
    cases h
    obtain ⟨vs'', rfl⟩ := ih h'
    exact ⟨vs'', rfl⟩

/-- There is no text in tests. -/
theorem text_not_mem_tests {ts : List Test} (h : tests tokens = some (ts, rest))
    (hw : Token.text w ∈ tokens) :
    Token.text w ∈ rest := by
  induction tokens using tests.induct generalizing ts rest with
  | case1 c n a tokens hand ih =>
    rw [tests, if_pos hand] at h
    obtain ⟨⟨ts', rest'⟩, h', h⟩ := Option.map_eq_some_iff.mp h
    cases h
    exact ih h' (by simpa using hw)
  | case2 c n a tokens hand =>
    rw [tests, if_neg hand] at h
    cases h
    simpa using hw
  | case3 c n tokens hnot =>
    rw [tests] at h
    · cases h
      simpa using hw
    · exact hnot
  | case4 tokens hnot hnot' =>
    rw [tests] at h
    · cases h
    · exact hnot
    · exact hnot'

/-- There is no text in conditions. -/
theorem text_not_mem_conditions {ts : List Test} (h : conditions tokens = some (ts, rest))
    (hw : Token.text w ∈ tokens) : Token.text w ∈ rest := by
  unfold conditions at h
  split at h
  · rename_i tokens' hwhere
    refine text_not_mem_tests h ?_
    unfold keyword at hwhere
    split at hwhere
    · split_ifs at hwhere
      cases hwhere
      simpa using hw
    · cases hwhere
  · cases h
    exact hw

end Parser

/-- **The statement of a text.** -/
def parse (text : String) : Option Statement := (lex text).bind Parser.statement

end PickUpLight.Sql
