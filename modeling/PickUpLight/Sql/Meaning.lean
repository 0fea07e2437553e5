import Mathlib.Data.List.Dedup
import PickUpLight.Sql.Syntax

/-!
# What statements mean

The meaning of a statement on tables of texts: a command edits the rows of one table, a query has
answers. The columns say what is stored: a literal goes into a `varchar` that is long enough as it
is, and into one that is too short not at all (strict mode), unless only blanks are too much. A
column that is not there makes a statement fail. A column equals an unquoted number when their
values do (`Numeric`), so texts that differ can equal the same number. The order of an answer is
only fixed by `order by`, so a query has many answers.

Where this does not say what a server does (other types, names that are none), the meaning is
`unknown`.
-/

namespace PickUpLight.Sql

/-- What is known of the outcome of a statement. -/
inductive Outcome (α : Type) where
  /-- Nothing. -/
  | unknown
  /-- It is refused. -/
  | fails
  /-- It does this, unless the server fails. -/
  | does (a : α)
  deriving DecidableEq, Repr

namespace Outcome

variable {α β : Type}

protected def bind : Outcome α → (α → Outcome β) → Outcome β
  | unknown, _ => unknown
  | fails, _ => fails
  | does a, f => f a

instance : Monad Outcome where
  pure := does
  bind := Outcome.bind

@[simp] theorem does_bind (a : α) (f : α → Outcome β) : (does a >>= f) = f a := rfl

@[simp] theorem pure_eq (a : α) : (pure a : Outcome α) = does a := rfl

theorem bind_eq_does {x : Outcome α} {f : α → Outcome β} {b : β} :
    (x >>= f) = does b ↔ ∃ a, x = does a ∧ f a = does b := by
  constructor
  · intro h
    cases x with
    | unknown => cases h
    | fails => cases h
    | does a => exact ⟨a, rfl, h⟩
  · rintro ⟨a, rfl, h⟩
    exact h

/-- All of a list. -/
def all (f : α → Outcome β) : List α → Outcome (List β)
  | [] => does []
  | a :: as => do
    let b ← f a
    let bs ← all f as
    pure (b :: bs)

/-- A refusal that need not come. -/
def orUnknown : Outcome α → Outcome α
  | fails => unknown
  | o => o

end Outcome

/-- The type of a column. -/
inductive ColumnType where
  | varchar (length : ℕ)
  | int
  | datetime
  deriving DecidableEq, Repr

structure Column where
  name : String
  type : ColumnType
  deriving DecidableEq, Repr

/-- The tables and their columns. -/
abbrev Schema := List (String × List Column)

/-- A row. -/
abbrev Cells := List String

/-- Columns are named in either case. -/
def sameName (a b : String) : Bool := a.toList.map Char.toLower == b.toList.map Char.toLower

namespace Schema

variable (schema : Schema)

/-- The columns of a table. -/
def columns (table : String) : Outcome (List Column) :=
  match schema.find? fun t => t.1 = table with
  | some t => .does t.2
  | none => .unknown

/-- Where a column is. A name that is a column of some other table is one that is missing here. -/
def position (columns : List Column) (name : String) : Outcome ℕ :=
  match columns.findIdx? fun c => sameName c.name name with
  | some i => .does i
  | none => if schema.any fun t => t.2.any fun c => sameName c.name name then .fails else .unknown

/-- Where the column of a test is, and the number. -/
def test (columns : List Column) : Test → Outcome (ℕ × String)
  | ⟨column, number⟩ => do
    let i ← schema.position columns column
    if columns[i]?.map Column.type = some .datetime then .unknown else pure (i, number)

end Schema

/-- The value of a digit string. -/
def value (s : String) : ℕ := Parser.value s

/-- A text has digits only. -/
def isNumber (s : String) : Bool := !s.toList.isEmpty && s.toList.all Char.isDigit

theorem isNumber_iff {s : String} : isNumber s = true ↔ IsNumber s := by
  simp [isNumber, IsNumber]

/-- Cells equal unquoted numbers by their values. -/
def Numeric (equals : String → String → Bool) : Prop :=
  ∀ cell n, IsNumber cell → IsNumber n → (equals cell n = true ↔ value cell = value n)

/-- What a column stores of a value; `now` is the time. -/
def Column.stores (now : String) (c : Column) : Value → Outcome String
  | .text s =>
    match c.type with
    | .varchar n =>
      if s.length ≤ n then .does s
      else if (s.toList.drop n).all fun c => c == ' ' then .does (String.ofList (s.toList.take n))
      else .fails
    | .int => if isNumber s && s.length < 10 then .does (toString (value s)) else .unknown
    | .datetime => .unknown
  | .now =>
    match c.type with
    | .datetime => .does now
    | _ => .unknown

/-- A text goes into a column that is long enough. -/
theorem stores_text {s : String} {n : ℕ} (h : s.length ≤ n) (now name : String) :
    Column.stores now ⟨name, .varchar n⟩ (.text s) = .does s := if_pos h

/-- What an insertion makes of the columns, with the values it has for some. -/
def fill (now : String) (given : List (ℕ × Value)) : ℕ → List Column → Outcome Cells
  | _, [] => .does []
  | i, c :: cs => do
    let cell ← match given.find? fun g => g.1 = i with
      | some g => c.stores now g.2
      | none => .does "NULL"
    let cells ← fill now given (i + 1) cs
    pure (cell :: cells)

/-- What a command does to the rows of its table. -/
inductive Edit where
  | insert (cells : Cells)
  | delete (meets : Cells → Bool)
  | update (cells : Cells → Cells)

/-- A row meets tests. -/
def meets (equals : String → String → Bool) (tests : List (ℕ × String)) (cells : Cells) : Bool :=
  tests.all fun t => equals (cells.getD t.1 "") t.2

theorem meets_singleton {equals : String → String → Bool} {i : ℕ} {n : String} {cells : Cells} :
    meets equals [(i, n)] cells = equals (cells.getD i "") n := by
  rw [meets, List.all_cons, List.all_nil, Bool.and_true]

section Meaning

variable (schema : Schema) (equals : String → String → Bool)

/-- **What a command does**: the table, and its rows. -/
def Command.edit (now : String) : Command → Outcome (String × Edit)
  | .insert table names values => do
    let columns ← schema.columns table
    let positions ← match names with
      | some names => Outcome.all (schema.position columns) names
      | none => .does (List.range columns.length)
    if positions.Nodup ∧ positions.length = values.length then
      let cells ← fill now (positions.zip values) 0 columns
      pure (table, .insert cells)
    else .fails
  | .delete table tests => do
    let columns ← schema.columns table
    let tests ← Outcome.all (schema.test columns) tests
    pure (table, .delete (meets equals tests))
  | .update table column s tests => do
    let columns ← schema.columns table
    let i ← schema.position columns column
    let tests ← Outcome.all (schema.test columns) tests
    match columns[i]? with
    | some c => do
      let cell ← (c.stores now (.text s)).orUnknown
      pure (table, .update fun cells => if meets equals tests cells then cells.set i cell
        else cells)
    | none => .unknown

variable (contents : String → List Cells)

/-- The rows of a table that meet tests, and its columns. -/
def Source.rows : Source → Outcome (List Column × List Cells)
  | ⟨table, tests⟩ => do
    let columns ← schema.columns table
    let tests ← Outcome.all (schema.test columns) tests
    pure (columns, (contents table).filter (meets equals tests))

/-- The column an answer is in the order of; texts of times are in the order of the times. -/
def Schema.ordered (columns : List Column) : Option String → Outcome (Option ℕ)
  | some name => do
    let i ← schema.position columns name
    match columns[i]?.map Column.type with
    | some .datetime => .does (some i)
    | _ => .unknown
  | none => .does none

/-- Rows are in descending order. -/
def Descending : Option ℕ → List Cells → Prop
  | some i, rows => rows.Pairwise fun a b => b.getD i "" ≤ a.getD i ""
  | none, _ => True

/-- The rows from an offset on. -/
def slice (range : Option (ℕ × ℕ)) (rows : List Cells) : List Cells :=
  match range with
  | some (offset, num) => (rows.drop offset).take num
  | none => rows

/-- The columns at some positions, or all. -/
def project (positions : Option (List ℕ)) (cells : Cells) : Cells :=
  match positions with
  | some is => is.map fun i => cells.getD i ""
  | none => cells

/-- Where the columns of a selection are. -/
def Schema.selected (columns : List Column) : Option (List String) → Outcome (Option (List ℕ))
  | some names => do
    let is ← Outcome.all (schema.position columns) names
    pure (some is)
  | none => .does none

/-- **The answers to a query.** -/
def Query.answers : Query → Outcome (List Cells → Prop)
  | .rows names source order range => do
    let (columns, found) ← source.rows schema equals contents
    let positions ← schema.selected columns names
    let key ← schema.ordered columns order
    pure fun answer => ∃ all : List Cells, all.Perm found ∧ Descending key all ∧
      answer = (slice range all).map (project positions)
  | .counts name source times source' => do
    let (columns, found) ← source.rows schema equals contents
    let i ← schema.position columns name
    let (_, found') ← source'.rows schema equals contents
    -- texts that are no numbers can be the same in a collation
    pure fun answer => (∀ row ∈ found, IsNumber (row.getD i "")) →
      answer = [[toString (found.map fun row => row.getD i "").dedup.length,
        if found'.length = times then "1" else "0"]]
  | .union source source' order => do
    let (columns, found) ← source.rows schema equals contents
    let (columns', found') ← source'.rows schema equals contents
    let key ← schema.ordered columns (some order)
    if columns = columns' then
      pure fun answer => answer.Nodup ∧ (∀ row, row ∈ answer ↔ row ∈ found ∨ row ∈ found') ∧
        Descending key answer
    else .unknown

/-- Rows in descending order. -/
def sorted (key : Option ℕ) (rows : List Cells) : List Cells :=
  match key with
  | some i => rows.mergeSort fun a b => decide (b.getD i "" ≤ a.getD i "")
  | none => rows

/-- One answer to a query. -/
def Query.answer : Query → Outcome (List Cells)
  | .rows names source order range => do
    let (columns, found) ← source.rows schema equals contents
    let positions ← schema.selected columns names
    let key ← schema.ordered columns order
    pure ((slice range (sorted key found)).map (project positions))
  | .counts name source times source' => do
    let (columns, found) ← source.rows schema equals contents
    let i ← schema.position columns name
    let (_, found') ← source'.rows schema equals contents
    pure [[toString (found.map fun row => row.getD i "").dedup.length,
      if found'.length = times then "1" else "0"]]
  | .union source source' order => do
    let (columns, found) ← source.rows schema equals contents
    let (columns', found') ← source'.rows schema equals contents
    let key ← schema.ordered columns (some order)
    if columns = columns' then pure (sorted key (found ++ found').dedup) else .unknown

end Meaning

/-! ### Insertions -/

section Insertions

variable {now : String} {given : List (ℕ × Value)} {i : ℕ} {c : Column} {cs : List Column}
  {cell : String}
  {cells : Cells}

theorem fill_given {v : ℕ × Value} (hv : (given.find? fun g => g.1 = i) = some v)
    (hcell : c.stores now v.2 = .does cell) (hcells : fill now given (i + 1) cs = .does cells) :
    fill now given i (c :: cs) = .does (cell :: cells) := by
  rw [fill, hv, hcells]
  simp only [hcell]
  rfl

theorem fill_missing (hv : (given.find? fun g => g.1 = i) = none)
    (hcells : fill now given (i + 1) cs = .does cells) :
    fill now given i (c :: cs) = .does ("NULL" :: cells) := by
  rw [fill, hv, hcells]
  rfl

/-- An insertion that names its columns. -/
theorem Command.edit_insert {schema : Schema} {equals : String → String → Bool} {table : String}
    {names : List String} {values : List Value} {columns : List Column} {positions : List ℕ}
    (hcolumns : schema.columns table = .does columns)
    (hpositions : Outcome.all (schema.position columns) names = .does positions)
    (hvalues : positions.Nodup ∧ positions.length = values.length)
    (hfill : fill now (positions.zip values) 0 columns = .does cells) :
    (Command.insert table (some names) values).edit schema equals now =
      .does (table, .insert cells) := by
  simp only [Command.edit, hcolumns, hpositions, Outcome.does_bind, if_pos hvalues, hfill]
  rfl

/-- A cell of a row that is inserted is what its column stores. -/
theorem stores_of_fill (h : fill now given i cs = .does cells) {j : ℕ} (hc : cs[j]? = some c)
    {v : ℕ × Value} (hv : (given.find? fun g => g.1 = i + j) = some v) :
    c.stores now v.2 = .does (cells.getD j "") := by
  induction cs generalizing i j cells with
  | nil => cases hc
  | cons c' cs ih =>
    have hsucc : ∀ {cells' : Cells}, fill now given (i + 1) cs = .does cells' → ∀ k, j = k + 1 →
        c.stores now v.2 = .does (cells'.getD k "") := by
      rintro cells' hcells k rfl
      exact ih hcells hc (by rw [← hv, Nat.add_assoc, Nat.add_comm 1])
    rw [fill] at h
    cases hfind : given.find? fun g => g.1 = i with
    | none =>
      rw [hfind] at h
      obtain ⟨cell, -, h⟩ := Outcome.bind_eq_does.mp h
      obtain ⟨cells', hcells, h⟩ := Outcome.bind_eq_does.mp h
      cases h
      cases j with
      | zero =>
        rw [Nat.add_zero, hfind] at hv
        cases hv
      | succ j => exact hsucc hcells j rfl
    | some g =>
      rw [hfind] at h
      obtain ⟨cell, hcell, h⟩ := Outcome.bind_eq_does.mp h
      obtain ⟨cells', hcells, h⟩ := Outcome.bind_eq_does.mp h
      cases h
      cases j with
      | zero =>
        rw [Nat.add_zero, hfind] at hv
        cases hv
        cases hc
        exact hcell
      | succ j => exact hsucc hcells j rfl

/-- What an insertion that names its columns does. -/
theorem Command.edit_insert_eq_does {schema : Schema} {equals : String → String → Bool}
    {table name : String} {names : List String} {values : List Value} {columns : List Column}
    {positions : List ℕ} {edit : Edit} (hcolumns : schema.columns table = .does columns)
    (hpositions : Outcome.all (schema.position columns) names = .does positions)
    (h : (Command.insert table (some names) values).edit schema equals now = .does (name, edit)) :
    positions.length = values.length ∧ ∃ cells, edit = .insert cells ∧
      fill now (positions.zip values) 0 columns = .does cells := by
  simp only [Command.edit, hcolumns, hpositions, Outcome.does_bind] at h
  split_ifs at h with hvalues
  obtain ⟨cells, hfill, h⟩ := Outcome.bind_eq_does.mp h
  cases h
  exact ⟨hvalues.2, cells, rfl, hfill⟩

end Insertions

/-! ### Answers -/

theorem sorted_perm (key : Option ℕ) (rows : List Cells) : (sorted key rows).Perm rows := by
  cases key with
  | none => exact List.Perm.refl _
  | some i => exact List.mergeSort_perm _ _

theorem descending_sorted (key : Option ℕ) (rows : List Cells) :
    Descending key (sorted key rows) := by
  cases key with
  | none => trivial
  | some i =>
    have hsorted := @List.pairwise_mergeSort Cells (fun a b => decide (b.getD i "" ≤ a.getD i ""))
      (fun a b c hab hbc => decide_eq_true
        (String.le_trans (of_decide_eq_true hbc) (of_decide_eq_true hab)))
      (fun a b => by
        rw [Bool.or_eq_true, decide_eq_true_iff, decide_eq_true_iff]
        exact String.le_total _ _) rows
    exact hsorted.imp fun h => of_decide_eq_true h

/-- **Every query that has answers has this one.** -/
theorem Query.answer_of_answers {schema : Schema} {equals : String → String → Bool}
    {contents : String → List Cells} {q : Query} {A : List Cells → Prop}
    (h : q.answers schema equals contents = .does A) :
    ∃ rows, q.answer schema equals contents = .does rows ∧ A rows := by
  cases q with
  | rows names source order range =>
    simp only [Query.answers, Outcome.bind_eq_does] at h
    obtain ⟨⟨columns, rows⟩, hrows, positions, hpositions, key, hkey, h⟩ := h
    cases h
    refine ⟨(slice range (sorted key rows)).map (project positions), ?_, ?_⟩
    · simp only [Query.answer, hrows, hpositions, hkey, Outcome.does_bind, Outcome.pure_eq]
    · exact ⟨sorted key rows, sorted_perm key rows, descending_sorted key rows, rfl⟩
  | counts name source times source' =>
    simp only [Query.answers, Outcome.bind_eq_does] at h
    obtain ⟨⟨columns, rows⟩, hrows, i, hi, ⟨columns', rows'⟩, hrows', h⟩ := h
    cases h
    refine ⟨_, ?_, fun _ => rfl⟩
    simp only [Query.answer, hrows, hi, hrows', Outcome.does_bind, Outcome.pure_eq]
  | union source source' order =>
    simp only [Query.answers, Outcome.bind_eq_does] at h
    obtain ⟨⟨columns, rows⟩, hrows, ⟨columns', rows'⟩, hrows', key, hkey, h⟩ := h
    split at h
    · rename_i hcolumns
      cases h
      refine ⟨sorted key (rows ++ rows').dedup, ?_, ?_, ?_, descending_sorted key _⟩
      · simp only [Query.answer, hrows, hrows', hkey, Outcome.does_bind, Outcome.pure_eq,
          if_pos hcolumns]
      · exact (sorted_perm key _).nodup_iff.mpr (List.nodup_dedup _)
      · intro row
        rw [(sorted_perm key _).mem_iff, List.mem_dedup, List.mem_append]
    · cases h

end PickUpLight.Sql
