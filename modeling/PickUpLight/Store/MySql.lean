import PickUpLight.Sql.Meaning
import PickUpLight.Sql.Template
import PickUpLight.Store.Database

/-!
# A database that follows SQL

`initDataBase` (`dbbroker.cpp`) creates the tables; none of them has a key. A database `Obeys` SQL
if it does with the statements it is given what they mean on these tables, or fails and leaves the
tables as they are. What it does with other texts is open, and so is which digit strings it takes to
be equal to a number; it `Follows` SQL if those are the ones with its value. `mysqlWith` is one,
which can be computed: it reads the statements and executes them.
-/

namespace PickUpLight.Control

open PickUpLight.Sql

/-! ### The tables -/

def Table.all : List Table :=
  [.Video, .User, .Message, .Comment, .VideoLike, .CommentLike, .Follow, .VideoPush]

def Table.name : Table → String
  | .Video => "Video"
  | .User => "User"
  | .Message => "Message"
  | .Comment => "Comment"
  | .VideoLike => "VideoLike"
  | .CommentLike => "CommentLike"
  | .Follow => "Follow"
  | .VideoPush => "VideoPush"

def Table.columns : Table → List Column
  /- 点播视频信息 -/
  | .Video =>
    [⟨"id", .varchar 30⟩, ⟨"publisherId", .varchar 30⟩, ⟨"videoSuffix", .varchar 20⟩,
      ⟨"profile", .varchar 500⟩, ⟨"previewSuffix", .varchar 20⟩, ⟨"time", .datetime⟩]
  /- 用户信息 -/
  | .User =>
    [⟨"id", .varchar 30⟩, ⟨"pw", .varchar 30⟩, ⟨"nickName", .varchar 30⟩,
      ⟨"pictureSuffix", .varchar 20⟩]
  /- 聊天记录 -/
  | .Message =>
    [⟨"sendId", .varchar 30⟩, ⟨"receiveId", .varchar 30⟩, ⟨"messageType", .int⟩,
      ⟨"message", .varchar 500⟩, ⟨"time", .datetime⟩]
  /- 评论 -/
  | .Comment =>
    [⟨"id", .varchar 30⟩, ⟨"replyCommentId", .varchar 30⟩, ⟨"publisherId", .varchar 30⟩,
      ⟨"videoId", .varchar 30⟩, ⟨"content", .varchar 500⟩, ⟨"time", .datetime⟩]
  /- 点播视频点赞 -/
  | .VideoLike => [⟨"videoId", .varchar 30⟩, ⟨"userId", .varchar 30⟩]
  /- 评论点赞 -/
  | .CommentLike => [⟨"commentId", .varchar 30⟩, ⟨"userId", .varchar 30⟩]
  /- 关注 -/
  | .Follow => [⟨"userId", .varchar 30⟩, ⟨"followerId", .varchar 30⟩]
  /- 视频推送 -/
  | .VideoPush => [⟨"userId", .varchar 30⟩, ⟨"videoId", .varchar 30⟩]

end PickUpLight.Control

namespace PickUpLight.Store

open PickUpLight.Theory PickUpLight.Control PickUpLight.Sql

/-- The tables as `initDataBase` creates them. -/
def schema : Schema := Table.all.map fun table => (table.name, table.columns)

def tableOf (name : String) : Option Table := Table.all.find? fun table => table.name = name

@[simp] theorem tableOf_name (table : Table) : tableOf table.name = some table := by
  cases table <;> rfl

@[simp] theorem columns_name (table : Table) : schema.columns table.name = .does table.columns := by
  cases table <;> rfl

/-- The rows of a table, without their numbers. -/
def Tables.cells (t : Tables) (table : Table) : List Cells := (t.rows table).map Row.cells

/-- The rows of the table with a name. -/
def Tables.contents (t : Tables) (name : String) : List Cells :=
  match tableOf name with
  | some table => t.cells table
  | none => []

/-- What becomes of the rows of a table. -/
def changeOf : Edit → Change
  | .insert cells => .insert [cells]
  | .delete meets => .delete fun row => meets row.cells
  | .update cells => .update fun row => cells row.cells

section Cells

variable (t : Tables) (table : Table)

theorem Tables.cells_insert (cells : Cells) :
    (t.apply table (changeOf (.insert cells))).cells table = t.cells table ++ [cells] := by
  simp [Tables.cells, Tables.apply, changeOf, numbered]

theorem Tables.cells_delete (meets : Cells → Bool) :
    (t.apply table (changeOf (.delete meets))).cells table = (t.cells table).filter fun cells =>
      !meets cells := by
  simp only [Tables.cells, Tables.apply, changeOf, Function.update_self, List.filter_map]
  rfl

theorem Tables.cells_update (f : Cells → Cells) :
    (t.apply table (changeOf (.update f))).cells table = (t.cells table).map f := by
  simp [Tables.cells, Tables.apply, changeOf]

variable {t table}

/-- The other tables stay as they are. -/
theorem Tables.rows_apply_ne {table' : Table} (h : table' ≠ table) (change : Change) :
    (t.apply table change).rows table' = t.rows table' := by
  cases change <;> exact Function.update_of_ne h _ _

theorem Tables.cells_apply_ne {table' : Table} (h : table' ≠ table) (change : Change) :
    (t.apply table change).cells table' = t.cells table' := by
  rw [Tables.cells, Tables.rows_apply_ne h, Tables.cells]

end Cells

variable {H : Type}

/-! ### SQL -/

/-- **A database that obeys SQL**, with the time of `now()`, and with what it takes a cell and an
unquoted number to be equal by. -/
structure Database.Obeys (db : Database H) (now : H → String) (equals : String → String → Bool) :
    Prop where
  /-- A command does what it means, or fails. -/
  executes : ∀ t h text c name edit table, parse text = some (.command c) →
    c.edit schema equals (now h) = .does (name, edit) → tableOf name = some table →
      ∃ change ok, db.execute t h text = (change, ok) ∧
        t.apply table change = if ok then t.apply table (changeOf edit) else t
  /-- A command that means nothing fails. -/
  refuses : ∀ t h text c, parse text = some (.command c) → c.edit schema equals (now h) = .fails →
    db.execute t h text = (.nothing, false)
  /-- A query has an answer, or fails. -/
  answers : ∀ t h text q A, parse text = some (.query q) →
    q.answers schema equals t.contents = .does A →
      db.store t h text = none ∨ ∃ rows, db.store t h text = some rows ∧ A (rows.map Row.cells)

/-- **A database that follows SQL** on ids whose comparison is exact. -/
structure Database.Follows (db : Database H) (now : H → String) (equals : String → String → Bool) :
    Prop
    extends db.Obeys now equals where
  /-- Numbers are compared by their values. -/
  numeric : Numeric equals

/-- **The server can be reached**: what means something is done, what has answers is answered. -/
structure Database.Up (db : Database H) (now : H → String) (equals : String → String → Bool)
    (h : H) : Prop where
  executes : ∀ t text c name edit, parse text = some (.command c) →
    c.edit schema equals (now h) = .does (name, edit) → (db.execute t h text).2 = true
  answers : ∀ t text q A, parse text = some (.query q) →
    q.answers schema equals t.contents = .does A → db.store t h text ≠ none

section Obeys

variable {db : Database H} {now : H → String} {equals : String → String → Bool} {t : Tables}
  {m : Meeting H}
  {command : Control.Command} {table : Table}

/-- **What a statement of a handler does** to its table. -/
theorem Database.Obeys.perform (hdb : db.Obeys now equals) {c : Sql.Command} {edit : Edit}
    (hc : command.changes = some table) (hparse : parse command.text = some (.command c))
    (hedit : c.edit schema equals (now m.db) = .does (table.name, edit)) :
    ∃ ok, db.perform t (.query_execute command) m =
      (if ok then t.apply table (changeOf edit) else t, ok) := by
  obtain ⟨change, ok, hexec, happly⟩ :=
    hdb.executes t m.db command.text c table.name edit table hparse hedit (tableOf_name table)
  refine ⟨ok, ?_⟩
  rw [Database.perform_execute hc hexec, happly]

/-- A statement that is refused. -/
theorem Database.Obeys.perform_fails (hdb : db.Obeys now equals) {c : Sql.Command}
    (hc : command.changes = some table) (hparse : parse command.text = some (.command c))
    (hedit : c.edit schema equals (now m.db) = .fails) :
    db.perform t (.query_execute command) m = (t, false) := by
  have hexec := hdb.refuses t m.db command.text c hparse hedit
  rw [Database.perform_execute hc hexec, Tables.apply_nothing]

/-- A statement that is executed. -/
theorem Database.Obeys.perform_up (hdb : db.Obeys now equals) (hup : db.Up now equals m.db)
    {c : Sql.Command} {edit : Edit} (hc : command.changes = some table)
    (hparse : parse command.text = some (.command c))
    (hedit : c.edit schema equals (now m.db) = .does (table.name, edit)) :
    db.perform t (.query_execute command) m = (t.apply table (changeOf edit), true) := by
  obtain ⟨ok, hperform⟩ := hdb.perform (t := t) hc hparse hedit
  have hok : (db.perform t (.query_execute command) m).2 = (db.execute t m.db command.text).2 := by
    rw [Database.perform_execute hc rfl]
  have hok : ok = true := by
    rw [hperform, hup.executes t _ c table.name edit hparse hedit] at hok
    exact hok
  rw [hperform, hok, if_pos rfl]

/-- A query that is answered. -/
theorem Database.Obeys.query_up (hdb : db.Obeys now equals) (hup : db.Up now equals m.db)
    {q : Query} {A : List Cells → Prop} (hparse : parse command.text = some (.query q))
    (hA : q.answers schema equals t.contents = .does A) :
    ∃ rows, db.store t m.db command.text = some rows ∧ A (rows.map Row.cells) :=
  (hdb.answers t m.db command.text q A hparse hA).resolve_left (hup.answers t _ q A hparse hA)

/-- What a query of a handler answers. -/
theorem Database.Obeys.query (hdb : db.Obeys now equals) {q : Query} {A : List Cells → Prop}
    (hparse : parse command.text = some (.query q))
    (hA : q.answers schema equals t.contents = .does A) {rows : List Row}
    (hrows : db.store t m.db command.text = some rows) : A (rows.map Row.cells) := by
  rcases hdb.answers t m.db command.text q A hparse hA with hnone | ⟨found, hfound, hA⟩
  · rw [hnone] at hrows
    cases hrows
  · rw [hfound] at hrows
    cases hrows
    exact hA

end Obeys

/-! ### A database -/

/-- Digit strings are equal to numbers of the same value. -/
def equalNumbers (cell n : String) : Bool :=
  isNumber cell && isNumber n && value cell == value n

theorem numeric_equalNumbers : Numeric equalNumbers := by
  intro cell n hcell hn
  simp only [equalNumbers, isNumber_iff.mpr hcell, isNumber_iff.mpr hn, Bool.true_and, beq_iff_eq]

/-- The double that is nearest to a number: 53 bits of it, and the even one of two that are as
near. -/
def nearestDouble (n : ℕ) : ℕ :=
  let unit := 2 ^ (n.log2 - 52)
  let significand := n / unit
  let rest := n % unit
  if unit < 2 * rest ∨ unit = 2 * rest ∧
    significand % 2 = 1 then (significand + 1) * unit else significand * unit

/-- The server compares a text with an unquoted number as doubles, so that digit strings of more
than 53 bits are equal to numbers near theirs. -/
def equalDoubles (cell n : String) : Bool :=
  isNumber cell && isNumber n && nearestDouble (value cell) == nearestDouble (value n)

theorem equalDoubles_self {n : String} (hn : IsNumber n) : equalDoubles n n = true := by
  simp only [equalDoubles, isNumber_iff.mpr hn, Bool.true_and, beq_self_eq_true]

/-- Two ids that `nextId` gives within a millisecond. -/
example : equalDoubles "1057863532969590784" "1057863532969590785" = true := by decide +kernel

/-- What a server is in when it is given a statement. -/
structure Moment where
  /-- It can be reached. -/
  up : Bool
  /-- The time. -/
  now : String

section MySql

variable (equals : String → String → Bool)

/-- **A database that reads and executes statements**, with what it takes a cell and a number to be
equal by. -/
def mysqlWith : Database Moment where
  store t h text :=
    if h.up then
      match parse text with
      | some (.query q) =>
        match q.answer schema equals t.contents with
        | .does rows => some (rows.map fun cells => { number := 0, cells := cells })
        | _ => none
      | _ => none
    else none
  execute _ h text :=
    if h.up then
      match parse text with
      | some (.command c) =>
        match c.edit schema equals h.now with
        | .does (_, edit) => (changeOf edit, true)
        | _ => (.nothing, false)
      | _ => (.nothing, false)
    else (.nothing, false)

theorem mysqlWith_obeys : (mysqlWith equals).Obeys Moment.now equals where
  executes t h text c name edit table hparse hedit _ := by
    cases hup : h.up with
    | false =>
      refine ⟨.nothing, false, ?_, Tables.apply_nothing t table⟩
      simp only [mysqlWith, hup, Bool.false_eq_true, if_false]
    | true =>
      refine ⟨changeOf edit, true, ?_, rfl⟩
      simp only [mysqlWith, hup, if_true, hparse, hedit]
  refuses t h text c hparse hedit := by
    simp only [mysqlWith, hparse, hedit, ite_self]
  answers t h text q A hparse hA := by
    obtain ⟨rows, hanswer, hrows⟩ := q.answer_of_answers hA
    cases hup : h.up with
    | false =>
      left
      simp only [mysqlWith, hup, Bool.false_eq_true, if_false]
    | true =>
      right
      refine ⟨rows.map fun cells => { number := 0, cells := cells }, ?_, ?_⟩
      · simp only [mysqlWith, hup, if_true, hparse, hanswer]
      · rw [List.map_map]
        exact (List.map_id rows).symm ▸ hrows

variable {equals}

/-- A query that has answers is answered by a server that can be reached. -/
theorem mysql_store_ne_none {t : Tables} {h : Moment} {text : String} {q : Query}
    {A : List Cells → Prop} (hup : h.up = true) (hparse : parse text = some (.query q))
    (hA : q.answers schema equals t.contents = .does A) :
    (mysqlWith equals).store t h text ≠ none := by
  obtain ⟨rows, hanswer, -⟩ := q.answer_of_answers hA
  simp only [mysqlWith, hup, if_true, hparse, hanswer]
  exact Option.some_ne_none _

theorem mysql_up {h : Moment} (hup : h.up = true) : (mysqlWith equals).Up Moment.now equals h where
  executes t text c name edit hparse hedit := by simp only [mysqlWith, hup, if_true, hparse, hedit]
  answers t text q A hparse hA := mysql_store_ne_none hup hparse hA

/-- A statement that is executed means something. -/
theorem mysql_perform {t t' : Tables} {m : Meeting Moment} {command : Control.Command}
    {table : Table} (hc : command.changes = some table)
    (h : (mysqlWith equals).perform t (.query_execute command) m = (t', true)) :
    ∃ c name edit, parse command.text = some (.command c) ∧
      c.edit schema equals m.db.now = .does (name, edit) ∧ t' = t.apply table (changeOf edit) := by
  obtain ⟨change, ok, hexec⟩ : ∃ change ok, (mysqlWith equals).execute t m.db command.text =
      (change, ok) :=
    ⟨_, _, rfl⟩
  rw [Database.perform_execute hc hexec, Prod.mk.injEq] at h
  obtain ⟨htables, rfl⟩ := h
  simp only [mysqlWith] at hexec
  split_ifs at hexec
  · split at hexec
    · rename_i c hparse
      split at hexec
      · rename_i name edit hedit
        rw [Prod.mk.injEq] at hexec
        exact ⟨c, name, edit, hparse, hedit, by rw [← htables, ← hexec.1]⟩
      · cases hexec
    · cases hexec
  · cases hexec

end MySql

/-- **A database that reads and executes statements**, on ids whose comparison is exact. -/
abbrev mysql : Database Moment := mysqlWith equalNumbers

theorem mysql_follows : mysql.Follows Moment.now equalNumbers where
  toObeys := mysqlWith_obeys equalNumbers
  numeric := numeric_equalNumbers

end PickUpLight.Store
