import PickUpLight.Control.Effects
import PickUpLight.Theory.Threads

/-!
# The database behind the handlers

Handlers on different threads give their statements to one database, which runs each of them
atomically. The tables are rows with numbers; what a statement's text makes of them is
the database's affair, so a `Database` is a parameter. Of it only the form is fixed: a
query answers rows or fails, and any other statement inserts, deletes or changes rows of
the table it names.
-/

namespace PickUpLight.Store

open PickUpLight.Theory PickUpLight.Control

/-- The tables. -/
structure Tables where
  /-- The rows of each. -/
  rows : Table → List Row
  /-- The number the next row gets. -/
  next : ℕ

/-- What a statement does to its table. -/
inductive Change where
  /-- It inserts rows. -/
  | insert (rows : List (List String))
  /-- It deletes the rows that meet a condition. -/
  | delete (meets : Row → Bool)
  /-- It gives rows new cells. -/
  | update (cells : Row → List String)

/-- No change. -/
def Change.nothing : Change := .insert []

/-- Rows that are inserted, with numbers from `next` on. -/
def numbered (next : ℕ) (rows : List (List String)) : List Row :=
  rows.zipIdx.map fun (cells, i) => { number := next + i, cells := cells }

/-- The tables after a change of one of them. -/
def Tables.apply (t : Tables) (table : Table) : Change → Tables
  | .insert rows =>
    { rows := Function.update t.rows table (t.rows table ++ numbered t.next rows)
      next := t.next + rows.length }
  | .delete meets =>
    let rows := (t.rows table).filter fun row => !meets row
    { t with rows := Function.update t.rows table rows }
  | .update cells =>
    let rows := (t.rows table).map fun row => { row with cells := cells row }
    { t with rows := Function.update t.rows table rows }

@[simp] theorem Tables.apply_nothing (t : Tables) (table : Table) : t.apply table .nothing = t := by
  simp [Change.nothing, Tables.apply, numbered]

/-- **A database**: what it does with the text of a statement, in tables, when it meets `h`. -/
structure Database (H : Type) where
  /-- The answer to a query. -/
  store : Tables → H → String → Option (List Row)
  /-- The effect of any other statement, and whether it reports success. -/
  execute : Tables → H → String → Change × Bool

/-- What an effect meets: the database, or anything else, and its answer is left open. -/
structure Meeting (H : Type) where
  /-- What a statement meets. -/
  db : H
  /-- The answers of everything else. -/
  answer : (e : Effect) → e.Answer

variable {H : Type}

/-- An effect of a handler, and its answer. -/
def Database.perform (db : Database H) (t : Tables) (e : Effect) (h : Meeting H) :
    Tables × e.Answer :=
  match e with
  | .query_store command => (t, db.store t h.db command.text)
  | .query_execute command =>
    let (change, ok) := db.execute t h.db command.text
    match command.changes with
    | some table => (t.apply table change, ok)
    | none => (t, ok)
  | e => (t, h.answer e)

section Perform

variable {db : Database H} {t : Tables} {h : Meeting H} {command : Command}

theorem Database.perform_store {rows : Option (List Row)}
    (hr : db.store t h.db command.text = rows) :
    db.perform t (.query_store command) h = (t, rows) := by
  rw [← hr]
  rfl

theorem Database.perform_execute {table : Table} {change : Change} {ok : Bool}
    (hc : command.changes = some table) (hr : db.execute t h.db command.text = (change, ok)) :
    db.perform t (.query_execute command) h = (t.apply table change, ok) := by
  simp only [Database.perform, hr, hc]

end Perform

/-- An entry of the history of handlers. -/
abbrev Entry := ℕ × (e : Effect) × e.Answer

/-- Handlers that share the tables. -/
abbrev Handlers := Threads Tables Effect Effect.Answer Unit

/-- **All interleavings of handlers.** -/
abbrev Database.handlers (db : Database H) : Machine Handlers (ℕ × Meeting H) :=
  interleave db.perform

/-- Handlers that start. -/
def Handlers.start (t : Tables) (handlers : List (Handler Unit)) : Handlers where
  store := t
  threads := handlers
  log := []

/-- Empty tables, as `initDataBase` creates them. -/
def initDataBase : Tables where
  rows := fun _ => []
  next := 0

/-- What effects meet when all goes well. -/
def calm {H : Type} (db : H) : Meeting H where
  db := db
  answer
    | .query_store _ => none
    | .query_execute _ | .send _ | .sendFile _ | .sendNoFile => true
    | .nextId => some 1
    | .set_0 | .add_userId _ | .removeFile _ => true
    | .stat _ => none
    | .readFile _ _ => none
    | .writeFile _ _ | .addLive _ _ | .removeLive _ => ()
    | .getLiveList => []

end PickUpLight.Store
