import PickUpLight.Store.MySql

/-!
# Tables and files

What a handler leaves behind: the tables, and the files. A file is written from its start, as
`ofstream` does, as far as it can be; nothing is written if it cannot be opened. `remove` takes a
file away or fails.
-/

namespace PickUpLight.Store

open PickUpLight.Theory PickUpLight.Control PickUpLight.Wire

/-- The machine a server runs on. -/
structure Host where
  tables : Tables
  /-- The files, by path. -/
  files : String → Option (List UInt8)

/-- What an effect meets. -/
structure Incident (H : Type) where
  /-- What anything but a file meets. -/
  meeting : Meeting H
  /-- How many bytes of a file are written, none if it cannot be opened. -/
  written : Option ℕ

namespace Host

variable (s : Host)

/-- `ofstream`, `write` and `close`. -/
def write (path : String) (data : List UInt8) : Option ℕ → Host
  | some n => { s with files := Function.update s.files path (some (data.take n)) }
  | none => s

/-- `remove`, which fails where there is no file. -/
def remove (path : String) (ok : Bool) : Host × Bool :=
  if ok = true ∧ (s.files path).isSome then
    ({ s with files := Function.update s.files path none }, true)
  else (s, false)

variable {s} {path : String}

theorem files_write_self (data : List UInt8) (written : Option ℕ) :
    (s.write path data written).files path = match written with
      | some n => some (data.take n)
      | none => s.files path := by
  cases written with
  | some n => exact Function.update_self ..
  | none => rfl

@[simp] theorem tables_write (data : List UInt8) (written : Option ℕ) :
    (s.write path data written).tables = s.tables := by
  cases written <;> rfl

@[simp] theorem tables_remove (ok : Bool) : (s.remove path ok).1.tables = s.tables := by
  unfold remove
  split <;> rfl

theorem files_remove (ok : Bool) (path' : String) : (s.remove path ok).1.files path' =
    if path' = path ∧ (s.remove path ok).2 = true then none else s.files path' := by
  by_cases h : ok = true ∧ (s.files path).isSome
  · simp only [remove, if_pos h, and_true, Function.update_apply]
  · simp only [remove, if_neg h, Bool.false_eq_true, and_false, if_false]

end Host

variable {H : Type} {α : Type}

/-- An effect of a handler, and its answer. -/
def Database.act (db : Database H) (s : Host) (e : Effect) (incident : Incident H) :
    Host × e.Answer :=
  match e with
  | .writeFile path data => (s.write path data incident.written, ())
  | .removeFile path => s.remove path (incident.meeting.answer (.removeFile path))
  | e => ({ s with tables := (db.perform s.tables e incident.meeting).1 },
    (db.perform s.tables e incident.meeting).2)

/-- **A handler on a host**, every effect of which meets something else, the first one `ms n`: what
it has asked and been answered, the host afterwards, and its value, unless an exception has left
it. -/
def Database.work (db : Database H) (ms : ℕ → Incident H) (n : ℕ) (p : Handler α) (s : Host) :
    List ((e : Effect) × e.Answer) × Host × Option α :=
  let run := p.run (fun s e => (((db.act s.1 e (ms s.2)).1, s.2 + 1), (db.act s.1 e (ms s.2)).2))
    (s, n)
  (run.1, run.2.1.1, run.2.2)

section Work

variable {db : Database H} {ms : ℕ → Incident H} {n : ℕ} {s s' : Host}
  {log : List ((e : Effect) × e.Answer)} {a : α}

theorem work_call (e : Effect) (next : e.Answer → Handler α) : db.work ms n (.call e next) s =
    (⟨e, (db.act s e (ms n)).2⟩ ::
      (db.work ms (n + 1) (next (db.act s e (ms n)).2) (db.act s e (ms n)).1).1,
      (db.work ms (n + 1) (next (db.act s e (ms n)).2) (db.act s e (ms n)).1).2) := rfl

/-- A handler that has an effect returns when what it does after it returns. -/
theorem work_call_eq_some {e : Effect} {next : e.Answer → Handler α} :
    db.work ms n (.call e next) s = (log, s', some a) ↔
      ∃ rest, log = ⟨e, (db.act s e (ms n)).2⟩ :: rest ∧
        db.work ms (n + 1) (next (db.act s e (ms n)).2) (db.act s e (ms n)).1 =
        (rest, s', some a) := by
  rw [work_call]
  constructor
  · intro h
    rw [Prod.mk.injEq] at h
    exact ⟨_, h.1.symm, Prod.ext rfl h.2⟩
  · rintro ⟨rest, rfl, h⟩
    rw [h]

/-- A handler that fails does not return. -/
theorem work_fail_ne : db.work ms n (.fail : Handler α) s ≠ (log, s', some a) := by
  intro h
  have hvalue : none = some a := congrArg (fun x => x.2.2) h
  cases hvalue

end Work

end PickUpLight.Store
