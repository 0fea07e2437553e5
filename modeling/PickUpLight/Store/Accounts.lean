import PickUpLight.Control.InitControl
import PickUpLight.Control.JsonText
import PickUpLight.Store.Ids
import PickUpLight.Store.Serving

/-!
# Accounts by their ids

`do_register` enters an id within quotes, and `do_register` and `do_login` look for one without, so
that an account is found by the value of its id. Registrations one after another keep the values
apart: of each there is one account at most. It is found with every id that has its value.
-/

namespace PickUpLight.Store

open PickUpLight.Theory PickUpLight.Control PickUpLight.Wire PickUpLight.Sql

variable {H : Type}

/-- A handler on the tables: what it has asked and been answered, the tables afterwards, and its
value. -/
def Database.call (db : Database H) (m : Meeting H) {α : Type} (p : Handler α) (t : Tables) :
    List ((e : Effect) × e.Answer) × Tables × Option α :=
  p.run (fun t e => db.perform t e m) t

/-- **Registrations one after another.** -/
def Database.registering (db : Database H) (lib : Nlohmann) :
    Machine Tables (List UInt8 × Meeting H) :=
  fun t request => some (db.call request.2 (InitControl.do_register lib request.1) t).2.1

/-- The id of a registration is a number, and the password does not go beyond its quotes: the
insertion is read as one statement. -/
def Understood (lib : Nlohmann) (strMsg : List UInt8) : Prop :=
  ∀ id pw, InitControl.account lib strMsg = some (id, pw) →
    IsNumber id ∧ ∃ c, parse (Control.Command.insertUser id pw).text = some (.command c)

/-- The ids in `User` are numbers, with different values. -/
structure Tables.Apart (t : Tables) : Prop where
  numbers : ∀ cells ∈ t.cells .User, IsNumber (cells.getD 0 "")
  nodup : ((t.cells .User).map fun cells => value (cells.getD 0 "")).Nodup

section Exact

variable (db : Database H) (lib : Nlohmann) (m : Meeting H) (strMsg : List UInt8) (id pw : String)
  (t : Tables)

/-- `do_login` returns true if an account has exactly this id and this password. -/
def LoginExact : Prop :=
  (db.call m (InitControl.do_login lib strMsg) t).2.2 = some true ↔
    ∃ cells ∈ t.cells .User, cells.getD 0 "" = id ∧ cells.getD 1 "" = pw

/-- `do_register` refuses an id if an account has exactly this one. -/
def RegisterExact : Prop :=
  (db.call m (InitControl.do_register lib strMsg) t).2.2 = some false ↔
    ∃ cells ∈ t.cells .User, cells.getD 0 "" = id

end Exact

/-! ### Statements -/

section Statements

variable {id pw : String} {t : Tables} {equals : String → String → Bool}

theorem text_insertUser : (Control.Command.insertUser id pw).text =
    "insert into User(id, pw) values('" ++ id ++ "','" ++ pw ++ "')" := rfl

theorem parse_insertUser (hid : Literal id.toList) (hpw : Literal pw.toList) :
    parse (Control.Command.insertUser id pw).text =
      some (.command (.insert "User" (some ["id", "pw"]) [.text id, .text pw])) :=
  parse_template (.literal (.literal (.code rfl) hid rfl rfl) hpw rfl rfl) rfl rfl

/-- The insertion of an account, if it is a statement at all, inserts the id and what the password
is read as. -/
theorem insert_of_insertUser {c : Sql.Command} (hid : IsNumber id)
    (hparse : parse (Control.Command.insertUser id pw).text = some (.command c)) :
    ∃ w vs, c = .insert "User" (some ["id", "pw"]) (.text id :: .text w :: vs) := by
  obtain ⟨w, vs, hc, -⟩ := insert_of_spliced [id] (text_insertUser ..)
    (.literal (.code rfl) (literal_of_isNumber hid) rfl rfl) (by decide) rfl (fun _ _ => rfl) hparse
  exact ⟨w, vs, hc⟩

/-- A `varchar` stores a text, perhaps without blanks at its end, or fails. -/
theorem stores_varchar (now name : String) (n : ℕ) (w : String) :
    Column.stores now ⟨name, .varchar n⟩ (.text w) = .fails ∨
      ∃ cell, Column.stores now ⟨name, .varchar n⟩ (.text w) = .does cell := by
  simp only [Column.stores]
  split_ifs
  · exact .inr ⟨_, rfl⟩
  · exact .inr ⟨_, rfl⟩
  · exact .inl rfl

/-- It inserts one row with the id, or fails. -/
theorem edit_insertUser (hid : IsNumber id) (w : String) (vs : List Value) (now : String) :
    (Sql.Command.insert "User" (some ["id", "pw"]) (.text id :: .text w :: vs)).edit schema equals
      now = .fails ∨
      ∃ cells, (Sql.Command.insert "User" (some ["id", "pw"]) (.text id :: .text w :: vs)).edit
      schema equals now =
        .does ("User", .insert cells) ∧ cells.getD 0 "" = id := by
  cases vs with
  | nil =>
    have hedit :
        (Sql.Command.insert "User" (some ["id", "pw"]) [.text id, .text w]).edit schema equals now =
          (fill now [(0, .text id), (1, .text w)] 0 Table.User.columns >>= fun cells =>
            .does ("User", .insert cells)) := rfl
    have hfill : fill now [(0, .text id), (1, .text w)] 0 Table.User.columns =
        (Column.stores now ⟨"id", .varchar 30⟩ (.text id) >>= fun cell =>
          (Column.stores now ⟨"pw", .varchar 30⟩ (.text w) >>= fun cell' => .does
          [cell', "NULL", "NULL"]) >>=
            fun cells => .does (cell :: cells)) := rfl
    rw [hedit, hfill, stores_number hid]
    split
    · rcases stores_varchar now "pw" 30 w with hw | ⟨cell, hw⟩
      · rw [hw]
        exact .inl rfl
      · rw [hw]
        exact .inr ⟨[id, cell, "NULL", "NULL"], rfl, rfl⟩
    · exact .inl rfl
  | cons v vs => exact .inl rfl

theorem parse_selectUserId (hid : IsNumber id) : parse (Control.Command.selectUserId id).text =
    some (.query (.rows (some ["id"]) ⟨"User", [⟨"id", id⟩]⟩ none none)) :=
  parse_template_number (.code rfl) hid rfl

theorem parse_selectPw (hid : IsNumber id) : parse (Control.Command.selectPw id).text =
    some (.query (.rows (some ["pw"]) ⟨"User", [⟨"id", id⟩]⟩ none none)) :=
  parse_template_number (.code rfl) hid rfl

theorem answers_selectUserId (t : Tables) :
    (Query.rows (some ["id"]) ⟨"User", [⟨"id", id⟩]⟩ none none).answers schema equals t.contents =
      .does fun answer => ∃ all : List Cells,
      all.Perm ((t.cells .User).filter (meets equals [(0, id)])) ∧
        Descending none all ∧ answer = all.map (project (some [0])) := rfl

theorem answers_selectPw (t : Tables) :
    (Query.rows (some ["pw"]) ⟨"User", [⟨"id", id⟩]⟩ none none).answers schema equals t.contents =
      .does fun answer => ∃ all : List Cells,
      all.Perm ((t.cells .User).filter (meets equals [(0, id)])) ∧
        Descending none all ∧ answer = all.map (project (some [1])) := rfl

end Statements

/-! ### What is found -/

section Found

variable {db : Database H} {now : H → String} {equals : String → String → Bool} {m : Meeting H}
  {t : Tables}
  {id pw : String} {command : Control.Command} {q : Query}

/-- **The accounts that are found by an id** are those whose ids have its value. -/
theorem Database.Follows.finds (hdb : db.Follows now equals) (ht : t.Apart) (hid : IsNumber id)
    (hparse : parse command.text = some (.query q)) {k : ℕ}
    (hA : q.answers schema equals t.contents = .does fun answer =>
      ∃ all : List Cells, all.Perm ((t.cells .User).filter (meets equals [(0, id)])) ∧
      Descending none all ∧
        answer = all.map (project (some [k])))
    {rows : List Row} (hrows : db.store t m.db command.text = some rows) :
    ∃ all : List Cells, (∀ cells, cells ∈ all ↔ cells ∈ t.cells .User ∧
      value (cells.getD 0 "") = value id) ∧
      rows.map Row.cells = all.map fun cells => [cells.getD k ""] := by
  obtain ⟨all, hperm, -, hanswer⟩ := hdb.query hparse hA hrows
  refine ⟨all, fun cells => ?_, hanswer⟩
  rw [hperm.mem_iff, List.mem_filter, meets_singleton]
  exact and_congr_right fun hcells => hdb.numeric _ _ (ht.numbers cells hcells) hid

/-- An account is entered, or nothing changes. -/
theorem Database.Follows.enters (hdb : db.Follows now equals) (hid : IsNumber id)
    (hparse : ∃ c, parse (Control.Command.insertUser id pw).text = some (.command c)) :
    (db.perform t (.query_execute (.insertUser id pw)) m).1 = t ∨
      ∃ cells : Cells, cells.getD 0 "" = id ∧
        (db.perform t (.query_execute (.insertUser id pw)) m).1 =
        t.apply .User (changeOf (.insert cells)) := by
  obtain ⟨c, hparse⟩ := hparse
  obtain ⟨w, vs, rfl⟩ := insert_of_insertUser hid hparse
  have hchanges : (Control.Command.insertUser id pw).changes = some .User := rfl
  rcases edit_insertUser hid w vs (now m.db) with hfails | ⟨cells, hedit, hcell⟩
  · rw [hdb.perform_fails hchanges hparse hfails]
    exact .inl rfl
  · obtain ⟨ok, hperform⟩ := hdb.perform (t := t) hchanges hparse hedit
    rw [hperform]
    cases ok with
    | false => exact .inl rfl
    | true => exact .inr ⟨cells, hcell, rfl⟩

/-- An account with a value of its own is entered. -/
theorem Tables.Apart.insert (ht : t.Apart) (hid : IsNumber id) {cells : Cells}
    (hcell : cells.getD 0 "" = id)
    (hfree : ∀ cells ∈ t.cells .User, value (cells.getD 0 "") ≠ value id) :
    (t.apply .User (changeOf (.insert cells))).Apart where
  numbers cells' hcells' := by
    rw [Tables.cells_insert, List.mem_append, List.mem_singleton] at hcells'
    rcases hcells' with hcells' | rfl
    · exact ht.numbers cells' hcells'
    · rw [hcell]
      exact hid
  nodup := by
    rw [Tables.cells_insert, List.map_append, List.map_singleton, hcell, ← List.concat_eq_append]
    refine ht.nodup.concat fun hmem => ?_
    obtain ⟨cells', hcells', hvalue⟩ := List.mem_map.mp hmem
    exact hfree cells' hcells' hvalue

/-- Two accounts with ids of one value are one. -/
theorem Tables.Apart.eq (ht : t.Apart) {cells cells' : Cells} (hcells : cells ∈ t.cells .User)
    (hcells' : cells' ∈ t.cells .User) (h : value (cells.getD 0 "") = value (cells'.getD 0 "")) :
    cells = cells' :=
  List.inj_on_of_nodup_map ht.nodup hcells hcells' h

end Found

/-! ### Registrations -/

section Registrations

variable {db : Database H} {lib : Nlohmann} {now : H → String} {equals : String → String → Bool}
  {m : Meeting H}
  {t : Tables} {strMsg : List UInt8} {id pw : String}

theorem do_register_eq (h : InitControl.account lib strMsg = some (id, pw)) :
    InitControl.do_register lib strMsg = InitControl.registerAccount id pw := by
  rw [InitControl.do_register, h]
  rfl

theorem do_login_eq (h : InitControl.account lib strMsg = some (id, pw)) :
    InitControl.do_login lib strMsg = InitControl.loginAccount id pw := by
  rw [InitControl.do_login, h]
  rfl

theorem call_query {α : Type} {command : Control.Command} (next : Option (List Row) → Handler α) :
    db.call m (Handler.query_store command >>= next) t =
      (⟨.query_store command, db.store t m.db command.text⟩ ::
        (db.call m (next (db.store t m.db command.text)) t).1,
          (db.call m (next (db.store t m.db command.text)) t).2) := rfl

/-- A registration whose query fails. -/
theorem call_register_none (hrows : db.store t m.db (Control.Command.selectUserId id).text = none) :
    db.call m (InitControl.registerAccount id pw) t =
      ([⟨.query_store (.selectUserId id), none⟩], t, some false) := by
  rw [InitControl.registerAccount, call_query, hrows]
  rfl

/-- A registration of an id that is found. -/
theorem call_register_found {row : Row} {rows : List Row}
    (hrows : db.store t m.db (Control.Command.selectUserId id).text = some (row :: rows)) :
    db.call m (InitControl.registerAccount id pw) t =
      ([⟨.query_store (.selectUserId id), some (row :: rows)⟩], t, some false) := by
  rw [InitControl.registerAccount, call_query, hrows]
  rfl

/-- A registration of an id that is not found. -/
theorem call_register_new (hrows : db.store t m.db (Control.Command.selectUserId id).text =
      some []) :
    db.call m (InitControl.registerAccount id pw) t =
      ([⟨.query_store (.selectUserId id), some []⟩,
          ⟨.query_execute (.insertUser id pw),
          (db.perform t (.query_execute (.insertUser id pw)) m).2⟩],
        (db.perform t (.query_execute (.insertUser id pw)) m).1,
          some (db.perform t (.query_execute (.insertUser id pw)) m).2) := by
  rw [InitControl.registerAccount, call_query, hrows]
  rfl

/-- What is not found is not there. -/
theorem Database.Follows.not_found (hdb : db.Follows now equals) (ht : t.Apart) (hid : IsNumber id)
    (hrows : db.store t m.db (Control.Command.selectUserId id).text = some []) :
    ∀ cells ∈ t.cells .User, value (cells.getD 0 "") ≠ value id := by
  obtain ⟨all, hmem, hanswer⟩ :=
    hdb.finds ht hid (parse_selectUserId hid) (answers_selectUserId t) hrows
  rw [List.map_nil, eq_comm, List.map_eq_nil_iff] at hanswer
  intro cells hcells hvalue
  have hcells := (hmem cells).mpr ⟨hcells, hvalue⟩
  rw [hanswer] at hcells
  cases hcells

/-- One registration keeps the values of the ids apart. -/
theorem Tables.Apart.register (hdb : db.Follows now equals) (ht : t.Apart)
    (h : Understood lib strMsg) :
    (db.call m (InitControl.do_register lib strMsg) t).2.1.Apart := by
  cases haccount : InitControl.account lib strMsg with
  | none =>
    rw [InitControl.do_register, haccount]
    exact ht
  | some account =>
    obtain ⟨id, pw⟩ := account
    obtain ⟨hid, hparse⟩ := h id pw haccount
    rw [do_register_eq haccount]
    rcases hrows : db.store t m.db (Control.Command.selectUserId id).text with _ | _ | ⟨row, rows⟩
    · rw [call_register_none hrows]
      exact ht
    · rw [call_register_new hrows]
      rcases hdb.enters (t := t) (m := m) hid hparse with hsame | ⟨cells, hcell, hentered⟩
      · rw [hsame]
        exact ht
      · rw [hentered]
        exact ht.insert hid hcell (hdb.not_found ht hid hrows)
    · rw [call_register_found hrows]
      exact ht

theorem apart_initDataBase : initDataBase.Apart where
  numbers _ hcells := by cases hcells
  nodup := List.nodup_nil

/-- **Registrations one after another keep the values of the ids apart.** -/
theorem apart_of_run (hdb : db.Follows now equals) {requests : List (List UInt8 × Meeting H)}
    (hrequests : ∀ request ∈ requests, Understood lib request.1)
    (hrun : (db.registering lib).exec initDataBase requests = some t) : t.Apart := by
  refine Machine.exec_inv_guarded _ ?_ apart_initDataBase (Machine.guarded_of_forall _ hrequests)
    hrun
  rintro t request t' ht hrequest hstep
  cases hstep
  exact ht.register hdb hrequest

end Registrations

/-! ### Logins and refusals -/

section Identified

variable {db : Database H} {lib : Nlohmann} {now : H → String} {equals : String → String → Bool}
  {m : Meeting H}
  {t : Tables} {strMsg : List UInt8} {id pw : String}

/-- A login whose query fails. -/
theorem login_none (hrows : db.store t m.db (Control.Command.selectPw id).text = none) :
    (db.call m (InitControl.loginAccount id pw) t).1.any failed = true := by
  rw [InitControl.loginAccount, call_query, hrows]
  rfl

/-- A login with an id that is not found. -/
theorem login_nil (hrows : db.store t m.db (Control.Command.selectPw id).text = some []) :
    (db.call m (InitControl.loginAccount id pw) t).2.2 = some false := by
  rw [InitControl.loginAccount, call_query, hrows]
  rfl

/-- The entry of the connection gets the id of a login. -/
theorem call_add_userId (hentry : m.answer (.add_userId id) = true) (next : Unit → Handler Bool) :
    (db.call m (Handler.add_userId id >>= next) t).2 = (db.call m (next ()) t).2 := by
  have hperform : db.perform t (.add_userId id) m = (t, true) := by
    rw [← hentry]
    rfl
  have hcall : db.call m (Handler.add_userId id >>= next) t =
      (⟨.add_userId id, (db.perform t (.add_userId id) m).2⟩ ::
        (db.call m (Handler.found (db.perform t (.add_userId id) m).2 >>= next)
        (db.perform t (.add_userId id) m).1).1,
          (db.call m (Handler.found (db.perform t (.add_userId id) m).2 >>= next)
            (db.perform t (.add_userId id) m).1).2) := rfl
  rw [hcall, hperform]
  rfl

/-- A login with an id that is found: the password is that of the first account. -/
theorem login_cons (hentry : m.answer (.add_userId id) = true) {row : Row} {rows : List Row}
    {pw' : String} (hrows : db.store t m.db (Control.Command.selectPw id).text = some (row :: rows))
    (hrow : row.cells = [pw']) :
    (db.call m (InitControl.loginAccount id pw) t).2.2 = some (decide (pw = pw')) := by
  have hcell : Handler.cell row 0 = Program.ret pw' := by
    rw [Handler.cell, hrow]
    rfl
  rw [InitControl.loginAccount, call_query, hrows]
  simp only
  rw [hcell, Program.ret_bind]
  by_cases hpw : pw = pw'
  · rw [if_pos hpw, call_add_userId hentry, decide_eq_true hpw]
    rfl
  · rw [if_neg hpw, decide_eq_false hpw]
    rfl

/-- Whom a login is for: an account with the value of the id, and with the password. -/
theorem login_iff (hdb : db.Follows now equals) (ht : t.Apart)
    (haccount : InitControl.account lib strMsg = some (id, pw)) (hid : IsNumber id)
    (hentry : m.answer (.add_userId id) = true)
    (hsmooth : (db.call m (InitControl.do_login lib strMsg) t).1.any failed = false) :
    (db.call m (InitControl.do_login lib strMsg) t).2.2 = some true ↔
      ∃ cells ∈ t.cells .User, value (cells.getD 0 "") = value id ∧ cells.getD 1 "" = pw := by
  rw [do_login_eq haccount] at hsmooth ⊢
  rcases hrows : db.store t m.db (Control.Command.selectPw id).text with _ | rows
  · rw [login_none hrows] at hsmooth
    cases hsmooth
  · obtain ⟨all, hmem, hanswer⟩ := hdb.finds ht hid (parse_selectPw hid) (answers_selectPw t) hrows
    cases rows with
    | nil =>
      rw [List.map_nil, eq_comm, List.map_eq_nil_iff] at hanswer
      subst hanswer
      rw [login_nil hrows]
      constructor
      · intro h
        cases h
      · rintro ⟨cells, hcells, hvalue, -⟩
        cases (hmem cells).mpr ⟨hcells, hvalue⟩
    | cons row rows =>
      cases all with
      | nil => cases hanswer
      | cons cells all =>
        rw [List.map_cons, List.map_cons, List.cons.injEq] at hanswer
        obtain ⟨hcells, hvalue⟩ := (hmem cells).mp (List.mem_cons_self ..)
        rw [login_cons hentry hrows hanswer.1, Option.some.injEq, decide_eq_true_iff]
        constructor
        · exact fun hpw => ⟨cells, hcells, hvalue, hpw.symm⟩
        · rintro ⟨cells', hcells', hvalue', hpw⟩
          rw [ht.eq hcells hcells' (hvalue.trans hvalue'.symm), hpw]

/-- **When a login is exact**: when no account with the password has an id that is written
otherwise. -/
theorem loginExact_iff (hdb : db.Follows now equals) (ht : t.Apart)
    (haccount : InitControl.account lib strMsg = some (id, pw)) (hid : IsNumber id)
    (hentry : m.answer (.add_userId id) = true)
    (hsmooth : (db.call m (InitControl.do_login lib strMsg) t).1.any failed = false) :
    LoginExact db lib m strMsg id pw t ↔
      ∀ cells ∈ t.cells .User, value (cells.getD 0 "") = value id → cells.getD 1 "" = pw →
      cells.getD 0 "" = id := by
  rw [LoginExact, login_iff hdb ht haccount hid hentry hsmooth]
  constructor
  · intro h cells hcells hvalue hpw
    obtain ⟨cells', hcells', hcell, -⟩ := h.mp ⟨cells, hcells, hvalue, hpw⟩
    rw [ht.eq hcells hcells' (by rw [hvalue, hcell]), hcell]
  · intro h
    constructor
    · rintro ⟨cells, hcells, hvalue, hpw⟩
      exact ⟨cells, hcells, h cells hcells hvalue hpw, hpw⟩
    · rintro ⟨cells, hcells, hcell, hpw⟩
      exact ⟨cells, hcells, by rw [hcell], hpw⟩

/-- What is refused: the ids with the value of one that is there. -/
theorem refused_iff (hdb : db.Follows now equals) (ht : t.Apart)
    (haccount : InitControl.account lib strMsg = some (id, pw)) (hid : IsNumber id)
    (hsmooth : (db.call m (InitControl.do_register lib strMsg) t).1.any failed = false) :
    (db.call m (InitControl.do_register lib strMsg) t).2.2 = some false ↔
      ∃ cells ∈ t.cells .User, value (cells.getD 0 "") = value id := by
  rw [do_register_eq haccount] at hsmooth ⊢
  rcases hrows : db.store t m.db (Control.Command.selectUserId id).text with _ | _ | ⟨row, rows⟩
  · rw [call_register_none hrows] at hsmooth
    cases hsmooth
  · rw [call_register_new hrows] at hsmooth ⊢
    have hok : (db.perform t (.query_execute (.insertUser id pw)) m).2 = true := by
      simpa [failed] using hsmooth
    rw [hok]
    constructor
    · intro h
      cases h
    · rintro ⟨cells, hcells, hvalue⟩
      exact absurd hvalue (hdb.not_found ht hid hrows cells hcells)
  · obtain ⟨all, hmem, hanswer⟩ :=
      hdb.finds ht hid (parse_selectUserId hid) (answers_selectUserId t) hrows
    rw [call_register_found hrows]
    refine ⟨fun _ => ?_, fun _ => rfl⟩
    cases all with
    | nil => cases hanswer
    | cons cells all => exact ⟨cells, (hmem cells).mp (List.mem_cons_self ..)⟩

/-- **When a refusal is exact**: when no account has the id written otherwise. -/
theorem registerExact_iff (hdb : db.Follows now equals) (ht : t.Apart)
    (haccount : InitControl.account lib strMsg = some (id, pw)) (hid : IsNumber id)
    (hsmooth : (db.call m (InitControl.do_register lib strMsg) t).1.any failed = false) :
    RegisterExact db lib m strMsg id t ↔
      ∀ cells ∈ t.cells .User, value (cells.getD 0 "") = value id → cells.getD 0 "" = id := by
  rw [RegisterExact, refused_iff hdb ht haccount hid hsmooth]
  constructor
  · intro h cells hcells hvalue
    obtain ⟨cells', hcells', hcell⟩ := h.mp ⟨cells, hcells, hvalue⟩
    rw [ht.eq hcells hcells' (by rw [hvalue, hcell]), hcell]
  · intro h
    constructor
    · rintro ⟨cells, hcells, hvalue⟩
      exact ⟨cells, hcells, h cells hcells hvalue⟩
    · rintro ⟨cells, hcells, hcell⟩
      exact ⟨cells, hcells, by rw [hcell]⟩

/-- **When accounts are identified by their ids**, after registrations one after another: when no
account has the id written otherwise, and, for a login, the password too. -/
theorem identifies_iff (hdb : db.Follows now equals) {requests : List (List UInt8 × Meeting H)}
    (hrequests : ∀ request ∈ requests, Understood lib request.1)
    (hrun : (db.registering lib).exec initDataBase requests = some t)
    (haccount : InitControl.account lib strMsg = some (id, pw)) (hid : IsNumber id)
    (hentry : m.answer (.add_userId id) = true) :
    ((db.call m (InitControl.do_login lib strMsg) t).1.any failed = false →
      (LoginExact db lib m strMsg id pw t ↔
        ∀ cells ∈ t.cells .User, value (cells.getD 0 "") = value id → cells.getD 1 "" = pw →
        cells.getD 0 "" = id)) ∧
    ((db.call m (InitControl.do_register lib strMsg) t).1.any failed = false →
      (RegisterExact db lib m strMsg id t ↔
        ∀ cells ∈ t.cells .User, value (cells.getD 0 "") = value id → cells.getD 0 "" = id)) := by
  have ht : t.Apart := apart_of_run hdb hrequests hrun
  exact ⟨loginExact_iff hdb ht haccount hid hentry, registerExact_iff hdb ht haccount hid⟩

end Identified

/-! ### An id with zeros -/

namespace Zeros

/-- User `7` registers. -/
def first : List UInt8 := "\x7b\"id\":\"7\",\"pw\":\"secret\"\x7d".toUTF8.toList

/-- User `007` logs in, or registers. -/
def second : List UInt8 := "\x7b\"id\":\"007\",\"pw\":\"secret\"\x7d".toUTF8.toList

/-- The library, on the requests of this example. -/
def nlohmann : Nlohmann where
  parse bytes :=
    if bytes = first then some (.obj [("id", .str "7"), ("pw", .str "secret")])
    else if bytes = second then some (.obj [("id", .str "007"), ("pw", .str "secret")])
    else none
  dump := Json.text

/-- What requests meet. -/
def now : Meeting Moment := calm { up := true, now := "2025-01-01 00:00:00" }

/-- The tables after the registration of user `7`. -/
def tables : Tables := (mysql.call now (InitControl.do_register nlohmann first) initDataBase).2.1

theorem cells_tables : tables.cells .User = [["7", "secret", "NULL", "NULL"]] := by decide +kernel

/-- **User `007` can log in with the password of user `7`**, and cannot register. -/
theorem another_account :
    (mysql.registering nlohmann).exec initDataBase [(first, now)] = some tables ∧
    tables.cells .User = [["7", "secret", "NULL", "NULL"]] ∧
    (mysql.call now (InitControl.do_login nlohmann second) tables).1.any failed = false ∧
    (mysql.call now (InitControl.do_login nlohmann second) tables).2.2 = some true ∧
    ¬ LoginExact mysql nlohmann now second "007" "secret" tables ∧
    (mysql.call now (InitControl.do_register nlohmann second) tables).1.any failed = false ∧
    (mysql.call now (InitControl.do_register nlohmann second) tables).2.2 = some false ∧
    ¬ RegisterExact mysql nlohmann now second "007" tables := by
  have hlogin : (mysql.call now (InitControl.do_login nlohmann second) tables).2.2 = some true := by
    decide +kernel
  have hregister : (mysql.call now (InitControl.do_register nlohmann second) tables).2.2 =
      some false := by
    decide +kernel
  refine ⟨rfl,
    cells_tables, by decide +kernel, hlogin, fun h => ?_, by decide +kernel, hregister, fun h => ?_⟩
  · obtain ⟨cells, hcells, hcell, -⟩ := h.mp hlogin
    rw [cells_tables, List.mem_singleton] at hcells
    subst hcells
    exact absurd hcell (by decide)
  · obtain ⟨cells, hcells, hcell⟩ := h.mp hregister
    rw [cells_tables, List.mem_singleton] at hcells
    subst hcells
    exact absurd hcell (by decide)

/-- Neither the login nor the refusal is exact. -/
theorem identifies_iff_zeros :
    ¬ LoginExact mysql nlohmann now second "007" "secret" tables ∧
    ¬ RegisterExact mysql nlohmann now second "007" tables := by
  have hfirst : Understood nlohmann first := by
    intro id pw haccount
    have hself : InitControl.account nlohmann first = some ("7", "secret") := by decide +kernel
    rw [hself] at haccount
    cases haccount
    exact ⟨isNumber_iff.mp rfl, _, parse_insertUser (by decide) (by decide)⟩
  have hrequests : ∀ request ∈ [(first, now)], Understood nlohmann request.1 := by
    intro request hrequest
    rw [List.mem_singleton.mp hrequest]
    exact hfirst
  have hrun : (mysql.registering nlohmann).exec initDataBase [(first, now)] = some tables := rfl
  have haccount : InitControl.account nlohmann second = some ("007", "secret") := by decide +kernel
  have hentry : now.answer (.add_userId "007") = true := rfl
  obtain ⟨hlogin, hregister⟩ :=
    identifies_iff mysql_follows hrequests hrun haccount (isNumber_iff.mp rfl) hentry
  have hcells : ["7", "secret", "NULL", "NULL"] ∈ tables.cells .User := by
    rw [cells_tables]
    exact List.mem_singleton_self _
  refine ⟨?_, ?_⟩
  · rw [hlogin (by decide +kernel)]
    exact fun h => absurd (h _ hcells (by decide) rfl) (by decide)
  · rw [hregister (by decide +kernel)]
    exact fun h => absurd (h _ hcells (by decide)) (by decide)

end Zeros

end PickUpLight.Store
