import PickUpLight.Control.InitControl
import PickUpLight.Store.Database
import PickUpLight.Theory.Roster

/-!
# Registrations side by side

`do_register` looks whether an account has the id and, if none has, inserts one. Nothing
holds the two statements together, and `initDataBase` gives `User` no key.
-/

namespace PickUpLight.Store

open PickUpLight.Theory PickUpLight.Theory.Roster PickUpLight.Control PickUpLight.Wire

/-- The ids in `User`, its first column. -/
def Tables.ids (t : Tables) : List String := (t.rows .User).map fun row => row.cells.headD ""

section Model

variable (lib : Nlohmann) (server : Server) (requests : List (List UInt8))

/-- The registrations of these requests, each on a thread of its own. -/
def registrations (t : Tables) : Handlers :=
  Handlers.start t (requests.map (InitControl.register lib server))

/-- The id request `k` asks for, and the password. -/
def accountOf (k : ℕ) : Option (String × String) :=
  requests[k]?.bind (InitControl.account lib)

/-- Registration `k` is answered with success. -/
def Succeeded (log : List Entry) (k : ℕ) : Prop :=
  ∃ ok, (k, ⟨.send ⟨.Register, NetPacketGenerator.success true⟩, ok⟩) ∈ log

/-- Account ids are unique: `User` has no two rows with one id, and no two registrations of
one id are answered with success. -/
structure UniqueIds (s : Handlers) : Prop where
  rows : s.store.ids.Nodup
  answers : ∀ j k id pw pw', accountOf lib requests j = some (id, pw) →
    accountOf lib requests k = some (id, pw') → Succeeded s.log j → Succeeded s.log k → j = k

/-- Registration `k` has found no account with its id and has not inserted one. -/
def Checked (log : List Entry) (k : ℕ) : Prop :=
  (∃ id, (k, ⟨.query_store (.selectUserId id), some []⟩) ∈ log) ∧
    ∀ c ok, (k, ⟨.query_execute c, ok⟩) ∉ log

end Model

variable {H : Type} (db : Database H)

/-- The statements for an account mean what they are meant to: the query finds the id where it
is, and the insertion adds one row with it, or nothing, which it reports. As the query has
the id without quotes, that is so of numbers, and as the insertion has both within quotes,
of texts without quotes and backslashes that fit into their columns. -/
structure Database.Recognises (id pw : String) : Prop where
  finds : ∀ t h, id ∈ t.ids → db.store t h (Command.selectUserId id).text ≠ some []
  adds : ∀ t h, db.execute t h (Command.insertUser id pw).text = (.nothing, false) ∨
    ∃ cells ok, db.execute t h (Command.insertUser id pw).text = (.insert [id :: cells], ok)

/-- A turn is in order: a registration that is about to find no account with its id is of an id
and a password the database recognises, and no other registration of the id is between its
check and its insertion. -/
def InOrder (lib : Nlohmann) (requests : List (List UInt8)) (s : Handlers) (turn : ℕ × Meeting H) :
    Prop :=
  ∀ id pw, accountOf lib requests turn.1 = some (id, pw) →
    s.asks turn.1 (.query_store (.selectUserId id)) →
    db.store s.store turn.2.db (Command.selectUserId id).text = some [] →
    db.Recognises id pw ∧
      ∀ k pw', accountOf lib requests k = some (id, pw') → ¬ Checked s.log k

/-! ### The stages of a registration -/

/-- Where a registration is. -/
inductive Registering where
  /-- It asks whether the id is taken. -/
  | check (id pw : String)
  /-- It inserts the account. -/
  | insert (id pw : String)
  /-- It answers. -/
  | answer (ok : Bool)
  /-- It has returned. -/
  | returned
  /-- It has failed. -/
  | failed

namespace Registering

variable (lib : Nlohmann) (server : Server)

/-- The end of a registration. -/
def reply (ok : Bool) : Handler Unit := NetPacketGenerator.register_P lib ok >>= Handler.send server

def program : Registering → Handler Unit
  | check id pw => InitControl.registerAccount id pw >>= reply lib server
  | insert id pw => Handler.query_execute (.insertUser id pw) >>= reply lib server
  | answer ok => reply lib server ok
  | returned => Program.ret ()
  | failed => Program.fail

/-- After an answer has been sent, or not. -/
def closed (ok : Bool) : Registering := if server = .boost ∧ ok = false then failed else returned

/-- Once the id has been looked for. -/
def checked (id pw : String) : Option (List Row) → Registering
  | some [] => insert id pw
  | _ => answer false

def next : Registering → Option ((e : Effect) × (e.Answer → Registering))
  | check id pw => some ⟨.query_store (.selectUserId id), checked id pw⟩
  | insert id pw => some ⟨.query_execute (.insertUser id pw), answer⟩
  | answer ok =>
    if NetPacketGenerator.fits lib (NetPacketGenerator.success ok) then
      some ⟨.send ⟨.Register, NetPacketGenerator.success ok⟩, closed server⟩
    else none
  | _ => none

theorem program_closed (ok : Bool) :
    program lib server (closed server ok) = Handler.sent server ok := by
  unfold closed Handler.sent
  split <;> rfl

theorem program_checked (id pw : String) (rows : Option (List Row)) :
    program lib server (checked id pw rows) =
      (match rows with
        | some [] => Handler.query_execute (.insertUser id pw)
        | _ => Program.ret false) >>= reply lib server := by
  match rows with
  | none => rfl
  | some [] => rfl
  | some (_ :: _) => rfl

theorem program_answer (ok : Bool) : program lib server (answer ok) =
    if NetPacketGenerator.fits lib (NetPacketGenerator.success ok) then
      Program.call (.send ⟨.Register, NetPacketGenerator.success ok⟩) fun sent =>
        program lib server (closed server sent)
    else Program.fail := by
  simp only [program_closed]
  exact NetPacketGenerator.packet_bind lib _ _ _

/-- The stages of a registration. -/
def stages : Stages Effect Effect.Answer Unit Registering where
  program := program lib server
  next := next lib server
  program_of_some := by
    intro s e after he
    cases s with
    | check id pw =>
      cases he
      apply congrArg (Program.call _)
      funext rows
      exact (program_checked lib server id pw rows).symm
    | insert id pw => cases he; rfl
    | answer ok =>
      simp only [next, Option.ite_none_right_eq_some] at he
      obtain ⟨hfits, he⟩ := he
      cases he
      rw [program_answer, if_pos hfits]
    | returned => cases he
    | failed => cases he
  program_of_none := by
    intro s he e after
    cases s with
    | check id pw => cases he
    | insert id pw => cases he
    | answer ok =>
      simp only [next, ite_eq_right_iff, reduceCtorEq, imp_false] at he
      rw [program_answer, if_neg he]
      exact fun h => by cases h
    | returned => exact fun h => by cases h
    | failed => exact fun h => by cases h

/-- Where a registration starts. -/
def start (strMsg : List UInt8) : Registering :=
  match InitControl.account lib strMsg with
  | some (id, pw) => check id pw
  | none => failed

theorem program_start (strMsg : List UInt8) :
    program lib server (start lib strMsg) = InitControl.register lib server strMsg := by
  simp only [start, InitControl.register, InitControl.do_register]
  cases InitControl.account lib strMsg with
  | none => rfl
  | some account =>
    apply congrArg (Program.call _)
    funext rows
    match rows with
    | none => rfl
    | some [] => rfl
    | some (_ :: _) => rfl

end Registering

/-! ### One account for each id -/

variable (lib : Nlohmann) (server : Server) (requests : List (List UInt8))

/-- Registration `k` has inserted an account with the id. -/
def Inserted (log : List Entry) (k : ℕ) (id : String) : Prop :=
  ∃ pw, (k, ⟨.query_execute (.insertUser id pw), true⟩) ∈ log

/-- The registrations by their stages. -/
abbrev Registrations := Staged Tables Effect Effect.Answer Registering

/-- What holds while all turns are in order: of the registrations that have found no account with
an id, one at most has still to insert it, and there is none yet; no two have inserted an
account with one id, and only those that have inserted one succeed. -/
structure OneEach (s : Registrations) : Prop where
  nodup : s.store.ids.Nodup
  check : ∀ k id pw, s.stages[k]? = some (.check id pw) →
    accountOf lib requests k = some (id, pw) ∧ ∀ x, (k, x) ∉ s.log
  insert : ∀ k id pw, s.stages[k]? = some (.insert id pw) →
    accountOf lib requests k = some (id, pw) ∧ db.Recognises id pw ∧ Checked s.log k ∧
      id ∉ s.store.ids
  alone : ∀ (j k : ℕ) id pw pw', s.stages[j]? = some (.insert id pw) →
    s.stages[k]? = some (.insert id pw') → j = k
  inserted : ∀ k id, Inserted s.log k id →
    id ∈ s.store.ids ∧ ∃ pw, accountOf lib requests k = some (id, pw)
  first : ∀ j k id, Inserted s.log j id → Inserted s.log k id → j = k
  answer : ∀ k, s.stages[k]? = some (.answer true) → ∃ id, Inserted s.log k id
  succeeded : ∀ k, Succeeded s.log k → ∃ id, Inserted s.log k id

section Steps

variable {db lib requests} {s : Registrations} {k : ℕ} {e : Effect} {r : e.Answer}

theorem Checked.append {log : List Entry} {j : ℕ} (h : Checked log j) (hj : j ≠ k) :
    Checked (log ++ [(k, ⟨e, r⟩)]) j := by
  obtain ⟨⟨id, hid⟩, hno⟩ := h
  refine ⟨⟨id, List.mem_append_left _ hid⟩, fun c ok hmem => ?_⟩
  rcases List.mem_append.mp hmem with hmem | hmem
  · exact hno c ok hmem
  · simp only [List.mem_singleton, Prod.mk.injEq] at hmem
    exact hj hmem.1

theorem Inserted.append {log : List Entry} {j : ℕ} {id : String} (h : Inserted log j id) :
    Inserted (log ++ [(k, ⟨e, r⟩)]) j id := by
  obtain ⟨pw, hpw⟩ := h
  exact ⟨pw, List.mem_append_left _ hpw⟩

/-- An insertion in the longer history is an old one or the new entry. -/
theorem inserted_append {log : List Entry} {j : ℕ} {id : String} :
    Inserted (log ++ [(k, ⟨e, r⟩)]) j id ↔ Inserted log j id ∨
      j = k ∧ ∃ pw, (⟨e, r⟩ : (e : Effect) × e.Answer) =
      ⟨.query_execute (.insertUser id pw), true⟩ := by
  simp only [Inserted, List.mem_append, List.mem_singleton, Prod.mk.injEq, exists_or,
    exists_and_left]
  exact or_congr Iff.rfl (and_congr Iff.rfl (exists_congr fun _ => eq_comm))

/-- A turn of registration `k` after which it has nothing more to insert. -/
theorem OneEach.turn (hs : OneEach db lib requests s) {before stage : Registering} {t : Tables}
    (hk : s.stages[k]? = some before)
    (hstage : ∀ id pw, stage ≠ .check id pw ∧ stage ≠ .insert id pw)
    (hnodup : t.ids.Nodup) (hsub : ∀ id ∈ s.store.ids, id ∈ t.ids)
    (hfree : ∀ (j : ℕ) id pw, j ≠ k → s.stages[j]? = some (.insert id pw) → id ∉ t.ids)
    (hinsert : ∀ id pw,
      (⟨e, r⟩ : (e : Effect) × e.Answer) = ⟨.query_execute (.insertUser id pw), true⟩ →
      id ∉ s.store.ids ∧ id ∈ t.ids ∧ ∃ pw, accountOf lib requests k = some (id, pw))
    (hanswer : stage = .answer true → ∃ id, Inserted (s.log ++ [(k, ⟨e, r⟩)]) k id)
    (hsend : e = .send ⟨.Register, NetPacketGenerator.success true⟩ → ∃ id, Inserted s.log k id) :
    OneEach db lib requests
      { store := t, stages := s.stages.set k stage, log := s.log ++ [(k, ⟨e, r⟩)] } := by
  have hold : ∀ (j : ℕ) id pw, (s.stages.set k stage)[j]? = some (.insert id pw) →
      j ≠ k ∧ s.stages[j]? = some (.insert id pw) := by
    intro j id pw hj
    rcases (getElem?_set_iff hk).mp hj with ⟨-, rfl⟩ | ⟨hjk, hj⟩
    · exact absurd rfl (hstage id pw).2
    · exact ⟨Ne.symm hjk, hj⟩
  constructor
  case nodup => exact hnodup
  case check =>
    intro j id pw hj
    rcases (getElem?_set_iff hk).mp hj with ⟨-, rfl⟩ | ⟨hjk, hj⟩
    · exact absurd rfl (hstage id pw).1
    · obtain ⟨haccount, hnone⟩ := hs.check j id pw hj
      refine ⟨haccount, fun x hx => ?_⟩
      rcases List.mem_append.mp hx with hx | hx
      · exact hnone x hx
      · exact hjk (Prod.mk.inj (List.mem_singleton.mp hx)).1.symm
  case insert =>
    intro j id pw hj
    obtain ⟨hjk, hj⟩ := hold j id pw hj
    obtain ⟨haccount, hrec, hchecked, -⟩ := hs.insert j id pw hj
    exact ⟨haccount, hrec, hchecked.append hjk, hfree j id pw hjk hj⟩
  case alone =>
    intro i j id pw pw' hi hj
    exact hs.alone i j id pw pw' (hold i id pw hi).2 (hold j id pw' hj).2
  case inserted =>
    intro j id hj
    rcases inserted_append.mp hj with hj | ⟨rfl, pw, hpw⟩
    · obtain ⟨hmem, haccount⟩ := hs.inserted j id hj
      exact ⟨hsub id hmem, haccount⟩
    · exact (hinsert id pw hpw).2
  case first =>
    intro i j id hi hj
    rcases inserted_append.mp hi with hi' | ⟨rfl, pw, hpw⟩ <;>
      rcases inserted_append.mp hj with hj' | ⟨rfl, pw', hpw'⟩
    · exact hs.first i j id hi' hj'
    · exact absurd (hs.inserted i id hi').1 (hinsert id pw' hpw').1
    · exact absurd (hs.inserted j id hj').1 (hinsert id pw hpw).1
    · rfl
  case answer =>
    intro j hj
    rcases (getElem?_set_iff hk).mp hj with ⟨rfl, h⟩ | ⟨-, hj⟩
    · exact hanswer h
    · obtain ⟨id, hid⟩ := hs.answer j hj
      exact ⟨id, hid.append⟩
  case succeeded =>
    rintro j ⟨ok, hok⟩
    rcases List.mem_append.mp hok with hok | hok
    · obtain ⟨id, hid⟩ := hs.succeeded j ⟨ok, hok⟩
      exact ⟨id, hid.append⟩
    · simp only [List.mem_singleton, Prod.mk.injEq, Sigma.mk.injEq] at hok
      obtain ⟨rfl, rfl, -⟩ := hok
      obtain ⟨id, hid⟩ := hsend rfl
      exact ⟨id, hid.append⟩

/-- A turn of registration `k` that leaves the tables as they are. -/
theorem OneEach.quiet (hs : OneEach db lib requests s) {before stage : Registering}
    (hk : s.stages[k]? = some before)
    (hstage : ∀ id pw, stage ≠ .check id pw ∧ stage ≠ .insert id pw)
    (hanswer : stage ≠ .answer true)
    (he : ∀ id pw, (⟨e, r⟩ : (e : Effect) × e.Answer) ≠ ⟨.query_execute (.insertUser id pw), true⟩)
    (hsend : e = .send ⟨.Register, NetPacketGenerator.success true⟩ → ∃ id, Inserted s.log k id) :
    OneEach db lib requests
      { store := s.store, stages := s.stages.set k stage, log := s.log ++ [(k, ⟨e, r⟩)] } :=
  hs.turn hk hstage hs.nodup (fun _ h => h) (fun j id pw _ hj => (hs.insert j id pw hj).2.2.2)
    (fun id pw h => absurd h (he id pw)) (fun h => absurd h hanswer) hsend

/-- The turn in which registration `k` finds no account with its id. -/
theorem OneEach.check_none (hs : OneEach db lib requests s) {id pw : String}
    (hk : s.stages[k]? = some (.check id pw)) (hrec : db.Recognises id pw)
    (hfree : id ∉ s.store.ids)
    (halone : ∀ j pw', accountOf lib requests j = some (id, pw') → ¬ Checked s.log j) :
    OneEach db lib requests
      { store := s.store, stages := s.stages.set k (.insert id pw),
        log := s.log ++ [(k, ⟨.query_store (.selectUserId id), some []⟩)] } := by
  obtain ⟨haccount, hnone⟩ := hs.check k id pw hk
  have hinserted : ∀ j i, Inserted
      (s.log ++ [(k, ⟨.query_store (.selectUserId id), some []⟩)]) j i ↔ Inserted s.log j i := by
    intro j i
    rw [inserted_append, or_iff_left]
    rintro ⟨-, pw, h⟩
    cases h
  constructor
  case nodup => exact hs.nodup
  case check =>
    intro j i pw' hj
    rcases (getElem?_set_iff hk).mp hj with ⟨-, h⟩ | ⟨hjk, hj⟩
    · cases h
    · obtain ⟨haccount, hnone⟩ := hs.check j i pw' hj
      refine ⟨haccount, fun x hx => ?_⟩
      rcases List.mem_append.mp hx with hx | hx
      · exact hnone x hx
      · exact hjk (Prod.mk.inj (List.mem_singleton.mp hx)).1.symm
  case insert =>
    intro j i pw' hj
    rcases (getElem?_set_iff hk).mp hj with ⟨rfl, h⟩ | ⟨hjk, hj⟩
    · cases h
      refine ⟨haccount, hrec, ⟨⟨id, by simp⟩, fun c ok hmem => ?_⟩, hfree⟩
      rcases List.mem_append.mp hmem with hmem | hmem
      · exact hnone _ hmem
      · simp at hmem
    · obtain ⟨haccount, hrec, hchecked, hfree⟩ := hs.insert j i pw' hj
      exact ⟨haccount, hrec, hchecked.append (Ne.symm hjk), hfree⟩
  case alone =>
    intro i j x pw₁ pw₂ hi hj
    rcases (getElem?_set_iff hk).mp hi with ⟨rfl, h⟩ | ⟨hik, hi⟩ <;>
      rcases (getElem?_set_iff hk).mp hj with ⟨rfl, h'⟩ | ⟨hjk, hj⟩
    · rfl
    · cases h
      obtain ⟨haccount, -, hchecked, -⟩ := hs.insert j id pw₂ hj
      exact absurd hchecked (halone j pw₂ haccount)
    · cases h'
      obtain ⟨haccount, -, hchecked, -⟩ := hs.insert i id pw₁ hi
      exact absurd hchecked (halone i pw₁ haccount)
    · exact hs.alone i j x pw₁ pw₂ hi hj
  case inserted => exact fun j i hj => hs.inserted j i ((hinserted j i).mp hj)
  case first =>
    exact fun i j x hi hj => hs.first i j x ((hinserted i x).mp hi) ((hinserted j x).mp hj)
  case answer =>
    intro j hj
    rcases (getElem?_set_iff hk).mp hj with ⟨-, h⟩ | ⟨-, hj⟩
    · cases h
    · obtain ⟨i, hi⟩ := hs.answer j hj
      exact ⟨i, hi.append⟩
  case succeeded =>
    rintro j ⟨ok, hok⟩
    rcases List.mem_append.mp hok with hok | hok
    · obtain ⟨i, hi⟩ := hs.succeeded j ⟨ok, hok⟩
      exact ⟨i, hi.append⟩
    · simp at hok

@[simp] theorem Tables.ids_insert (t : Tables) (id : String) (cells : List String) :
    (t.apply .User (.insert [id :: cells])).ids = t.ids ++ [id] := by
  simp [Tables.ids, Tables.apply, numbered]

/-- The turn in which registration `k` inserts its account. -/
theorem OneEach.insert_row (hs : OneEach db lib requests s) {id pw : String}
    (hk : s.stages[k]? = some (.insert id pw)) (cells : List String) (ok : Bool) :
    OneEach db lib requests
      { store := s.store.apply .User (.insert [id :: cells]), stages := s.stages.set k (.answer ok),
        log := s.log ++ [(k, ⟨.query_execute (.insertUser id pw), ok⟩)] } := by
  obtain ⟨haccount, -, -, hfree⟩ := hs.insert k id pw hk
  apply hs.turn hk (by simp)
  · rw [Tables.ids_insert, List.nodup_append]
    exact ⟨hs.nodup, List.nodup_singleton id, fun x hx y hy => by
      rw [List.mem_singleton.mp hy]; exact fun h => hfree (h ▸ hx)⟩
  · intro x hx
    rw [Tables.ids_insert]
    exact List.mem_append_left _ hx
  · intro j x pw' hjk hj hx
    rw [Tables.ids_insert] at hx
    rcases List.mem_append.mp hx with hx | hx
    · exact (hs.insert j x pw' hj).2.2.2 hx
    · rw [List.mem_singleton.mp hx] at hj
      exact hjk (hs.alone j k id pw' pw hj hk)
  · intro x pw' h
    cases h
    exact ⟨hfree, by simp, pw, haccount⟩
  · intro h
    cases h
    exact ⟨id, pw, by simp⟩
  · intro h
    cases h

/-- **The step**: a turn in order keeps it so. -/
theorem OneEach.step (server : Server) (hs : OneEach db lib requests s) {turn : ℕ × Meeting H}
    {s' : Registrations}
    (hg : InOrder db lib requests ((Registering.stages lib server).threads s) turn)
    (h : (Registering.stages lib server).staged db.perform s turn = some s') :
    OneEach db lib requests s' := by
  obtain ⟨k, meeting⟩ := turn
  obtain ⟨stage, e, after, hk, he, rfl⟩ := ((Registering.stages lib server).staged_eq_some _).mp h
  cases stage with
  | check id pw =>
    cases he
    obtain ⟨haccount, -⟩ := hs.check k id pw hk
    match hrows : db.store s.store meeting.db (Command.selectUserId id).text with
    | none =>
      rw [Database.perform_store hrows]
      exact hs.quiet hk (fun _ _ => ⟨nofun, nofun⟩) nofun (fun _ _ h => by cases h) nofun
    | some (row :: rows) =>
      rw [Database.perform_store hrows]
      exact hs.quiet hk (fun _ _ => ⟨nofun, nofun⟩) nofun (fun _ _ h => by cases h) nofun
    | some [] =>
      rw [Database.perform_store hrows]
      have hasks := (Registering.stages lib server).asks_threads hk rfl
      obtain ⟨hrec, halone⟩ := hg id pw haccount hasks hrows
      have hfree : id ∉ s.store.ids := fun hid => hrec.finds s.store meeting.db hid hrows
      exact hs.check_none hk hrec hfree halone
  | insert id pw =>
    cases he
    obtain ⟨-, hrec, -, -⟩ := hs.insert k id pw hk
    rcases hrec.adds s.store meeting.db with hnothing | ⟨cells, ok, hadds⟩
    · rw [Database.perform_execute rfl hnothing, Tables.apply_nothing]
      exact hs.quiet hk (fun _ _ => ⟨nofun, nofun⟩) nofun (fun _ _ h => by cases h) nofun
    · rw [Database.perform_execute rfl hadds]
      exact hs.insert_row hk cells ok
  | answer ok =>
    simp only [Registering.stages, Registering.next, Option.ite_none_right_eq_some] at he
    obtain ⟨-, he⟩ := he
    cases he
    have hclosed : ∀ sent, (∀ id pw, Registering.closed server sent ≠ .check id pw ∧
        Registering.closed server sent ≠ .insert id pw) ∧
        Registering.closed server sent ≠ .answer true := by
      intro sent
      unfold Registering.closed
      split <;> simp
    apply hs.quiet hk (hclosed _).1 (hclosed _).2 (fun _ _ h => by cases h)
    intro h
    simp only [Effect.send.injEq, NetPacket.mk.injEq, NetPacketGenerator.success_inj, true_and] at h
    rw [h] at hk
    exact hs.answer k hk
  | returned => cases he
  | failed => cases he

end Steps

variable {db lib requests}

/-- Registrations that start. -/
theorem oneEach_start {t : Tables} (ht : t.ids.Nodup) : OneEach db lib requests
    { store := t, stages := requests.map (Registering.start lib), log := [] } := by
  have hstart : ∀ (k : ℕ) stage, (requests.map (Registering.start lib))[k]? = some stage →
      stage = .failed ∨ ∃ id pw, accountOf lib requests k = some (id, pw) ∧
        stage = .check id pw := by
    intro k stage hk
    rw [List.getElem?_map, Option.map_eq_some_iff] at hk
    obtain ⟨strMsg, hmsg, rfl⟩ := hk
    simp only [Registering.start, accountOf, hmsg, Option.bind_some]
    cases InitControl.account lib strMsg with
    | none => exact Or.inl rfl
    | some account => exact Or.inr ⟨account.1, account.2, rfl, rfl⟩
  constructor
  case nodup => exact ht
  case check =>
    intro k id pw hk
    rcases hstart k _ hk with h | ⟨id', pw', haccount, h⟩
    · cases h
    · cases h
      exact ⟨haccount, nofun⟩
  case insert =>
    intro k id pw hk
    rcases hstart k _ hk with h | ⟨_, _, _, h⟩ <;> cases h
  case alone =>
    intro j k id pw pw' hj
    rcases hstart j _ hj with h | ⟨_, _, _, h⟩ <;> cases h
  case inserted => exact fun k id ⟨_, h⟩ => absurd h List.not_mem_nil
  case first => exact fun j k id ⟨_, h⟩ => absurd h List.not_mem_nil
  case answer =>
    intro k hk
    rcases hstart k _ hk with h | ⟨_, _, _, h⟩ <;> cases h
  case succeeded => exact fun k ⟨_, h⟩ => absurd h List.not_mem_nil

/-- What holds of the stages makes account ids unique. -/
theorem OneEach.uniqueIds {s : Registrations} (hs : OneEach db lib requests s) :
    UniqueIds lib requests ((Registering.stages lib server).threads s) := by
  refine ⟨hs.nodup, fun j k id pw pw' hj hk hsj hsk => ?_⟩
  have hid : ∀ i pw, accountOf lib requests i = some (id, pw) → Succeeded s.log i →
      Inserted s.log i id := by
    intro i pw hi hsi
    obtain ⟨id', hid'⟩ := hs.succeeded i hsi
    obtain ⟨-, pw', haccount⟩ := hs.inserted i id' hid'
    rw [hi] at haccount
    cases haccount
    exact hid'
  exact hs.first j k id (hid j pw hj hsj) (hid k pw' hk hsk)

/-- **Account ids stay unique** in every run of registrations whose turns are all in order. -/
theorem uniqueIds_of_run {t : Tables} (ht : t.ids.Nodup) {turns : List (ℕ × Meeting H)}
    {s : Handlers}
    (hg : db.handlers.Guarded (InOrder db lib requests) (registrations lib server requests t) turns)
    (hrun : db.handlers.exec (registrations lib server requests t) turns = some s) :
    UniqueIds lib requests s := by
  have hstart : registrations lib server requests t = (Registering.stages lib server).threads
      { store := t, stages := requests.map (Registering.start lib), log := [] } := by
    simp only [registrations, Handlers.start, Stages.threads, Registering.stages, List.map_map]
    congr 1
    exact List.map_congr_left fun strMsg _ => (Registering.program_start lib server strMsg).symm
  rw [hstart] at hg hrun
  obtain ⟨s', hs', rfl⟩ := (Registering.stages lib server).exec_inv db.perform
    (fun _ _ _ hs hg h => hs.step server hg h) (oneEach_start ht) hg hrun
  exact hs'.uniqueIds server

/-! ### Two registrations of one id -/

namespace TwoAccounts

/-- A message: account `1` with the password `p`. -/
def request : List UInt8 := "\x7b\"id\":\"1\",\"pw\":\"p\"\x7d".toUTF8.toList

/-- The library, on the messages of this example. -/
def nlohmann : Nlohmann where
  parse bytes := if bytes = request then some (.obj [("id", .str "1"), ("pw", .str "p")]) else none
  dump
    | .obj [("success", .str s)] => ("\x7b\"success\":\"" ++ s ++ "\"\x7d").toUTF8.toList
    | _ => []

/-- A database, on the statements of this example; it can be out of reach. -/
def database : Database Bool where
  store t up text :=
    if up ∧ text = "select id from User where id = 1" then
      some ((t.rows .User).filter fun row => row.cells.headD "" = "1")
    else none
  execute _ up text :=
    if up ∧ text = "insert into User(id, pw) values('1','p')" then
      (.insert [["1", "p", "NULL", "NULL"]], true)
    else (.nothing, false)

theorem recognises : database.Recognises "1" "p" := by
  have hselect : (Command.selectUserId "1").text = "select id from User where id = 1" := by rfl
  have hinsert :
      (Command.insertUser "1" "p").text = "insert into User(id, pw) values('1','p')" := by rfl
  constructor
  case finds =>
    intro t up hid
    obtain ⟨row, hrow, hcell⟩ := List.mem_map.mp hid
    simp only [database, hselect, and_true]
    cases up with
    | false => simp
    | true =>
      have hmem : row ∈ (t.rows .User).filter fun row => row.cells.headD "" = "1" :=
        List.mem_filter.mpr ⟨hrow, decide_eq_true hcell⟩
      simp only [if_true, ne_eq, Option.some.injEq]
      exact List.ne_nil_of_mem hmem
  case adds =>
    intro t up
    simp only [database, hinsert, and_true]
    cases up with
    | false => exact Or.inl rfl
    | true => exact Or.inr ⟨["p", "NULL", "NULL"], true, rfl⟩

/-- The registrations that are answered with success, in order. -/
def successes (log : List Entry) : List ℕ :=
  log.filterMap fun entry => match entry with
    | (k, ⟨.send ⟨.Register, .obj [("success", .str "true")]⟩, _⟩) => some k
    | _ => none

theorem succeeded_of_mem {log : List Entry} {k : ℕ} (h : k ∈ successes log) : Succeeded log k := by
  obtain ⟨entry, hentry, hk⟩ := List.mem_filterMap.mp h
  split at hk
  · cases hk
    exact ⟨_, hentry⟩
  · cases hk

/-- The turns in which both look for the id before either inserts it. -/
def race : List (ℕ × Meeting Bool) := [0, 1, 0, 1, 0, 1].map fun k => (k, calm true)

/-- **Two accounts with one id**: the two registrations both find none, both insert one and are
both answered with success. -/
theorem race_doubles : database.Recognises "1" "p" ∧ ∃ s,
    database.handlers.exec (registrations nlohmann .boost [request, request] initDataBase) race =
      some s ∧
      s.store.ids = ["1", "1"] ∧ Succeeded s.log 0 ∧ Succeeded s.log 1 ∧
      ¬ UniqueIds nlohmann [request, request] s := by
  have hrun :
      (database.handlers.exec (registrations nlohmann .boost [request, request] initDataBase)
        race).map (fun s => (s.store.ids, successes s.log)) = some (["1", "1"], [0, 1]) := by
    decide +kernel
  obtain ⟨s, hs, hout⟩ := Option.map_eq_some_iff.mp hrun
  obtain ⟨hids, hlog⟩ := Prod.mk.inj hout
  refine ⟨recognises, s, hs, hids, succeeded_of_mem (by simp [hlog]),
    succeeded_of_mem (by simp [hlog]), ?_⟩
  intro h
  have hrows := h.rows
  rw [hids] at hrows
  simp at hrows

/-- A thread is about to query the database. -/
def querying (s : Handlers) (k : ℕ) : Bool :=
  match s.threads[k]? with
  | some (.call (.query_store _) _) => true
  | _ => false

/-- A turn is plainly in order: it is the first of all, or it is not a query, or the id is found. -/
def Plain (s : Handlers) (turn : ℕ × Meeting Bool) : Prop :=
  s.log.isEmpty = true ∨ querying s turn.1 = false ∨
    database.store s.store turn.2.db "select id from User where id = 1" ≠ some []

instance (s : Handlers) (turn : ℕ × Meeting Bool) : Decidable (Plain s turn) :=
  inferInstanceAs (Decidable (_ ∨ _ ∨ _))

theorem inOrder_of_plain (s : Handlers) (turn : ℕ × Meeting Bool) (h : Plain s turn) :
    InOrder database nlohmann [request, request] s turn := by
  have haccount : ∀ k account, accountOf nlohmann [request, request] k = some account →
      account = ("1", "p") := by
    intro k account hk
    have hrequest : InitControl.account nlohmann request = some ("1", "p") := by decide +kernel
    match k with
    | 0 | 1 => exact Option.some.inj (hk.symm.trans hrequest)
    | k + 2 => cases hk
  intro id pw hk hasks hstore
  cases haccount _ _ hk
  refine ⟨recognises, fun k pw' _ hchecked => ?_⟩
  rcases h with h | h | h
  · rw [List.isEmpty_iff] at h
    obtain ⟨⟨id, hid⟩, -⟩ := hchecked
    rw [h] at hid
    exact List.not_mem_nil hid
  · obtain ⟨next, hnext⟩ := hasks
    simp [querying, hnext] at h
  · exact h hstore

/-- The turns in which one registration is answered before the other looks. -/
theorem uniqueIds_of_run_in_turn : ∃ s, database.handlers.exec
    (registrations nlohmann .boost [request, request] initDataBase)
    ([0, 0, 0, 1, 1].map fun k => (k, calm true)) = some s ∧
      UniqueIds nlohmann [request, request] s := by
  have hrun :
      (database.handlers.exec (registrations nlohmann .boost [request, request] initDataBase)
        ([0, 0, 0, 1, 1].map fun k => (k, calm true))).isSome = true := by
    decide +kernel
  obtain ⟨s, hs⟩ := Option.isSome_iff_exists.mp hrun
  refine ⟨s, hs, uniqueIds_of_run .boost (by decide) ?_ hs⟩
  apply Machine.Guarded.mono _ inOrder_of_plain
  decide +kernel

end TwoAccounts

end PickUpLight.Store
