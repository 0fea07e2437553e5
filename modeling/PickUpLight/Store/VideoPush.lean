import PickUpLight.Control.ReceiveFileControl
import PickUpLight.Control.SendInfoControl
import PickUpLight.Store.Database
import PickUpLight.Theory.Roster

/-!
# Video pushes

`receive_file` inserts a row into `VideoPush` for each follower of the publisher. `send_info`
selects the rows of a user, looks for the publisher of each video, sends them all, and
deletes the rows of the user. Nothing holds these statements together: what is inserted
after the query is deleted with the rest, and two fetches of one user select the same rows.
-/

namespace PickUpLight.Store

open PickUpLight.Theory PickUpLight.Theory.Roster PickUpLight.Control PickUpLight.Wire

/-! ### Pushes and replies -/

/-- The user a row of `VideoPush` is for, its first column. -/
def userOf (row : Row) : String := row.cells.headD ""

/-- The rows of `VideoPush` that are for a user. -/
def Tables.pushes (t : Tables) (userId : String) : List Row :=
  (t.rows .VideoPush).filter fun row => userOf row = userId

/-- A row of `VideoPush` as the query for its video answers it. -/
def videoColumn (row : Row) : Row where
  number := row.number
  cells := row.cells.drop 1

/-- The videos of a reply, in order. -/
def videoIds (videos : Json) : List String :=
  match videos with
  | .arr items => items.map fun video => (video.string "videoId").getD ""
  | _ => []

theorem videoIds_push_back (videos video : Json) :
    videoIds (videos.push_back video) = videoIds videos ++ [(video.string "videoId").getD ""] := by
  cases videos <;> simp [videoIds, Json.push_back]

/-- The packet of a reply. -/
def pushPacket (videos : Json) : NetPacket where
  purpose := .GetInfo
  message := NetPacketGenerator.info .VideoPush "videos" videos

/-- What a thread has asked and been answered. -/
abbrev History := List ((e : Effect) × e.Answer)

/-- The history of thread `k`. -/
def historyOf (log : List Entry) (k : ℕ) : History :=
  log.filterMap fun entry => if entry.1 = k then some entry.2 else none

@[simp] theorem mem_historyOf {log : List Entry} {k : ℕ} {x : (e : Effect) × e.Answer} :
    x ∈ historyOf log k ↔ (k, x) ∈ log := by
  simp only [historyOf, List.mem_filterMap, Option.ite_none_right_eq_some, Option.some.injEq]
  constructor
  · rintro ⟨⟨j, y⟩, hmem, rfl, rfl⟩
    exact hmem
  · exact fun hmem => ⟨(k, x), hmem, rfl, rfl⟩

theorem historyOf_append_self (log : List Entry) (k : ℕ) (x : (e : Effect) × e.Answer) :
    historyOf (log ++ [(k, x)]) k = historyOf log k ++ [x] := by
  simp [historyOf]

theorem historyOf_append_ne (log : List Entry) {j k : ℕ} (h : k ≠ j) (x : (e : Effect) × e.Answer) :
    historyOf (log ++ [(k, x)]) j = historyOf log j := by
  simp [historyOf, h]

/-- The selection of the pushes of a user. -/
def selection (userId : String) (rows : List Row) : (e : Effect) × e.Answer :=
  ⟨.query_store (.selectVideoPush userId), some rows⟩

/-- A reply, and whether it has been sent. -/
def reply (videos : Json) (ok : Bool) : (e : Effect) × e.Answer := ⟨.send (pushPacket videos), ok⟩

/-- The first column of an answer. -/
def column (rows : List Row) : List String := rows.map fun row => row.cells.headD ""

/-- A thread with this history has put a row into a reply: it has selected it, among others, and
has sent a reply that lists the videos of the rows it selected. -/
def Delivers (h : History) (row : Row) : Prop :=
  ∃ userId rows videos, selection userId rows ∈ h ∧ reply videos true ∈ h ∧
    videoIds videos = column rows ∧ row.number ∈ rows.map Row.number

/-! ### Fetches and uploads -/

/-- A request that has to do with pushes. -/
inductive Task where
  /-- `send_info`. -/
  | fetch (server : Server) (buf : List UInt8)
  /-- `receive_file`. -/
  | upload (server : Server) (fileInfo fileData : List UInt8)

section Model

variable (lib : Nlohmann)

/-- The handler of a request. -/
def Task.handler : Task → Handler Unit
  | .fetch server buf => SendInfoControl.send_info lib server buf
  | .upload server fileInfo fileData => ReceiveFileControl.receive_file lib server fileInfo fileData

/-- The message of a `VideoPush` fetch. -/
def pushQuery (buf : List UInt8) : Option Json :=
  (lib.parse buf).bind fun jsonMsg => (jsonMsg.enum "infotype").bind fun infotype =>
    if InfoType.ofCode infotype = some .VideoPush then some jsonMsg else none

/-- The request is a `VideoPush` fetch, or an upload. -/
def Task.IsPush : Task → Prop
  | .fetch _ buf => (pushQuery lib buf).isSome
  | .upload .. => True

/-- The user a fetch is for. -/
def Task.user : Task → Option String
  | .fetch _ buf => (pushQuery lib buf).bind fun jsonMsg => jsonMsg.string "userId"
  | .upload .. => none

/-- The server a request has come to. -/
def Task.server : Task → Server
  | .fetch server _ | .upload server _ _ => server

variable (tasks : List Task)

/-- The handlers of these requests, each on a thread of its own. -/
def pushing (t : Tables) : Handlers := Handlers.start t (tasks.map (Task.handler lib))

/-- Exactly once: a row that was in `VideoPush` is still there, or it is in a reply to its user;
and it is not in the replies of two threads. -/
structure ExactlyOnce (before after : Handlers) : Prop where
  kept : ∀ row ∈ before.store.rows .VideoPush, row ∈ after.store.rows .VideoPush ∨
    ∃ k task, tasks[k]? = some task ∧ task.user lib = some (userOf row) ∧
      Delivers (historyOf after.log k) row
  once : ∀ row ∈ before.store.rows .VideoPush, ∀ j k, Delivers (historyOf after.log j) row →
    Delivers (historyOf after.log k) row → j = k

/-- Thread `k` has selected pushes of a user and has still to delete them. -/
def Open (s : Handlers) (k : ℕ) (userId : String) : Prop :=
  (∃ rows, rows ≠ [] ∧ (k, selection userId rows) ∈ s.log) ∧
    (∀ ok, (k, ⟨.query_execute (.deleteVideoPush userId), ok⟩) ∉ s.log) ∧ ∃ e, s.asks k e

end Model

variable {H : Type} (db : Database H) (lib : Nlohmann) (tasks : List Task)

/-- A turn is in order. -/
structure Orderly (s : Handlers) (turn : ℕ × Meeting H) : Prop where
  /-- A query for the pushes of a user fails, or answers them, in which case no other fetch of the
  user is between its query and its deletion. -/
  select : ∀ userId, s.asks turn.1 (.query_store (.selectVideoPush userId)) →
    db.store s.store turn.2.db (Command.selectVideoPush userId).text = none ∨
    db.store s.store turn.2.db (Command.selectVideoPush userId).text =
        some ((s.store.pushes userId).map videoColumn) ∧
      (s.store.pushes userId ≠ [] → ∀ k, ¬ Open s k userId)
  /-- An insertion of a push adds nothing, or the row it says, in which case no fetch of the user is
  between its query and its deletion. -/
  insert : ∀ userId videoId, s.asks turn.1 (.query_execute (.insertVideoPush userId videoId)) →
    (db.execute s.store turn.2.db (Command.insertVideoPush userId videoId).text).1 = .nothing ∨
    (db.execute s.store turn.2.db (Command.insertVideoPush userId videoId).text).1 =
        .insert [[userId, videoId]] ∧ ∀ k, ¬ Open s k userId
  /-- A deletion of the pushes of a user deletes them, and no others. -/
  delete : ∀ userId, s.asks turn.1 (.query_execute (.deleteVideoPush userId)) →
    ∃ meets, (db.execute s.store turn.2.db (Command.deleteVideoPush userId).text).1 =
      .delete meets ∧
      ∀ row ∈ s.store.rows .VideoPush, meets row = true ↔ userOf row = userId
  /-- A reply of `MyServer` is sent, for `my_send`'s failure is not looked at. -/
  send : ∀ task videos, tasks[turn.1]? = some task → task.server = .epoll →
    s.asks turn.1 (.send (pushPacket videos)) → turn.2.answer (.send (pushPacket videos)) = true

/-! ### The stages of a fetch -/

/-- Where a request is. -/
inductive Pushing where
  /-- An upload, with what it has still to do. -/
  | upload (p : Handler Unit)
  /-- It selects the pushes of a user. -/
  | select (server : Server) (userId : String)
  /-- It looks for the publishers of the videos of `rest`, and then sends the reply. -/
  | look (server : Server) (userId : String) (rest : List Row) (video videos : Json)
  /-- It deletes the pushes. -/
  | delete (userId : String)
  /-- There are none, and it says so. -/
  | empty (server : Server)
  /-- It has returned. -/
  | returned
  /-- It has failed. -/
  | failed

namespace Pushing

def program : Pushing → Handler Unit
  | upload p => p
  | select server userId => SendInfoControl.sendVideoPush lib server userId
  | look server userId rest video videos =>
    Program.loop SendInfoControl.pushedVideo (video, videos) rest >>= fun acc =>
      SendInfoControl.sendPushes lib server userId acc.2
  | delete userId => Handler.query_execute (.deleteVideoPush userId) >>= fun _ => Program.ret ()
  | empty server => NetPacketGenerator.sendVideoPushInfo_P lib .null >>= Handler.send server
  | returned => Program.ret ()
  | failed => Program.fail

/-- The reply fits into a packet. -/
def fits (videos : Json) : Bool := NetPacketGenerator.fits lib (pushPacket videos).message

/-- After a reply: `stage`, unless `write` has thrown. -/
def sent (server : Server) (stage : Pushing) (ok : Bool) : Pushing :=
  if server = .boost ∧ ok = false then failed else stage

/-- Once the pushes are selected. -/
def selected (server : Server) (userId : String) : Option (List Row) → Pushing
  | some [] => empty server
  | some rows => look server userId rows .null .null
  | none => returned

/-- Once the publisher of a video is looked for. -/
def looked (server : Server) (userId : String) (rest : List Row) (video videos : Json) :
    Option (List Row) → Pushing
  | some (row :: _) =>
    match row.cells[0]? with
    | some publisherId =>
      let video := video.set "publisherId" (.str publisherId)
      look server userId rest video (videos.push_back video)
    | none => failed
  | _ => look server userId rest video (videos.push_back video)

def next : Pushing → Option ((e : Effect) × (e.Answer → Pushing))
  | upload (.call e after) => some ⟨e, fun r => upload (after r)⟩
  | select server userId => some ⟨.query_store (.selectVideoPush userId), selected server userId⟩
  | look server userId (row :: rest) video videos =>
    match row.cells[0]? with
    | some videoId => some ⟨.query_store (.selectPublisher videoId),
        looked server userId rest (video.set "videoId" (.str videoId)) videos⟩
    | none => none
  | look server userId [] _ videos =>
    if fits lib videos then some ⟨.send (pushPacket videos), sent server (delete userId)⟩ else none
  | delete userId => some ⟨.query_execute (.deleteVideoPush userId), fun _ => returned⟩
  | empty server =>
    if fits lib .null then some ⟨.send (pushPacket .null), sent server returned⟩ else none
  | _ => none

theorem program_sent (server : Server) (stage : Pushing) (ok : Bool) :
    program lib (sent server stage ok) =
      (Handler.sent server ok >>= fun _ => program lib stage) := by
  unfold sent Handler.sent
  split <;> rfl

theorem program_empty (server : Server) : program lib (empty server) =
    if fits lib .null then Program.call (.send (pushPacket .null)) fun ok =>
      program lib (sent server returned ok)
    else Program.fail := by
  have hsent : ∀ ok, program lib (sent server returned ok) = Handler.sent server ok := by
    intro ok
    unfold sent Handler.sent
    split <;> rfl
  simp only [hsent]
  exact NetPacketGenerator.packet_bind lib _ _ _

theorem program_look_nil (server : Server) (userId : String) (video videos : Json) :
    program lib (look server userId [] video videos) =
      if fits lib videos then Program.call (.send (pushPacket videos)) fun ok =>
        program lib (sent server (delete userId) ok)
      else Program.fail := by
  simp only [program_sent]
  exact NetPacketGenerator.packet_bind lib _ _ _

theorem program_looked (server : Server) (userId : String) (rest : List Row) (video videos : Json)
    (rows : Option (List Row)) :
    program lib (looked server userId rest video videos rows) =
      SendInfoControl.withPublisher video videos rows >>= fun acc =>
        program lib (look server userId rest acc.1 acc.2) := by
  match rows with
  | none => rfl
  | some [] => rfl
  | some (row :: _) =>
    simp only [looked, SendInfoControl.withPublisher, Handler.cell]
    cases row.cells[0]? <;> rfl

theorem program_look_cons (server : Server) (userId : String) (row : Row) (rest : List Row)
    (video videos : Json) :
    program lib (look server userId (row :: rest) video videos) =
      match row.cells[0]? with
      | some videoId => Program.call (.query_store (.selectPublisher videoId)) fun rows =>
        program lib (looked server userId rest (video.set "videoId" (.str videoId)) videos rows)
      | none => Program.fail := by
  simp only [program_looked]
  simp only [program, Program.loop_cons, SendInfoControl.pushedVideo, Handler.cell,
    Program.bind_assoc]
  cases row.cells[0]? <;> rfl

/-- The stages of these requests. -/
def stages : Stages Effect Effect.Answer Unit Pushing where
  program := program lib
  next := next lib
  program_of_some := by
    intro s e after he
    cases s with
    | upload p =>
      cases p with
      | call e' after' => cases he; rfl
      | ret a => cases he
      | fail => cases he
    | select server userId =>
      cases he
      apply congrArg (Program.call _)
      funext rows
      match rows with
      | none => rfl
      | some [] => rfl
      | some (_ :: _) => rfl
    | look server userId rest video videos =>
      cases rest with
      | nil =>
        simp only [next, Option.ite_none_right_eq_some] at he
        obtain ⟨hfits, he⟩ := he
        cases he
        rw [program_look_nil, if_pos hfits]
      | cons row rest =>
        rw [program_look_cons]
        simp only [next] at he
        split at he
        · cases he; rfl
        · cases he
    | delete userId => cases he; rfl
    | empty server =>
      simp only [next, Option.ite_none_right_eq_some] at he
      obtain ⟨hfits, he⟩ := he
      cases he
      rw [program_empty, if_pos hfits]
    | returned => cases he
    | failed => cases he
  program_of_none := by
    intro s he e after
    cases s with
    | upload p =>
      cases p with
      | call e' after' => cases he
      | ret a => exact fun h => by cases h
      | fail => exact fun h => by cases h
    | select server userId => cases he
    | look server userId rest video videos =>
      cases rest with
      | nil =>
        simp only [next, ite_eq_right_iff, reduceCtorEq, imp_false] at he
        rw [program_look_nil, if_neg he]
        exact fun h => by cases h
      | cons row rest =>
        rw [program_look_cons]
        simp only [next] at he
        split at he
        · cases he
        · exact fun h => by cases h
    | delete userId => cases he
    | empty server =>
      simp only [next, ite_eq_right_iff, reduceCtorEq, imp_false] at he
      rw [program_empty, if_neg he]
      exact fun h => by cases h
    | returned => exact fun h => by cases h
    | failed => exact fun h => by cases h

end Pushing

end PickUpLight.Store
