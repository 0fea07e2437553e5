import PickUpLight.Control.Lengths
import PickUpLight.Control.ModifyInfoControl
import PickUpLight.Control.SendInfoControl
import PickUpLight.Store.MySql

/-!
# Requests one after another

Handlers that run to their end before the next one starts, on the tables of a database: what the
tables are after a sequence of requests, and what a later request is answered.
-/

namespace PickUpLight.Store

open PickUpLight.Theory PickUpLight.Control PickUpLight.Wire

variable {H ρ : Type}

/-- A handler on the tables, with what its effects meet: what it has asked and been answered, and
the tables afterwards. -/
def Database.handle (db : Database H) (m : Meeting H) (p : Handler Unit) (t : Tables) :
    List ((e : Effect) × e.Answer) × Tables :=
  let run := p.run (fun t e => db.perform t e m) t
  (run.1, run.2.1)

/-- **Requests one after another**, each with what it meets. -/
def Database.serving (db : Database H) (handler : ρ → Handler Unit) :
    Machine Tables (ρ × Meeting H) :=
  fun t request => some (db.handle request.2 (handler request.1) t).2

/-- A statement has failed. -/
def failed : (e : Effect) × e.Answer → Bool
  | ⟨.query_store _, none⟩ => true
  | ⟨.query_execute _, ok⟩ => !ok
  | _ => false

/-- No statement of the request fails, but for some. -/
def Database.Succeeds (db : Database H) (handler : ρ → Handler Unit) (excused : Command → Prop)
    (t : Tables) (request : ρ × Meeting H) : Prop :=
  ∀ x ∈ (db.handle request.2 (handler request.1) t).1, failed x = true →
    ∃ command ok, x = ⟨.query_execute command, ok⟩ ∧ excused command

/-- No statement of the request fails. -/
def Database.Smooth (db : Database H) (handler : ρ → Handler Unit) (t : Tables)
    (request : ρ × Meeting H) :
    Prop :=
  (db.handle request.2 (handler request.1) t).1.any failed = false

instance (db : Database H) (handler : ρ → Handler Unit) (t : Tables) (request : ρ × Meeting H) :
    Decidable (db.Smooth handler t request) :=
  inferInstanceAs (Decidable (_ = _))

theorem Database.Smooth.succeeds {db : Database H} {handler : ρ → Handler Unit}
    {excused : Command → Prop} {t : Tables} {request : ρ × Meeting H}
    (h : db.Smooth handler t request) :
    db.Succeeds handler excused t request := by
  intro x hx hfailed
  rw [List.any_eq_false.mp h x hx |> Bool.eq_false_iff.mpr] at hfailed
  cases hfailed

/-- The packet of an entry of a history. -/
def packetOf : (e : Effect) × e.Answer → Option NetPacket
  | ⟨.send p, _⟩ => some p
  | _ => none

/-- **What a handler replies.** -/
def Database.replies (db : Database H) (m : Meeting H) (p : Handler Unit) (t : Tables) :
    List NetPacket :=
  (db.handle m p t).1.filterMap packetOf

/-- A handler on the tables, every effect of which meets something else: the first one `ms n`. -/
def Database.attend (db : Database H) (ms : ℕ → Meeting H) (n : ℕ) (p : Handler Unit) (t : Tables) :
    List ((e : Effect) × e.Answer) × Tables :=
  let run :=
    p.run (fun s e => (((db.perform s.1 e (ms s.2)).1, s.2 + 1), (db.perform s.1 e (ms s.2)).2))
      (t, n)
  (run.1, run.2.1.1)

/-- What it replies. -/
def Database.sends (db : Database H) (ms : ℕ → Meeting H) (n : ℕ) (p : Handler Unit) (t : Tables) :
    List NetPacket :=
  (db.attend ms n p t).1.filterMap packetOf

variable {db : Database H} {m : Meeting H} {t : Tables} {command : Command}

theorem handle_call (e : Effect) (next : e.Answer → Handler Unit) :
    db.handle m (.call e next) t =
      (⟨e, (db.perform t e m).2⟩ ::
      (db.handle m (next (db.perform t e m).2) (db.perform t e m).1).1,
        (db.handle m (next (db.perform t e m).2) (db.perform t e m).1).2) := rfl

/-- A handler that makes one statement, and does not look at what comes of it. -/
theorem handle_statement :
    db.handle m (Handler.query_execute command >>= fun _ => Program.ret ()) t =
      ([⟨.query_execute command, (db.perform t (.query_execute command) m).2⟩],
        (db.perform t (.query_execute command) m).1) := rfl

/-! ### Replies -/

section Replies

variable {lib : Nlohmann} {server : Server}

theorem replies_call {e : Effect} (he : packetOf ⟨e, (db.perform t e m).2⟩ = none)
    (next : e.Answer → Handler Unit) :
    db.replies m (.call e next) t =
      db.replies m (next (db.perform t e m).2) (db.perform t e m).1 := by
  rw [Database.replies, handle_call, List.filterMap_cons_none he]
  rfl

theorem replies_query {rows : Option (List Row)} (hrows : db.store t m.db command.text = rows)
    (next : Option (List Row) → Handler Unit) :
    db.replies m (Handler.query_store command >>= next) t = db.replies m (next rows) t := by
  rw [Handler.query_store, Handler.perform_bind, replies_call rfl, Database.perform_store hrows]

/-- What is sent is the reply; nothing more is sent. -/
theorem replies_send (p : NetPacket) : db.replies m (Handler.send server p) t = [p] := by
  rw [Handler.send, Handler.perform_bind, Database.replies, handle_call, List.filterMap_cons]
  simp only [packetOf]
  congr 1
  unfold Handler.sent
  split <;> rfl

/-- A packet is sent if its message fits into it. -/
theorem replies_packet (purpose : Purpose) (message : Json) :
    db.replies m (NetPacketGenerator.packet lib purpose message >>= Handler.send server) t =
      if NetPacketGenerator.fits lib message then [⟨purpose, message⟩] else [] := by
  rw [NetPacketGenerator.packet_bind]
  split
  · exact replies_send _
  · rfl

/-- A packet that has been sent if its message fits is the packet that has been sent. -/
theorem sent_eq {purpose : Purpose} {message message' : Json}
    (h : (if NetPacketGenerator.fits lib message then [⟨purpose, message⟩] else []) =
      ([⟨purpose, message'⟩] : List NetPacket)) : NetPacketGenerator.fits lib message = true ∧
      message = message' := by
  split_ifs at h with hfits
  · cases h
    exact ⟨hfits, rfl⟩

/-- **The reply to a query that is a list.** -/
theorem replies_sendList {item : Row → Handler Json} {f : Row → Json} {rows : List Row}
    {packet : Json → Handler NetPacket} {message : Json → Json}
    (hpacket : ∀ j, packet j = NetPacketGenerator.packet lib .GetInfo (message j))
    (hrows : db.store t m.db command.text = some rows)
    (hitem : ∀ row ∈ rows, item row = Program.ret (f row)) :
    db.replies m (SendInfoControl.sendList server command item packet) t =
      if NetPacketGenerator.fits lib (message (listOf (rows.map f))) then
        [⟨.GetInfo, message (listOf (rows.map f))⟩]
      else [] := by
  rw [SendInfoControl.sendList, replies_query hrows]
  simp only
  rw [show Json.null = listOf [] from rfl, loop_push hitem [], Program.ret_bind, List.nil_append,
    hpacket]
  exact replies_packet _ _

/-- The same, of objects that are read off the rows. -/
theorem replies_toJson {columns : List (String × ℕ)} {rows : List Row}
    {packet : Json → Handler NetPacket} {message : Json → Json} (hne : columns ≠ [])
    (hkeys : (columns.map Prod.fst).Nodup)
    (hpacket : ∀ j, packet j = NetPacketGenerator.packet lib .GetInfo (message j))
    (hrows : db.store t m.db command.text = some rows)
    (hcells : ∀ cells ∈ rows.map Row.cells, ∀ column ∈ columns, column.2 < cells.length) :
    db.replies m (SendInfoControl.sendList server command (SendInfoControl.toJson columns) packet)
      t =
      if NetPacketGenerator.fits lib
      (message (listOf ((rows.map Row.cells).map (rowObject columns)))) then
        [⟨.GetInfo, message (listOf ((rows.map Row.cells).map (rowObject columns)))⟩]
      else [] := by
  rw [replies_sendList hpacket hrows fun row hrow => toJson_eq hne
    (hcells _ (List.mem_map_of_mem hrow)) hkeys, List.map_map]
  rfl

/-- **The reply to a query that is about its first row.** -/
theorem replies_sendFirst {item : Row → Handler Json} {info : Json} {row : Row} {rows : List Row}
    {packet : Json → Handler NetPacket} {message : Json → Json}
    (hpacket : ∀ j, packet j = NetPacketGenerator.packet lib .GetInfo (message j))
    (hrows : db.store t m.db command.text = some (row :: rows))
    (hitem : item row = Program.ret info) :
    db.replies m (SendInfoControl.sendFirst server command item packet) t =
      if NetPacketGenerator.fits lib (message info) then [⟨.GetInfo, message info⟩] else [] := by
  rw [SendInfoControl.sendFirst, replies_query hrows]
  simp only
  rw [hitem, Program.ret_bind, hpacket]
  exact replies_packet _ _

end Replies

section Sends

variable {ms : ℕ → Meeting H} {n : ℕ}

theorem attend_call (e : Effect) (next : e.Answer → Handler Unit) :
    db.attend ms n (.call e next) t =
      (⟨e, (db.perform t e (ms n)).2⟩ ::
          (db.attend ms (n + 1) (next (db.perform t e (ms n)).2) (db.perform t e (ms n)).1).1,
        (db.attend ms (n + 1) (next (db.perform t e (ms n)).2) (db.perform t e (ms n)).1).2) := rfl

theorem sends_query (next : Option (List Row) → Handler Unit) :
    db.sends ms n (Handler.query_store command >>= next) t =
      db.sends ms (n + 1) (next (db.store t (ms n).db command.text)) t := by
  rw [Handler.query_store, Handler.perform_bind, Database.sends, attend_call,
    List.filterMap_cons_none rfl]
  rfl

/-- What is sent is a reply, and the only one if none comes after it. -/
theorem sends_send {p : NetPacket} {next : Bool → Handler Unit}
    (hnext : ∀ ok, db.sends ms (n + 1) (next ok) t = []) :
    db.sends ms n (.call (.send p) next) t = [p] := by
  rw [Database.sends, attend_call, List.filterMap_cons]
  exact congrArg (p :: ·) (hnext _)

end Sends

end PickUpLight.Store
