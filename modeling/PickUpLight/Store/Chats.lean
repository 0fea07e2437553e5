import Mathlib.Data.Set.List
import PickUpLight.Control.Dispatch
import PickUpLight.Control.JsonText
import PickUpLight.Store.Toggles

/-!
# Chat histories

`send_info` selects the messages from one user to another and back, and makes one table of the two
selections. `union` keeps equal rows once, and a message has no key: one that is sent twice within a
second is there once. The ids are compared as numbers, so messages of a user whose id has the
same value are there as well.
-/

namespace PickUpLight.Store

open PickUpLight.Theory PickUpLight.Control PickUpLight.Wire PickUpLight.Sql

/-- A message that is stored. -/
structure Chat where
  sendId : String
  receiveId : String
  type : MessageType
  message : String
  /-- When it was stored, to the second. -/
  time : String
  deriving DecidableEq, Repr

namespace Chat

/-- The row of a message. -/
def cells (c : Chat) : Cells := [c.sendId, c.receiveId, toString c.type.code, c.message, c.time]

/-- How long that is. -/
def length (c : Chat) : ℕ :=
  objLength [("sendId", strLength c.sendId), ("receiveId", strLength c.receiveId),
    ("messageType", strLength (toString c.type.code)), ("content", strLength c.message),
      ("time", strLength c.time)]

/-- The message is from one of two users to the other. -/
def Between (u v : String) (c : Chat) : Prop :=
  c.sendId = u ∧ c.receiveId = v ∨ c.sendId = v ∧ c.receiveId = u

instance (u v : String) (c : Chat) : Decidable (c.Between u v) :=
  inferInstanceAs (Decidable (_ ∨ _))

end Chat

/-! ### The query -/

section Query

variable {u v : String}

theorem parse_selectMessages (hu : IsNumber u) (hv : IsNumber v) :
    parse (Control.Command.selectMessages u v).text =
      some (.query (.union ⟨"Message", [⟨"sendId", u⟩, ⟨"receiveId", v⟩]⟩
        ⟨"Message", [⟨"sendId", v⟩, ⟨"receiveId", u⟩]⟩ "time")) :=
  parse_template (.number (.number (.number (.number (.code rfl) hu rfl rfl) hv rfl rfl) hv rfl rfl)
    hu rfl rfl) rfl rfl

theorem answers_selectMessages (t : Tables) (equals : String → String → Bool) :
    (Query.union ⟨"Message", [⟨"sendId", u⟩, ⟨"receiveId", v⟩]⟩
      ⟨"Message", [⟨"sendId", v⟩, ⟨"receiveId", u⟩]⟩
      "time").answers schema equals t.contents =
    .does fun answer => answer.Nodup ∧
      (∀ row, row ∈ answer ↔ row ∈ (t.cells .Message).filter (meets equals [(0, u), (1, v)]) ∨
        row ∈ (t.cells .Message).filter (meets equals [(0, v), (1, u)])) ∧
      Descending (some 4) answer := rfl

end Query

/-! ### The reply -/

/-- The two users a request asks about. -/
def messageQuery (lib : Nlohmann) (buf : List UInt8) : Option (String × String) :=
  (lib.parse buf).bind fun jsonMsg => (jsonMsg.enum "infotype").bind fun infotype =>
    if InfoType.ofCode infotype = some .Message then
      (jsonMsg.string "userId1").bind fun userId1 => (jsonMsg.string "userId2").map fun userId2 =>
        (userId1, userId2)
    else none

variable {lib : Nlohmann} {server : Server} {buf : List UInt8} {u v : String} {chats : List Chat}

theorem send_info_message (h : messageQuery lib buf = some (u, v)) :
    SendInfoControl.send_info lib server buf =
    SendInfoControl.sendList server (.selectMessages u v) SendInfoControl.toJson_MessageInfo
      (NetPacketGenerator.sendMessageInfo_P lib) := by
  simp only [messageQuery, Option.bind_eq_some_iff] at h
  obtain ⟨jsonMsg, hparse, infotype, hinfo, h⟩ := h
  split at h
  · rename_i htype
    simp only [Option.bind_eq_some_iff, Option.map_eq_some_iff, Prod.mk.injEq] at h
    obtain ⟨userId1, hu, userId2, hv, rfl, rfl⟩ := h
    simp only [SendInfoControl.send_info, hparse, hinfo, Program.ofOption_some, Program.ret_bind,
      htype, SendInfoControl.answer, Handler.str_eq hu, Handler.str_eq hv]
  · cases h

section Reply

variable {H : Type} {db : Database H} {now : H → String} {equals : String → String → Bool}
  {t : Tables} {m : Meeting H}

end Reply

/-! ### A message that is sent twice within a second -/

namespace SentTwice

/-- User `1` says hello to user `2`. -/
def hello : List UInt8 :=
  "\x7b\"messagetype\":2,\"sendId\":\"1\",\"receiveId\":\"2\",\"content\":\"hello\"\x7d".toUTF8.toList

/-- User `2` asks for the messages. -/
def ask : List UInt8 := "\x7b\"infotype\":12,\"userId1\":\"2\",\"userId2\":\"1\"\x7d".toUTF8.toList

/-- The library, on the requests of this example. -/
def nlohmann : Nlohmann where
  parse bytes :=
    if bytes = hello then
      some (.obj [("messagetype", .int 2), ("sendId", .str "1"), ("receiveId", .str "2"),
        ("content", .str "hello")])
    else if bytes = ask then
      some (.obj [("infotype", .int 12), ("userId1", .str "2"), ("userId2", .str "1")])
    else none
  dump := Json.text

/-- What the requests meet. -/
def now : Meeting Moment := calm { up := true, now := "2025-01-01 00:00:00" }

/-- The handler of these requests. -/
abbrev handler : List UInt8 → Handler Unit := chat nlohmann

/-- The message, as it is stored. -/
def stored : Chat := ⟨"1", "2", .Characters, "hello", "2025-01-01 00:00:00"⟩

theorem asked : messageQuery nlohmann ask = some ("2", "1") := by decide +kernel

theorem numbers : ∀ c ∈ [stored, stored], IsNumber c.sendId ∧ IsNumber c.receiveId := by
  intro c hc
  obtain rfl : c = stored := by simpa using hc
  exact ⟨isNumber_iff.mp rfl, isNumber_iff.mp rfl⟩

theorem answered (t : Tables) : mysql.store t now.db (Control.Command.selectMessages "2" "1").text ≠
      none :=
  mysql_store_ne_none rfl (parse_selectMessages (isNumber_iff.mp rfl) (isNumber_iff.mp rfl))
    (answers_selectMessages t equalNumbers)

end SentTwice

end PickUpLight.Store
