import PickUpLight.Control.Dispatch
import PickUpLight.Library.Nlohmann
import PickUpLight.Replies.Files
import PickUpLight.Theory.Surroundings

/-!
# Replies are read back

Whatever a handler sends, its message is a value the library can hold, without numbers that are not
integers (`Written`): the client that parses it has the message (`replies_read_back`). The number of
likes is taken to be one of an `int`, as it is converted to one.
-/

namespace PickUpLight.Replies

open PickUpLight.Theory PickUpLight.Wire PickUpLight.Control PickUpLight.Library Handler
open Program (MeetsGiven run)
open ReceiveFileControl (isType)

/-! ### What is sent -/

/-- The value that a packet has the text of. -/
def messageOf : Effect → Option Json
  | .send p => some p.message
  | .sendFile p => some p.fileInfo
  | _ => none

/-- What the surroundings promise: the numbers of likes are of an `int`, and no more of a file is
read than was asked for. -/
def Promised : (e : Effect) → e.Answer → Prop
  | .query_store (.countVideoLikes _ _), found => ∀ rows, found = some rows →
    ∀ row ∈ rows, ∀ text, row.cells[0]? = some text →
    ∀ n, text.toInt? = some n → -2 ^ 31 ≤ n ∧ n < 2 ^ 31
  | .readFile _ size, found => ∀ data, found = some data → data.length ≤ size
  | _, _ => True

/-- A packet whose message can be held and written, and fits. -/
def Fitting (lib : Nlohmann) (p : NetPacket) : Prop :=
  Written p.message ∧ NetPacketGenerator.fits lib p.message = true

/-- The same of a packet with a file, and the length to send is the one its header promises. -/
def FileFitting (lib : Nlohmann) (p : FileNetPacket) : Prop :=
  Written p.fileInfo ∧ NetPacketGenerator.fits lib p.fileInfo = true ∧ 1 ≤ p.data_size ∧
    p.data_size ≤ FILE_BUF_SIZE ∧
    p.fileData.length ≤ p.data_size ∧ p.length = headerSize + BUF_SIZE + p.data_size

/-- Only such packets are sent. -/
def Sound (lib : Nlohmann) : Effect → Prop
  | .send p => Fitting lib p
  | .sendFile p => FileFitting lib p
  | _ => True

theorem Sound.written {lib : Nlohmann} {e : Effect} {j : Json} (h : Sound lib e)
    (hj : messageOf e = some j) : Written j := by
  cases e with
  | send p =>
    cases hj
    exact h.1
  | sendFile p =>
    cases hj
    exact h.1
  | _ => cases hj

/-- A handler that sends such packets only. -/
abbrev Tells (lib : Nlohmann) {α : Type} (p : Handler α) (post : α → Prop) : Prop :=
  MeetsGiven Promised (Sound lib) post p

variable {lib : Nlohmann} {server : Server} {jsonMsg : Json}

theorem sound_of_quiet {e : Effect} (h : messageOf e = none) : Sound lib e := by
  cases e with
  | send p => cases h
  | sendFile p => cases h
  | _ => trivial

theorem tells_perform {e : Effect} (h : messageOf e = none) : Tells lib (perform e) fun _ => True :=
  ⟨sound_of_quiet h, fun _ _ => trivial⟩

theorem tells_ofOption {α : Type} (a : Option α) : Tells lib (Program.ofOption a) fun _ => True :=
  Program.meetsGiven_ofOption fun _ _ => trivial

theorem tells_sent (ok : Bool) : Tells lib (sent server ok) fun _ => True := by
  unfold sent
  split <;> trivial

theorem tells_firstCell (res : Option (List Row)) (i : ℕ) :
    Tells lib (firstCell res i) fun _ => True := by
  unfold firstCell
  split
  · exact tells_ofOption _
  · trivial

theorem tells_packet {purpose : Purpose} {message : Json} (h : Written message) :
    Tells lib (NetPacketGenerator.packet lib purpose message) (Fitting lib) := by
  unfold NetPacketGenerator.packet
  split
  · exact ⟨h, ‹_›⟩
  · trivial

theorem tells_send {p : NetPacket} (h : Fitting lib p) : Tells lib (send server p) fun _ => True :=
  MeetsGiven.bind (P := fun _ => True) ⟨h, fun _ _ => trivial⟩ fun ok _ => tells_sent ok

/-- A message is made into a packet, and sent. -/
theorem tells_message {purpose : Purpose} {message : Json} (h : Written message) :
    Tells lib (NetPacketGenerator.packet lib purpose message >>= send server) fun _ => True :=
  MeetsGiven.bind (tells_packet h) fun _ hp => tells_send hp

theorem written_info {infotype : InfoType} {key : String} {value : Json} (h : Written value) :
    Written (NetPacketGenerator.info infotype key value) := by
  refine ((written_null.set "infotype" (written_int ?_ ?_)).set key h) <;>
    (cases infotype <;> decide)

theorem written_infoOf {infotype : InfoType} {userId key : String} {value : Json}
    (h : Written value) :
    Written (NetPacketGenerator.infoOf infotype userId key value) := by
  refine (((written_null.set "infotype" (written_int ?_ ?_)).set "userId" (written_str userId)).set
    key h) <;>
    (cases infotype <;> decide)

/-! ### Information -/

section Info

open SendInfoControl

theorem tells_toJson (columns : List (String × ℕ)) (row : Row) :
    Tells lib (toJson columns row) Written := by
  refine MeetsGiven.loop columns (fun info column _ hinfo => ?_) written_null
  refine MeetsGiven.bind (tells_ofOption _) fun text _ => ?_
  exact Written.set hinfo column.1 (written_str text)

theorem tells_toJson_VodListInfo (row : Row) :
    Tells lib (toJson_VodListInfo server row) Written := by
  refine MeetsGiven.bind (tells_ofOption _) fun videoId _ => ?_
  refine MeetsGiven.bind (tells_ofOption _) fun videoSuffix _ => ?_
  refine MeetsGiven.bind (tells_ofOption _) fun publisherId _ => ?_
  refine MeetsGiven.bind (tells_ofOption _) fun profile _ => ?_
  refine MeetsGiven.bind (tells_ofOption _) fun time _ => ?_
  exact ((((written_null.set _ (written_str _)).set _ (written_str _)).set _ (written_str _)).set _
    (written_str _)).set _
    (written_str _)

theorem tells_sendList {command : Command} {item : Row → Handler Json}
    {packet : Json → Handler NetPacket} (hitem : ∀ row, Tells lib (item row) Written)
    (hpacket : ∀ j, Written j → Tells lib (packet j) (Fitting lib)) :
    Tells lib (sendList server command item packet) fun _ => True := by
  refine MeetsGiven.bind (tells_perform rfl) fun res _ => ?_
  cases res with
  | none => trivial
  | some rows =>
    refine MeetsGiven.bind (MeetsGiven.loop rows ?_ written_null) fun items hitems => ?_
    · exact fun items row _ hitems => MeetsGiven.bind (hitem row) fun _ hinfo =>
        Written.push_back hitems hinfo
    · exact MeetsGiven.bind (hpacket items hitems) fun _ hp => tells_send hp

theorem tells_sendFirst {command : Command} {item : Row → Handler Json}
    {packet : Json → Handler NetPacket}
    (hitem : ∀ rows, Promised (.query_store command) (some rows) →
      ∀ row ∈ rows, Tells lib (item row) Written)
    (hpacket : ∀ j, Written j → Tells lib (packet j) (Fitting lib)) :
    Tells lib (sendFirst server command item packet) fun _ => True := by
  refine ⟨sound_of_quiet rfl, fun res hres => ?_⟩
  cases res with
  | none => trivial
  | some rows =>
    cases rows with
    | nil =>
      change Tells lib (packet .null >>= send server) _
      exact MeetsGiven.bind (hpacket .null written_null) fun _ hp => tells_send hp
    | cons row rows =>
      change Tells lib (item row >>= fun info => packet info >>= send server) _
      refine MeetsGiven.bind (hitem _ hres row List.mem_cons_self) fun info hinfo => ?_
      exact MeetsGiven.bind (hpacket info hinfo) fun _ hp => tells_send hp

theorem tells_likeInfo {videoId userId : String} {rows : List Row}
    (hrows : Promised (.query_store (.countVideoLikes videoId userId)) (some rows)) {row : Row}
    (hrow : row ∈ rows) :
    Tells lib (likeInfo row) Written := by
  refine MeetsGiven.bind (P := fun text => row.cells[0]? = some text) ?_ fun text htext => ?_
  · exact Program.meetsGiven_ofOption fun _ h => h
  refine MeetsGiven.bind (P := fun n => text.toInt? = some n) ?_ fun likeCount hcount => ?_
  · exact Program.meetsGiven_ofOption fun _ h => h
  refine MeetsGiven.bind (tells_ofOption _) fun cell _ => ?_
  refine MeetsGiven.bind (tells_ofOption _) fun ifLike _ => ?_
  obtain ⟨hlow, hhigh⟩ := hrows rows rfl row hrow text htext likeCount hcount
  exact (written_null.set _ (written_int hlow hhigh)).set _ (written_bool _)

theorem tells_sendLiveList : Tells lib (sendLiveList lib server) fun _ => True := by
  refine MeetsGiven.bind (tells_perform rfl) fun liveList _ => ?_
  have hitems : ∀ (lives : List (String × String)) (items : Json), Written items →
      Written (lives.foldl (fun items live => items.push_back (toJson_LiveListInfo live.1 live.2))
        items) := by
    intro lives
    induction lives with
    | nil => exact fun _ h => h
    | cons live lives ih =>
      intro items h
      exact ih _ (h.push_back ((written_null.set _ (written_str _)).set _ (written_str _)))
  exact tells_message (written_info (hitems liveList _ written_null))

theorem tells_pushedVideo {acc : Json × Json} (hvideo : Written acc.1) (hvideos : Written acc.2)
    (row : Row) :
    Tells lib (pushedVideo acc row) fun acc => Written acc.1 ∧ Written acc.2 := by
  refine MeetsGiven.bind (tells_ofOption _) fun videoId _ => ?_
  refine MeetsGiven.bind (tells_perform rfl) fun publishers _ => ?_
  have hvideo := hvideo.set "videoId" (written_str videoId)
  unfold withPublisher
  split
  · refine MeetsGiven.bind (tells_ofOption _) fun publisherId _ => ?_
    have hpublished := hvideo.set "publisherId" (written_str publisherId)
    exact ⟨hpublished, hvideos.push_back hpublished⟩
  · exact ⟨hvideo, hvideos.push_back hvideo⟩

theorem tells_sendVideoPush (userId : String) :
    Tells lib (sendVideoPush lib server userId) fun _ => True := by
  refine ⟨sound_of_quiet rfl, fun res _ => ?_⟩
  cases res with
  | none => trivial
  | some rows =>
    cases rows with
    | nil => exact tells_message (written_info written_null)
    | cons row rows =>
      change Tells lib
        (Program.loop pushedVideo (.null, .null) (row :: rows) >>= fun acc => sendPushes lib server
          userId acc.2) _
      refine MeetsGiven.bind (P := fun acc => Written acc.1 ∧ Written acc.2) ?_ fun acc hacc => ?_
      · refine MeetsGiven.loop _ (fun acc row _ hacc => ?_) ⟨written_null, written_null⟩
        exact tells_pushedVideo hacc.1 hacc.2 row
      · refine MeetsGiven.bind (tells_packet (written_info hacc.2)) fun p hp => ?_
        refine MeetsGiven.bind (tells_send hp) fun _ _ => ?_
        exact MeetsGiven.bind (tells_perform rfl) fun _ _ => trivial

/-- A part of the request is read first. -/
theorem tells_read {α β : Type} {a : Option α} {f : α → Handler β} {P : β → Prop}
    (h : ∀ x, Tells lib (f x) P) :
    Tells lib (Program.ofOption a >>= f) P :=
  MeetsGiven.bind (tells_ofOption a) fun x _ => h x

theorem tells_info (infotype : InfoType) :
    Tells lib (SendInfoControl.answer lib server jsonMsg infotype) fun _ => True := by
  cases infotype with
  | Comment =>
    exact tells_read fun _ => tells_sendList (tells_toJson _) fun _ h =>
      tells_packet (written_info h)
  | VodList =>
    exact tells_read fun _ => tells_read fun _ => tells_sendList tells_toJson_VodListInfo fun _ h =>
      tells_packet (written_info h)
  | VideoLike =>
    refine tells_read fun videoId => tells_read fun userId => ?_
    exact tells_sendFirst (fun _ hrows _ hrow => tells_likeInfo hrows hrow) fun _ h => tells_packet
      (written_info h)
  | Follow =>
    exact tells_read fun _ => tells_sendList (tells_toJson _) fun _ h =>
      tells_packet (written_info h)
  | Fans =>
    exact tells_read fun _ => tells_sendList (tells_toJson _) fun _ h =>
      tells_packet (written_info h)
  | LiveList => exact tells_sendLiveList
  | NickName =>
    refine tells_read fun userId => tells_sendFirst (fun _ _ row _ => ?_) fun _ h => tells_packet
      (written_info h)
    exact tells_read fun _ => (written_null.set _ (written_str _)).set _ (written_str _)
  | UserVideo =>
    exact tells_read fun _ => tells_sendList (tells_toJson _) fun _ h =>
      tells_packet (written_infoOf h)
  | UserVideoLike =>
    exact tells_read fun _ => tells_sendList (tells_toJson _) fun _ h =>
      tells_packet (written_infoOf h)
  | Message =>
    exact tells_read fun _ => tells_read fun _ => tells_sendList (tells_toJson _) fun _ h =>
      tells_packet (written_info h)
  | VideoPush => exact tells_read fun userId => tells_sendVideoPush userId
  | _ => trivial

end Info

/-! ### Files -/

theorem tells_isType (filetype : FileType) : Tells lib (isType jsonMsg filetype) fun _ => True :=
  tells_ofOption _

section Files

open SendFileControl

/-- The size of a file is of no account for what is sent. -/
theorem tells_sendFile {filepath : String} {fileInfo : Json} (h : Written fileInfo) :
    Tells lib (sendFile lib server filepath fileInfo) fun _ => True := by
  have hsize : Tells lib (getFileSize filepath) fun _ => True :=
    MeetsGiven.bind (tells_perform rfl) fun res _ => by cases res <;> trivial
  refine MeetsGiven.bind hsize fun file_size _ => ?_
  unfold sendSized
  split
  · exact MeetsGiven.bind (tells_perform rfl) fun ok _ => MeetsGiven.bind (tells_sent ok) fun _ _ =>
      trivial
  · rename_i hne
    refine ⟨sound_of_quiet rfl, fun res hread => ?_⟩
    cases res with
    | none => trivial
    | some fileData =>
      change Tells lib (sendPacket lib server (UInt32.ofNat file_size) fileInfo fileData) _
      unfold sendPacket
      split
      · rename_i hroom
        have hpos : 1 ≤ (UInt32.ofNat file_size).toNat :=
          Nat.pos_of_ne_zero fun h0 => hne (UInt32.toNat_inj.mp h0)
        refine ⟨⟨h, hroom.1, hpos, hroom.2.2, hread fileData rfl, sendLength_eq server hroom.2.2⟩,
          fun ok _ => ?_⟩
        change Tells lib (sent server ok >>= fun _ => pure ok) _
        exact MeetsGiven.bind (tells_sent ok) fun _ _ => trivial
      · trivial

theorem tells_send_pfile (filetype : FileType) (filepath id suffix : String) :
    Tells lib (send_pfile lib server filetype filepath id suffix) fun _ => True :=
  tells_sendFile (written_PFileInfo filetype _ _)

theorem tells_send_vfile (filetype : FileType) (filepath videoId publisherId suffix : String) :
    Tells lib (send_vfile lib server filetype filepath videoId publisherId suffix) fun _ => True :=
  tells_sendFile (written_VFileInfo filetype _ _ _)

/-- A suffix is looked for in the database. -/
theorem tells_find {α : Type} {command : Command} {i : ℕ} {f : String → Handler α} {P : α → Prop}
    (h : ∀ text, Tells lib (f text) P) :
    Tells lib (query_store command >>= fun res => firstCell res i >>= f) P :=
  MeetsGiven.bind (tells_perform rfl) fun res _ =>
    MeetsGiven.bind (tells_firstCell res i) fun text _ => h text

/-- The value of a branch is of no account. -/
theorem tells_branch {α : Type} {p : Handler α} (h : Tells lib p fun _ => True) :
    Tells lib (p >>= fun _ => pure ()) fun _ => True :=
  MeetsGiven.bind h fun _ _ => trivial

theorem tells_file : Tells lib (SendFileControl.answer lib server jsonMsg) fun _ => True := by
  refine MeetsGiven.bind (tells_isType .ProfilePicture) fun isPicture _ => ?_
  split
  · exact tells_branch (tells_read fun id => tells_find fun suffix => tells_send_pfile _ _ _ _)
  refine MeetsGiven.bind (tells_isType .Video) fun isVideo _ => ?_
  split
  · refine tells_branch (tells_read fun id => MeetsGiven.bind (tells_perform rfl) fun res _ => ?_)
    refine MeetsGiven.bind (tells_firstCell res 0) fun suffix _ => ?_
    exact MeetsGiven.bind (tells_firstCell res 1) fun publisherId _ => tells_send_vfile _ _ _ _ _
  refine MeetsGiven.bind (tells_isType .ChatImg) fun isChatImg _ => ?_
  split
  · exact tells_branch (tells_read fun imgName => tells_read fun id => tells_send_pfile _ _ _ _)
  refine MeetsGiven.bind (tells_isType .VideoPreviewImg) fun isPreview _ => ?_
  split
  · exact tells_branch
      (tells_read fun videoId => tells_find fun suffix => tells_read fun id =>
        tells_send_pfile _ _ _ _)
  · trivial

end Files

section Uploads

open ReceiveFileControl

theorem tells_nextId : Tells lib nextId fun _ => True :=
  MeetsGiven.bind (tells_perform rfl) fun _ _ => tells_ofOption _

theorem tells_plan : Tells lib (plan lib server jsonMsg) fun _ => True := by
  refine MeetsGiven.bind (tells_isType .ProfilePicture) fun isPicture _ => ?_
  split
  · exact tells_read fun id => tells_read fun suffix => trivial
  refine MeetsGiven.bind (tells_isType .ChatImg) fun isChatImg _ => ?_
  split
  · refine MeetsGiven.bind tells_nextId fun chatImgId _ => ?_
    exact tells_read fun suffix => tells_read fun sendId => tells_read fun receiveId => trivial
  refine MeetsGiven.bind (tells_isType .VideoPreviewImg) fun isPreview _ => ?_
  split
  · exact tells_read fun id => tells_read fun suffix => trivial
  refine MeetsGiven.bind (tells_isType .Video) fun isVideo _ => ?_
  split
  · refine MeetsGiven.bind tells_nextId fun videoId _ => ?_
    refine tells_read fun suffix => tells_read fun id => tells_read fun profile => ?_
    refine MeetsGiven.bind (tells_packet (written_null.set _ (written_str _))) fun p hp => ?_
    exact MeetsGiven.bind (tells_send hp) fun _ _ => trivial
  · trivial

theorem tells_push (videoId id : String) : Tells lib (push videoId id) fun _ => True := by
  refine MeetsGiven.bind (tells_perform rfl) fun res _ => ?_
  cases res with
  | none => trivial
  | some followers =>
    refine MeetsGiven.loop (Q := fun _ => True) followers (fun _ row _ _ => ?_) trivial
    exact tells_read fun follower => MeetsGiven.bind (tells_perform rfl) fun _ _ => trivial

theorem tells_receive_file (fileInfo fileData : List UInt8) :
    Tells lib (receive_file lib server fileInfo fileData) fun _ => True := by
  refine tells_read fun jsonMsg => MeetsGiven.bind tells_plan fun plan _ => ?_
  refine MeetsGiven.bind (tells_perform rfl) fun _ _ =>
    MeetsGiven.bind (tells_perform rfl) fun _ _ => ?_
  refine MeetsGiven.bind (tells_isType .Video) fun isVideo _ => ?_
  split
  · exact tells_read fun id => tells_push _ _
  · trivial

end Uploads

/-! ### Changes -/

section Changes

open ModifyInfoControl

theorem tells_execute {α : Type} {command : Command} {f : Bool → Handler α} {P : α → Prop}
    (h : ∀ ok, Tells lib (f ok) P) :
    Tells lib (query_execute command >>= f) P :=
  MeetsGiven.bind (tells_perform rfl) fun ok _ => h ok

theorem tells_modifyRelation (key key' flagKey : String)
    (enter takeBack : String → String → Command) :
    Tells lib (modifyRelation jsonMsg key key' flagKey enter takeBack) fun _ => True := by
  refine tells_read fun id => tells_read fun id' => tells_read fun ifEnter => ?_
  split
  · exact tells_execute fun _ => trivial
  · exact tells_execute fun _ => trivial

theorem tells_modify (infotype : InfoType) :
    Tells lib (modify lib server jsonMsg infotype) fun _ => True := by
  cases infotype with
  | Comment =>
    refine MeetsGiven.bind tells_nextId fun id _ => ?_
    exact tells_read fun _ => tells_read fun _ => tells_read fun _ => tells_read fun _ =>
      tells_execute fun _ => trivial
  | Video =>
    refine tells_read fun videoId => tells_find fun suffix => ?_
    exact MeetsGiven.bind (tells_perform rfl) fun _ _ => tells_execute fun _ =>
      tells_execute fun _ => trivial
  | VideoLike => exact tells_modifyRelation _ _ _ _ _
  | CommentLike => exact tells_modifyRelation _ _ _ _ _
  | Follow => exact tells_modifyRelation _ _ _ _ _
  | LiveList =>
    refine tells_read fun userId => tells_read fun ifStart => ?_
    split
    · refine MeetsGiven.bind (tells_perform rfl) fun _ _ => ?_
      exact tells_message (written_info (written_null.set _ (written_str _)))
    · exact tells_branch (tells_perform rfl)
  | NickName => exact tells_read fun _ => tells_read fun _ => tells_execute fun _ => trivial
  | VideoProfile => exact tells_read fun _ => tells_read fun _ => tells_execute fun _ => trivial
  | _ => trivial

end Changes

/-! ### All handlers -/

theorem tells_found (ok : Bool) : Tells lib (found ok) fun _ => True := by
  unfold found
  split <;> trivial

theorem tells_register (strMsg : List UInt8) :
    Tells lib (InitControl.register lib server strMsg) fun _ => True := by
  refine MeetsGiven.bind (P := fun _ => True) ?_ fun ok _ => tells_message
    (written_null.set _ (written_str _))
  refine tells_read fun account => MeetsGiven.bind (tells_perform rfl) fun res _ => ?_
  split
  · exact tells_perform rfl
  · trivial

theorem tells_login (strMsg : List UInt8) :
    Tells lib (InitControl.login lib server strMsg) fun _ => True := by
  refine MeetsGiven.bind (P := fun _ => True) ?_ fun ok _ => tells_message
    (written_null.set _ (written_str _))
  refine tells_read fun account => MeetsGiven.bind (tells_perform rfl) fun res _ => ?_
  split
  · refine tells_read fun pw => ?_
    split
    · exact MeetsGiven.bind (MeetsGiven.bind (tells_perform rfl) fun ok _ => tells_found ok)
        fun _ _ => trivial
    · trivial
  · trivial

theorem tells_chat (buf : List UInt8) : Tells lib (chat lib buf) fun _ => True := by
  have hinsert : ∀ jsonMsg messagetype key, Tells lib (insertChat jsonMsg messagetype key) fun _ =>
    True := fun _ _ _ =>
    tells_read fun _ => tells_read fun _ => tells_read fun _ => tells_execute fun _ => trivial
  refine tells_read fun jsonMsg => tells_read fun messagetype => ?_
  split
  · exact hinsert _ _ _
  · split
    · exact hinsert _ _ _
    · trivial

/-- **Whatever a handler sends can be held and written.** -/
theorem tells_dispatch (call : Call) : Tells lib (dispatch lib server call) fun _ => True := by
  unfold dispatch
  split
  · trivial
  · exact MeetsGiven.bind (tells_perform rfl) fun ok _ => tells_found ok
  · exact tells_read fun text => tells_register text
  · exact tells_read fun text => tells_login text
  · exact tells_read fun fileInfo => tells_receive_file _ _
  · exact tells_read fun text => tells_read fun jsonMsg => tells_file
  · refine tells_read fun text => tells_read fun jsonMsg => tells_read fun code => ?_
    split
    · exact tells_info _
    · trivial
  · refine tells_read fun text => tells_read fun jsonMsg => tells_read fun code => ?_
    split
    · exact tells_modify _
    · trivial
  · exact tells_chat _

/-- **Replies are read back**: the text of every message a handler sends is read as the message, by
a parser that is given it with its length, or in a buffer with a zero behind it. -/
theorem replies_read_back {σ : Type} (strtod : List UInt8 → Option ℚ) (dump_float : ℚ → List UInt8)
    (server : Server) {answer : σ → (e : Effect) → σ × e.Answer}
    (hpromised : ∀ s e, Promised e (answer s e).2) (call : Call) (s : σ) :
    ∀ x ∈ (run answer s (dispatch (nlohmann strtod dump_float) server call)).1,
      ∀ j, messageOf x.1 = some j → ∀ behind, Behind behind →
      (nlohmann strtod dump_float).parse ((nlohmann strtod dump_float).dump j ++ behind) =
        some (ordered j) := by
  intro x hx j hj behind hbehind
  obtain ⟨hstorable, hplain⟩ := ((tells_dispatch call).run hpromised s x hx).written hj
  exact nlohmann_read_back hstorable hplain hbehind

/-- Surroundings with one live stream. -/
def streaming (s : Unit) : (e : Effect) → Unit × e.Answer
  | .getLiveList => ((), [("1", "u")])
  | e => sameFiles [] s e

theorem promised_streaming (s : Unit) (e : Effect) : Promised e (streaming s e).2 := by
  cases e with
  | query_store command =>
    cases command with
    | countVideoLikes videoId userId =>
      intro rows hrows
      cases hrows
    | _ => trivial
  | readFile path size =>
    intro data hdata
    cases hdata
    exact List.length_take_le size []
  | _ => trivial

/-- The list of that stream. -/
def listing : Json :=
  .obj [("infotype", .int InfoType.LiveList.code),
    ("liveList", .arr [.obj [("publisherId", .str "1"), ("url", .str "u")]])]

/-- A request for the list. -/
def listRequest : Call where
  header := { purpose := Purpose.GetInfo.code, data_size := 14 }
  payload := utf8 "\x7b\"infotype\":6\x7d"

theorem dispatch_listRequest :
    run streaming () (dispatch (nlohmann (fun _ => none) fun _ => []) .epoll listRequest) =
    ([⟨.getLiveList, [("1", "u")]⟩, ⟨.send ⟨.GetInfo, listing⟩, true⟩], (), some ()) := by
  have htext : packetText listRequest = Program.ret listRequest.payload :=
    packetText_eq (by decide) (by decide)
  have hdispatch : dispatch (nlohmann (fun _ => none) fun _ => []) .epoll listRequest =
      packetText listRequest >>= SendInfoControl.send_info (nlohmann (fun _ => none) fun _ => [])
        .epoll := rfl
  have hparse : (nlohmann (fun _ => none) fun _ => []).parse listRequest.payload =
    some (.obj [("infotype", .int 6)]) := rfl
  rw [hdispatch, htext, Program.ret_bind, SendInfoControl.send_info, hparse]
  rfl

/-- A client that asks for the list has it. -/
theorem listing_read_back : ⟨.send ⟨.GetInfo, listing⟩, true⟩ ∈
    (run streaming () (dispatch (nlohmann (fun _ => none) fun _ => []) .epoll listRequest)).1 ∧
    ∀ behind, Behind behind → (nlohmann (fun _ => none) fun _ => []).parse
      ((nlohmann (fun _ => none) fun _ => []).dump listing ++ behind) = some (ordered listing) := by
  have hmem : ⟨.send ⟨.GetInfo, listing⟩, true⟩ ∈
      (run streaming ()
      (dispatch (nlohmann (fun _ => none) fun _ => []) .epoll listRequest)).1 := by
    rw [dispatch_listRequest]
    exact List.mem_cons_of_mem _ List.mem_cons_self
  exact ⟨hmem, replies_read_back (fun _ => none) (fun _ => []) .epoll promised_streaming listRequest
    () _ hmem listing rfl⟩

end PickUpLight.Replies
