import PickUpLight.Control.Dispatch
import PickUpLight.Store.Database

/-!
# What a request is for

What a handler may ask for goes by the purpose of the request (`May`): only uploads write files,
only changes remove them, only registrations make users, and a reply has the purpose of its request.
So every table has its owners, whatever the requests contain and however their handlers take turns
(`changes_owned`): who asks for files leaves the tables as they are, and who asks for information,
but for the pushes that have been delivered.
-/

namespace PickUpLight.Requests

open PickUpLight.Theory PickUpLight.Wire PickUpLight.Control PickUpLight.Store Handler
open Program (Meets)
open ReceiveFileControl (isType)

/-- What a request may ask for, by its purpose. -/
def May (purpose : Purpose) : Effect → Prop
  | .query_store _ => True
  | .query_execute command =>
    match command with
    | .insertUser .. => purpose = .Register
    | .updatePictureSuffix .. | .updatePreviewSuffix .. | .insertVideo .. | .insertVideoPush
      .. | .empty => purpose = .SendFile
    | .insertMessage .. => purpose = .SendFile ∨ purpose = .Chat
    | .deleteVideoPush .. => purpose = .GetInfo
    | _ => purpose = .ModifyInfo
  | .send p => p.purpose = purpose ∧ purpose ≠ .Heart ∧ purpose ≠ .GetFile ∧ purpose ≠ .Chat
  | .stat _ | .readFile _ _ | .sendFile _ | .sendNoFile => purpose = .GetFile
  | .nextId => purpose = .SendFile ∨ purpose = .ModifyInfo
  | .set_0 => purpose = .Heart
  | .add_userId _ => purpose = .Login
  | .writeFile _ _ => purpose = .SendFile
  | .removeFile _ | .addLive _ _ | .removeLive _ => purpose = .ModifyInfo
  | .getLiveList => purpose = .GetInfo

/-- A handler that keeps to a purpose. -/
abbrev KeepsTo (purpose : Purpose) {α : Type} (p : Handler α) : Prop :=
  p.Meets (May purpose) fun _ => True

variable {lib : Nlohmann} {server : Server} {jsonMsg : Json} {purpose : Purpose}

theorem keeps_ofOption {α : Type} (a : Option α) : KeepsTo purpose (Program.ofOption a) :=
  Program.meets_ofOption fun _ _ => trivial

/-- A part of the request is read. -/
theorem keeps_read {α β : Type} {a : Option α} {f : α → Handler β}
    (h : ∀ x, KeepsTo purpose (f x)) :
    KeepsTo purpose (Program.ofOption a >>= f) :=
  Meets.bind (keeps_ofOption a) fun x _ => h x

/-- Something is asked for. -/
theorem keeps_ask {α : Type} {e : Effect} (he : May purpose e) {f : e.Answer → Handler α}
    (h : ∀ r, KeepsTo purpose (f r)) :
    KeepsTo purpose (perform e >>= f) :=
  Meets.bind (meets_perform he) fun r _ => h r

theorem keeps_firstCell {α : Type} (res : Option (List Row)) (i : ℕ) {f : String → Handler α}
    (h : ∀ text, KeepsTo purpose (f text)) : KeepsTo purpose (firstCell res i >>= f) := by
  unfold firstCell
  split
  · exact keeps_read h
  · exact h ""

/-- The database is asked. -/
theorem keeps_query {α : Type} {command : Command} {f : Option (List Row) → Handler α}
    (h : ∀ res, KeepsTo purpose (f res)) :
    KeepsTo purpose (query_store command >>= f) :=
  keeps_ask (show May purpose (.query_store command) from trivial) h

theorem keeps_find {α : Type} {command : Command} {i : ℕ} {f : String → Handler α}
    (h : ∀ text, KeepsTo purpose (f text)) :
    KeepsTo purpose (query_store command >>= fun res => firstCell res i >>= f) :=
  keeps_query fun res => keeps_firstCell res i h

theorem keeps_execute {α : Type} {command : Command} (hc : May purpose (.query_execute command))
    (a : α) :
    KeepsTo purpose (query_execute command >>= fun _ => pure a) :=
  keeps_ask hc fun _ => trivial

theorem keeps_send {p : NetPacket} (h : May purpose (.send p)) : KeepsTo purpose (send server p) :=
  keeps_ask h fun ok => meets_sent server ok

theorem keeps_packet {α : Type} {message : Json} {f : NetPacket → Handler α}
    (h : ∀ p, p.purpose = purpose → KeepsTo purpose (f p)) :
    KeepsTo purpose (NetPacketGenerator.packet lib purpose message >>= f) := by
  rw [NetPacketGenerator.packet_bind]
  split
  · exact h _ rfl
  · trivial

/-- The value of a branch is of no account. -/
theorem keeps_branch {α : Type} {p : Handler α} (h : KeepsTo purpose p) :
    KeepsTo purpose (p >>= fun _ => pure ()) :=
  Meets.bind h fun _ _ => trivial

theorem keeps_loop {α β : Type} {f : β → α → Handler β} (h : ∀ b a, KeepsTo purpose (f b a)) (b : β)
    (as : List α) :
    KeepsTo purpose (Program.loop f b as) :=
  Meets.loop (fun b a _ => h b a) as trivial

/-! ### Information -/

section Info

open SendInfoControl

theorem may_reply {p : NetPacket} (h : p.purpose = .GetInfo) : May .GetInfo (.send p) :=
  ⟨h, by decide, by decide, by decide⟩

theorem keeps_message {message : Json} :
    KeepsTo .GetInfo (NetPacketGenerator.packet lib .GetInfo message >>= send server) :=
  keeps_packet fun _ hp => keeps_send (may_reply hp)

theorem keeps_toJson (columns : List (String × ℕ)) (row : Row) :
    KeepsTo purpose (toJson columns row) := by
  refine keeps_loop (fun info column => ?_) _ columns
  exact keeps_read fun _ => trivial

theorem keeps_toJson_VodListInfo (row : Row) : KeepsTo purpose (toJson_VodListInfo server row) :=
  keeps_read fun _ => keeps_read fun _ => keeps_read fun _ => keeps_read fun _ =>
    keeps_read fun _ => trivial

theorem keeps_sendList {command : Command} {item : Row → Handler Json}
    {packet : Json → Handler NetPacket} (hitem : ∀ row, KeepsTo .GetInfo (item row))
    (hpacket : ∀ items, KeepsTo .GetInfo (packet items >>= send server)) :
    KeepsTo .GetInfo (sendList server command item packet) := by
  refine keeps_query fun res => ?_
  cases res with
  | none => trivial
  | some rows =>
    refine Meets.bind (keeps_loop (fun items row => ?_) _ rows) fun items _ => hpacket items
    exact Meets.bind (hitem row) fun _ _ => trivial

theorem keeps_sendFirst {command : Command} {item : Row → Handler Json}
    {packet : Json → Handler NetPacket} (hitem : ∀ row, KeepsTo .GetInfo (item row))
    (hpacket : ∀ info, KeepsTo .GetInfo (packet info >>= send server)) :
    KeepsTo .GetInfo (sendFirst server command item packet) := by
  refine keeps_query fun res => ?_
  cases res with
  | none => trivial
  | some rows =>
    cases rows with
    | nil => exact hpacket .null
    | cons row rows => exact Meets.bind (hitem row) fun info _ => hpacket info

theorem keeps_pushedVideo (acc : Json × Json) (row : Row) :
    KeepsTo purpose (pushedVideo acc row) := by
  refine keeps_read fun videoId => keeps_query fun publishers => ?_
  unfold withPublisher
  split
  · exact keeps_read fun _ => trivial
  · trivial

theorem keeps_sendVideoPush (userId : String) :
    KeepsTo .GetInfo (sendVideoPush lib server userId) := by
  refine keeps_query fun res => ?_
  cases res with
  | none => trivial
  | some rows =>
    cases rows with
    | nil => exact keeps_message
    | cons row rows =>
      refine Meets.bind (keeps_loop keeps_pushedVideo (.null, .null) (row :: rows)) fun acc _ =>
        keeps_packet fun p hp => ?_
      exact Meets.bind (keeps_send (may_reply hp)) fun _ _ => keeps_execute
        (show May .GetInfo (.query_execute (.deleteVideoPush userId)) from rfl) ()

theorem keeps_answer (infotype : InfoType) :
    KeepsTo .GetInfo (SendInfoControl.answer lib server jsonMsg infotype) := by
  cases infotype with
  | Comment => exact keeps_read fun _ => keeps_sendList (keeps_toJson _) fun _ => keeps_message
  | VodList =>
    exact keeps_read fun _ => keeps_read fun _ =>
      keeps_sendList keeps_toJson_VodListInfo fun _ => keeps_message
  | VideoLike =>
    refine keeps_read fun _ => keeps_read fun _ => keeps_sendFirst (fun row => ?_) fun _ =>
      keeps_message
    exact keeps_read fun _ => keeps_read fun _ => keeps_read fun _ => keeps_read fun _ => trivial
  | Follow => exact keeps_read fun _ => keeps_sendList (keeps_toJson _) fun _ => keeps_message
  | Fans => exact keeps_read fun _ => keeps_sendList (keeps_toJson _) fun _ => keeps_message
  | LiveList => exact keeps_ask (show May .GetInfo .getLiveList from rfl) fun _ => keeps_message
  | NickName =>
    exact keeps_read fun _ =>
      keeps_sendFirst (fun _ => keeps_read fun _ => trivial) fun _ => keeps_message
  | UserVideo => exact keeps_read fun _ => keeps_sendList (keeps_toJson _) fun _ => keeps_message
  | UserVideoLike =>
    exact keeps_read fun _ => keeps_sendList (keeps_toJson _) fun _ => keeps_message
  | Message =>
    exact keeps_read fun _ => keeps_read fun _ =>
      keeps_sendList (keeps_toJson _) fun _ => keeps_message
  | VideoPush => exact keeps_read fun userId => keeps_sendVideoPush userId
  | _ => trivial

end Info

/-! ### Files -/

theorem keeps_isType {α : Type} (filetype : FileType) {f : Bool → Handler α}
    (h : ∀ b, KeepsTo purpose (f b)) :
    KeepsTo purpose (isType jsonMsg filetype >>= f) :=
  keeps_read h

section Files

open SendFileControl

theorem keeps_sendFile (filepath : String) (fileInfo : Json) :
    KeepsTo .GetFile (sendFile lib server filepath fileInfo) := by
  have hsent : ∀ (ok b : Bool), KeepsTo .GetFile (sent server ok >>= fun _ => pure b) := fun ok _ =>
    Meets.bind (meets_sent server ok) fun _ _ => trivial
  have hsize : KeepsTo .GetFile (getFileSize filepath) :=
    keeps_ask (show May .GetFile (.stat filepath) from rfl) fun res => by cases res <;> trivial
  refine Meets.bind hsize fun file_size _ => ?_
  unfold sendSized
  split
  · exact keeps_ask (show May .GetFile .sendNoFile from rfl) fun ok => hsent ok false
  · refine keeps_ask (show May .GetFile (.readFile filepath _) from rfl) fun res => ?_
    cases res with
    | none => trivial
    | some fileData =>
      change KeepsTo .GetFile (sendPacket lib server (UInt32.ofNat file_size) fileInfo fileData)
      unfold sendPacket
      split
      · exact keeps_ask (show May .GetFile (.sendFile _) from rfl) fun ok => hsent ok ok
      · trivial

theorem keeps_send_file : KeepsTo .GetFile (SendFileControl.answer lib server jsonMsg) := by
  refine keeps_isType .ProfilePicture fun isPicture => ?_
  split
  · exact keeps_branch (keeps_read fun id => keeps_find fun suffix => keeps_sendFile _ _)
  refine keeps_isType .Video fun isVideo => ?_
  split
  · refine keeps_branch
      (keeps_read fun id => keeps_query fun res => keeps_firstCell res 0 fun suffix => ?_)
    exact keeps_firstCell res 1 fun publisherId => keeps_sendFile _ _
  refine keeps_isType .ChatImg fun isChatImg => ?_
  split
  · exact keeps_branch (keeps_read fun imgName => keeps_read fun id => keeps_sendFile _ _)
  refine keeps_isType .VideoPreviewImg fun isPreview => ?_
  split
  · exact keeps_branch
      (keeps_read fun videoId => keeps_find fun suffix => keeps_read fun id => keeps_sendFile _ _)
  · trivial

end Files

section Uploads

open ReceiveFileControl

theorem keeps_nextId {α : Type} {f : ℕ → Handler α}
    (hp : purpose = .SendFile ∨ purpose = .ModifyInfo)
    (h : ∀ id, KeepsTo purpose (f id)) : KeepsTo purpose (nextId >>= f) :=
  Meets.bind (keeps_ask (show May purpose .nextId from hp) fun _ => keeps_ofOption _) fun id _ =>
    h id

/-- What is planned is a statement of an upload. -/
theorem keeps_plan :
    (plan lib server jsonMsg).Meets (May .SendFile) fun plan => May .SendFile
      (.query_execute plan.command) := by
  have hread : ∀ {α : Type} {a : Option α} {f : α → Handler Plan},
      (∀ x, (f x).Meets (May .SendFile) fun plan => May .SendFile (.query_execute plan.command)) →
        (Program.ofOption a >>= f).Meets (May .SendFile) fun plan => May .SendFile
          (.query_execute plan.command) :=
    fun h => Meets.bind (keeps_ofOption _) fun x _ => h x
  have hnext : KeepsTo .SendFile nextId :=
    keeps_ask (show May .SendFile .nextId from .inl rfl) fun _ => keeps_ofOption _
  refine hread fun isPicture => ?_
  split
  · exact hread fun id => hread fun suffix => rfl
  refine hread fun isChatImg => ?_
  split
  · exact Meets.bind hnext fun chatImgId _ => hread fun suffix => hread fun sendId =>
      hread fun receiveId => .inl rfl
  refine hread fun isPreview => ?_
  split
  · exact hread fun id => hread fun suffix => rfl
  refine hread fun isVideo => ?_
  split
  · refine Meets.bind hnext fun videoId _ => hread fun suffix => hread fun id =>
      hread fun profile => ?_
    have hsend :
        May .SendFile (.send ⟨.SendFile, Json.null.set "videoId" (.str (toString videoId))⟩) :=
      ⟨rfl, by decide, by decide, by decide⟩
    change Program.Meets _ _ (NetPacketGenerator.packet _ _ _ >>= _)
    rw [NetPacketGenerator.packet_bind]
    split
    · exact Meets.bind (keeps_send hsend) fun _ _ => rfl
    · trivial
  · exact rfl

theorem keeps_push (videoId id : String) : KeepsTo .SendFile (push videoId id) := by
  refine keeps_query fun res => ?_
  cases res with
  | none => trivial
  | some followers =>
    refine keeps_loop (fun _ row => keeps_read fun follower => ?_) () followers
    exact keeps_execute
      (show May .SendFile (.query_execute (.insertVideoPush follower videoId)) from rfl) ()

theorem keeps_receive_file (fileInfo fileData : List UInt8) :
    KeepsTo .SendFile (receive_file lib server fileInfo fileData) := by
  refine keeps_read fun jsonMsg => Meets.bind keeps_plan fun plan hplan => ?_
  refine keeps_ask (show May .SendFile (.writeFile _ _) from rfl) fun _ => keeps_ask hplan fun _ =>
    ?_
  refine keeps_isType .Video fun isVideo => ?_
  split
  · exact keeps_read fun id => keeps_push _ _
  · trivial

end Uploads

/-! ### Changes -/

section Changes

open ModifyInfoControl

theorem keeps_modifyRelation {key key' flagKey : String}
    {enter takeBack : String → String → Command}
    (henter : ∀ id id', May .ModifyInfo (.query_execute (enter id id')))
    (htakeBack : ∀ id id', May .ModifyInfo (.query_execute (takeBack id id'))) :
    KeepsTo .ModifyInfo (modifyRelation jsonMsg key key' flagKey enter takeBack) := by
  refine keeps_read fun id => keeps_read fun id' => keeps_read fun ifEnter => ?_
  split
  · exact keeps_execute (henter id id') ()
  · exact keeps_execute (htakeBack id id') ()

/-- A statement about two members. -/
theorem keeps_statement {key key' : String} {command : String → String → Command}
    (h : ∀ id id', May purpose (.query_execute (command id id'))) :
    KeepsTo purpose
      (str jsonMsg key >>= fun id => str jsonMsg key' >>= fun id' => query_execute
      (command id id') >>= fun _ => pure ()) :=
  keeps_read fun id => keeps_read fun id' => keeps_execute (h id id') ()

theorem keeps_modify (infotype : InfoType) :
    KeepsTo .ModifyInfo (modify lib server jsonMsg infotype) := by
  cases infotype with
  | Comment =>
    refine keeps_nextId (.inr rfl) fun id => keeps_read fun replyCommentId =>
      keeps_read fun publisherId => ?_
    refine keeps_read fun videoId => keeps_read fun content => ?_
    exact keeps_execute (show May .ModifyInfo (.query_execute (.insertComment _ _ _ _ _)) from rfl)
      ()
  | Video =>
    refine keeps_read fun videoId => keeps_find fun suffix =>
      keeps_ask (show May .ModifyInfo (.removeFile _) from rfl) fun _ => ?_
    refine keeps_ask (show May .ModifyInfo (.query_execute (.deleteVideo videoId)) from rfl)
      fun _ => ?_
    exact keeps_execute (show May .ModifyInfo (.query_execute (.deleteVideoLikes videoId)) from rfl)
      ()
  | VideoLike => exact keeps_modifyRelation (fun _ _ => rfl) fun _ _ => rfl
  | CommentLike => exact keeps_modifyRelation (fun _ _ => rfl) fun _ _ => rfl
  | Follow => exact keeps_modifyRelation (fun _ _ => rfl) fun _ _ => rfl
  | LiveList =>
    have hreply : ∀ {p : NetPacket}, p.purpose = .ModifyInfo → May .ModifyInfo (.send p) :=
      fun hp => ⟨hp, by decide, by decide, by decide⟩
    refine keeps_read fun userId => keeps_read fun ifStart => ?_
    split
    · exact keeps_ask (show May .ModifyInfo (.addLive _ _) from rfl) fun _ => keeps_packet
        fun p hp => keeps_send (hreply hp)
    · exact keeps_ask (show May .ModifyInfo (.removeLive _) from rfl) fun _ => trivial
  | NickName => exact keeps_statement fun _ _ => rfl
  | VideoProfile => exact keeps_statement fun _ _ => rfl
  | _ => trivial

end Changes

/-! ### All handlers -/

theorem keeps_found (ok : Bool) : KeepsTo purpose (found ok) := by
  unfold found
  split <;> trivial

theorem keeps_register (strMsg : List UInt8) :
    KeepsTo .Register (InitControl.register lib server strMsg) := by
  have hreply : ∀ {p : NetPacket}, p.purpose = .Register → May .Register (.send p) :=
    fun hp => ⟨hp, by decide, by decide, by decide⟩
  have hregister : KeepsTo .Register (InitControl.do_register lib strMsg) := by
    refine keeps_read fun account => keeps_query fun res => ?_
    split
    · exact meets_perform rfl
    · trivial
  exact Meets.bind hregister fun ok _ => keeps_packet fun p hp => keeps_send (hreply hp)

theorem keeps_login (strMsg : List UInt8) :
    KeepsTo .Login (InitControl.login lib server strMsg) := by
  have hreply : ∀ {p : NetPacket}, p.purpose = .Login → May .Login (.send p) :=
    fun hp => ⟨hp, by decide, by decide, by decide⟩
  have hadd : ∀ id, KeepsTo .Login (add_userId id) := fun id =>
    keeps_ask (show May .Login (.add_userId id) from rfl) fun ok => keeps_found ok
  have hlogin : KeepsTo .Login (InitControl.do_login lib strMsg) := by
    refine keeps_read fun account => keeps_query fun res => ?_
    split
    · refine keeps_read fun pw => ?_
      split
      · exact Meets.bind (hadd _) fun _ _ => trivial
      · trivial
    · trivial
  exact Meets.bind hlogin fun ok _ => keeps_packet fun p hp => keeps_send (hreply hp)

theorem keeps_chat (buf : List UInt8) : KeepsTo .Chat (chat lib buf) := by
  have hinsert : ∀ jsonMsg messagetype key, KeepsTo .Chat (insertChat jsonMsg messagetype key) :=
    fun _ _ _ =>
    keeps_read fun _ => keeps_read fun _ => keeps_read fun _ =>
      keeps_execute (show May .Chat (.query_execute (.insertMessage _ _ _ _)) from .inr rfl) ()
  refine keeps_read fun jsonMsg => keeps_read fun messagetype => ?_
  split
  · exact hinsert _ _ _
  · split
    · exact hinsert _ _ _
    · trivial

/-- **A handler does what its request is for**, and nothing else. -/
theorem keeps_dispatch (call : Call) : (dispatch lib server call).Meets
    (fun e => ∃ purpose, Purpose.ofCode call.header.purpose = some purpose ∧ May purpose e) fun _ =>
      True := by
  have hcode :
      ∀ {purpose : Purpose} {p : Handler Unit}, Purpose.ofCode call.header.purpose = some purpose →
        KeepsTo purpose p →
        p.Meets (fun e => ∃ purpose, Purpose.ofCode call.header.purpose = some purpose ∧
          May purpose e) fun _ => True :=
    fun hpurpose hp => Meets.mono (fun e he => ⟨_, hpurpose, he⟩) hp
  unfold dispatch
  split <;> rename_i hpurpose
  · trivial
  · exact hcode hpurpose (keeps_ask (show May .Heart .set_0 from rfl) fun ok => keeps_found ok)
  · exact hcode hpurpose (keeps_read fun text => keeps_register text)
  · exact hcode hpurpose (keeps_read fun text => keeps_login text)
  · exact hcode hpurpose (keeps_read fun fileInfo => keeps_receive_file _ _)
  · exact hcode hpurpose (keeps_read fun text => keeps_read fun jsonMsg => keeps_send_file)
  · refine hcode hpurpose
      (keeps_read fun text => keeps_read fun jsonMsg => keeps_read fun code => ?_)
    split
    · exact keeps_answer _
    · trivial
  · refine hcode hpurpose
      (keeps_read fun text => keeps_read fun jsonMsg => keeps_read fun code => ?_)
    split
    · exact keeps_modify _
    · trivial
  · exact hcode hpurpose (keeps_chat _)

/-! ### Tables -/

/-- The requests that a table is changed by. -/
def owners : Table → List Purpose
  | .User => [.Register, .SendFile, .ModifyInfo]
  | .Video => [.SendFile, .ModifyInfo]
  | .Message => [.SendFile, .Chat]
  | .Comment | .VideoLike | .CommentLike | .Follow => [.ModifyInfo]
  | .VideoPush => [.SendFile, .GetInfo]

theorem mem_owners {command : Command} {table : Table} (h : May purpose (.query_execute command))
    (hchanges : command.changes = some table) : purpose ∈ owners table := by
  cases command <;> cases hchanges <;> simp_all [May, owners]

section Tables

variable {H : Type} {db : Database H}

/-- A table is changed by a statement that is made for it. -/
theorem changes_of_rows_ne {t : Tables} {e : Effect} {h : Meeting H} {table : Table}
    (hne : (db.perform t e h).1.rows table ≠ t.rows table) : ∃ command, e = .query_execute command ∧
      command.changes = some table := by
  cases e with
  | query_execute command =>
    refine ⟨command, rfl, ?_⟩
    simp only [Database.perform] at hne
    cases hchanges : command.changes with
    | none => exact absurd (by rw [hchanges]) hne
    | some table' =>
      rw [hchanges] at hne
      by_contra hother
      have hother : table ≠ table' := fun heq => hother (heq ▸ rfl)
      refine hne ?_
      cases (db.execute t h.db command.text).1 <;> exact Function.update_of_ne hother _ _
  | _ => exact absurd rfl hne

/-- **Every table has its owners**: in all interleavings of all requests, on either server, a table
is changed only in a turn of a request with a purpose that owns it. -/
theorem changes_owned (lib : Nlohmann) {t : Tables} {calls : List (Server × Call)}
    {turns : List (ℕ × Meeting H)} {s s' : Handlers}
    (hrun : db.handlers.exec (Handlers.start t (calls.map fun c => dispatch lib c.1 c.2)) turns =
      some s) {i : ℕ} {h : Meeting H}
    (hturn : db.handlers s (i, h) = some s') {table : Table}
    (hchanged : s'.store.rows table ≠ s.store.rows table) :
    ∃ c purpose, calls[i]? = some c ∧ Purpose.ofCode c.2.header.purpose = some purpose ∧
      purpose ∈ owners table := by
  have hthreads :=
    interleave_threads_inv (P := fun k (p : Handler Unit) => ∃ c, calls[k]? = some c ∧
    p.Meets (fun e => ∃ purpose, Purpose.ofCode c.2.header.purpose = some purpose ∧ May purpose e)
      fun _ => True) ?_ ?_ hrun
  · obtain ⟨e, next, hthread, rfl⟩ := interleave_eq_some.mp hturn
    obtain ⟨c, hc, ⟨purpose, hpurpose, hmay⟩, -⟩ := hthreads i _ hthread
    obtain ⟨command, rfl, hchanges⟩ := changes_of_rows_ne hchanged
    exact ⟨c, purpose, hc, hpurpose, mem_owners hmay hchanges⟩
  · rintro k e next ⟨c, hc, -, hnext⟩ r
    exact ⟨c, hc, hnext r⟩
  · intro k p hp
    change (calls.map fun c => dispatch lib c.1 c.2)[k]? = some p at hp
    rw [List.getElem?_map, Option.map_eq_some_iff] at hp
    obtain ⟨c, hc, rfl⟩ := hp
    exact ⟨c, hc, keeps_dispatch c.2⟩

/-- A parser that reads one message of a chat in every text. -/
def chatting : Nlohmann where
  parse _ :=
    some (.obj [("messagetype", .int 2), ("sendId", .str "1"), ("receiveId", .str "2"),
    ("content", .str "3")])
  dump _ := []

/-- A database that inserts a row with every statement. -/
def inserting : Database Unit where
  store _ _ _ := none
  execute _ _ _ := (.insert [["1", "2", "2", "3"]], true)

/-- A message of a chat. -/
def chatCall : Call where
  header := { purpose := Purpose.Chat.code, data_size := 1 }
  payload := [0x7B]

/-- Its one statement changes the table of the messages. -/
theorem changes_owned_chat : ∃ c purpose, [(Server.boost, chatCall)][0]? = some c ∧
    Purpose.ofCode c.2.header.purpose = some purpose ∧ purpose ∈ owners .Message :=
  changes_owned chatting
    (show inserting.handlers.exec
    (Handlers.start initDataBase
    ([(Server.boost, chatCall)].map fun c => dispatch chatting c.1 c.2))
      [] = some _ from rfl)
    (show inserting.handlers _ (0, calm ()) = some _ from rfl)
    (show [({ number := 0, cells := ["1", "2", "2", "3"] } : Row)] ≠ [] by decide)

end Tables

end PickUpLight.Requests
