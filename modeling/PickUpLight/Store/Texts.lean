import PickUpLight.Store.Chats

/-!
# Comments and messages

A comment and a message of a chat are entered with the text a user has typed, within quotes and as
it is. A `Literal` is stored as it is, in one new row, and is there in later replies. Any other text
is read as something else: it is not stored, or another text is.
-/

namespace PickUpLight.Store

open PickUpLight.Theory PickUpLight.Control PickUpLight.Wire PickUpLight.Sql

/-! ### Texts that are entered -/

/-- A table's rows have its columns. -/
def Tables.Shaped (t : Tables) : Prop := ∀ table : Table, ∀ cells ∈ t.cells table, cells.length =
      table.columns.length

/-- **Something holds of every database that obeys SQL and can be reached**, at a time. -/
def Always (equals : String → String → Bool) (time : String)
    (P : ∀ {H : Type}, Database H → (H → String) → Meeting H → Prop) : Prop :=
  ∀ (H : Type) (db : Database H) (now : H → String), db.Obeys now equals →
    ∀ m : Meeting H, db.Up now equals m.db → now m.db = time → P db now m

/-- What a request meets: the id it is given, and the time. -/
def given (n : ℕ) (time : String) : Meeting Moment where
  db := ⟨true, time⟩
  answer
    | .nextId => some n
    | e => (calm ()).answer e

section Insertions

variable {equals : String → String → Bool} {t : Tables} {m : Meeting Moment} {table : Table}
  {command : Control.Command} {names : List String}
  {s before : String} {tail : List Char} {ts ending : List Token} {cells : Cells}

/-- **An insertion that stores a text as it is** has been given a literal. -/
theorem literal_of_insert (names known : List String) (n k : ℕ) (hc : command.changes = some table)
    (htext : command.text = before ++ s ++ String.ofList (quote :: tail))
    (hbefore : Scans before (.text []) ts) (htail : quote ∉ tail)
    (hending : tokensFrom (.between, []) tail = some ending)
    (hstatement : ∀ w more, Parser.statement (ts ++ .text w :: more) =
      ((Parser.values (known.flatMap (fun x => [.text x, .symbol ',']) ++ .text w :: more)).bind
      fun x =>
        Parser.complete (.insert table.name (some names) x.1) x.2).map Statement.command)
    (hpositions : Outcome.all (schema.position table.columns) names = .does (List.range n))
    (hfind : ∀ w vs,
      (((List.range n).zip (known.map Value.text ++ .text w :: vs)).find? fun g => g.1 = 0 + k) =
      some (k, .text w))
    {name : String} {len : ℕ} (hcolumn : table.columns[k]? = some ⟨name, .varchar len⟩)
    (hlen : s.length ≤ len) (hs : cells.getD k "" = s)
    (h : (mysqlWith equals).perform t (.query_execute command) m =
      (t.apply table (changeOf (.insert cells)), true)) :
    Literal s.toList := by
  obtain ⟨c, name', edit, hparse, hedit, htables⟩ := mysql_perform hc h
  obtain ⟨w, vs, rfl, hle, hliteral⟩ :=
    insert_of_spliced known htext hbefore htail hending hstatement hparse
  obtain ⟨-, cells', rfl, hfill⟩ :=
    Command.edit_insert_eq_does (columns_name table) hpositions hedit
  have hstores := stores_of_fill hfill hcolumn (hfind w vs)
  rw [stores_text (hle.trans hlen)] at hstores
  have hcells : cells = cells' := by
    have hrows := congrArg (fun t => t.cells table) htables
    simp only [Tables.cells_insert] at hrows
    exact List.singleton_injective (List.append_cancel_left hrows)
  rw [← hcells, hs, Outcome.does.injEq] at hstores
  exact hliteral hstores

end Insertions

/-! ### Comments -/

/-- A comment, as a client sends it. -/
structure Comment where
  replyCommentId : String
  publisherId : String
  videoId : String
  content : String
  deriving DecidableEq, Repr

namespace Comment

variable (c : Comment) (id : String)

def command : Control.Command :=
  .insertComment id c.replyCommentId c.publisherId c.videoId c.content

/-- The row of a comment. -/
def cells (time : String) : Cells :=
  [id, c.replyCommentId, c.publisherId, c.videoId, c.content, time]

/-- The ids are texts that are stored as they are, and all of the comment fits its columns. -/
structure Fits : Prop where
  replyCommentId : Literal c.replyCommentId.toList ∧ c.replyCommentId.length ≤ 30
  publisherId : Literal c.publisherId.toList ∧ c.publisherId.length ≤ 30
  videoId : IsNumber c.videoId ∧ c.videoId.length ≤ 30
  content : c.content.length ≤ 500

end Comment

/-- The comment in a request. -/
def commentOf (lib : Nlohmann) (buf : List UInt8) : Option Comment :=
  (lib.parse buf).bind fun jsonMsg => (jsonMsg.enum "infotype").bind fun infotype =>
    if InfoType.ofCode infotype = some .Comment then
      (jsonMsg.string "replyCommentId").bind fun replyCommentId =>
        (jsonMsg.string "publisherId").bind fun publisherId =>
        (jsonMsg.string "videoId").bind fun videoId => (jsonMsg.string "content").map fun content =>
          ⟨replyCommentId, publisherId, videoId, content⟩
    else none

/-- The video a request asks for the comments of. -/
def commentQuery (lib : Nlohmann) (buf : List UInt8) : Option String :=
  (lib.parse buf).bind fun jsonMsg => (jsonMsg.enum "infotype").bind fun infotype =>
    if InfoType.ofCode infotype = some .Comment then jsonMsg.string "id" else none

/-- The message that lists comments. -/
def commentsMessage (rows : List Cells) : Json :=
  NetPacketGenerator.info .Comment "comments" (listOf (rows.map (rowObject commentColumns)))

/-- How long it is. -/
def commentsLength (rows : List Cells) : ℕ :=
  infoLength .Comment "comments" (listLength (rows.map (cellsLength commentColumns)))

theorem hasLength_commentsMessage (rows : List Cells) :
    HasLength (commentsMessage rows) (commentsLength rows) :=
  hasLength_info .Comment (by decide) (hasLength_map (hasLength_rowObject (by decide)) rows)

/-- The comments of a video: the rows it is taken for the video of. -/
def commentsOf (equals : String → String → Bool) (videoId : String) (t : Tables) : List Cells :=
  (t.cells .Comment).filter (meets equals [(3, videoId)])

section CommentStatements

variable {a b c d e : String}

theorem text_insertComment : (Control.Command.insertComment a b c d e).text =
    "insert into Comment(id, replyCommentId, publisherId, videoId, content, time) values('" ++ a ++
      "', '" ++ b ++
      "', '" ++ c ++ "','" ++ d ++ "','" ++ e ++ "',(select now()))" := rfl

theorem parse_insertComment (ha : Literal a.toList) (hb : Literal b.toList) (hc : Literal c.toList)
    (hd : Literal d.toList) (he : Literal e.toList) :
    parse (Control.Command.insertComment a b c d e).text =
      some (.command (.insert "Comment"
        (some ["id", "replyCommentId", "publisherId", "videoId", "content", "time"])
        [.text a, .text b, .text c, .text d, .text e, .now])) :=
  parse_template
    (.literal (.literal (.literal (.literal (.literal (.code rfl) ha rfl rfl) hb rfl rfl)
      hc rfl rfl) hd rfl rfl) he rfl rfl) rfl rfl

theorem edit_insertComment (ha : a.length ≤ 30) (hb : b.length ≤ 30) (hc : c.length ≤ 30)
    (hd : d.length ≤ 30) (he : e.length ≤ 500) (equals : String → String → Bool) (time : String) :
    (Sql.Command.insert "Comment"
      (some ["id", "replyCommentId", "publisherId", "videoId", "content", "time"])
      [.text a, .text b, .text c, .text d, .text e, .now]).edit schema equals time =
      .does ("Comment", .insert [a, b, c, d, e, time]) := by
  refine Command.edit_insert rfl rfl ⟨by decide, rfl⟩ ?_
  exact fill_given rfl (stores_text ha ..)
    (fill_given rfl (stores_text hb ..) (fill_given rfl (stores_text hc ..)
    (fill_given rfl (stores_text hd ..)
    (fill_given rfl (stores_text he ..) (fill_given rfl rfl rfl)))))

/-- A comment that is stored as it is has a literal for its text. -/
theorem literal_of_insertComment (ha : Literal a.toList) (hb : Literal b.toList)
    (hc : Literal c.toList) (hd : Literal d.toList) (he : e.length ≤ 500)
    {equals : String → String → Bool} {t : Tables} {m : Meeting Moment} {time : String}
    (h : (mysqlWith equals).perform t (.query_execute (.insertComment a b c d e)) m =
      (t.apply .Comment (changeOf (.insert [a, b, c, d, e, time])), true)) : Literal e.toList := by
  exact literal_of_insert ["id", "replyCommentId", "publisherId", "videoId", "content", "time"]
    [a, b, c, d] 6 4 rfl
    (text_insertComment ..)
    (.literal (.literal (.literal (.literal (.code rfl) ha rfl rfl) hb rfl rfl) hc rfl rfl) hd rfl
      rfl)
    (by decide) rfl (fun _ _ => rfl) rfl (fun _ _ => rfl) rfl he rfl h

theorem parse_selectComments (ha : IsNumber a) : parse (Control.Command.selectComments a).text =
    some (.query (.rows none ⟨"Comment", [⟨"videoId", a⟩]⟩ (some "time") none)) :=
  parse_template (.number (.code rfl) ha rfl rfl) rfl rfl

theorem answers_selectComments (t : Tables) (equals : String → String → Bool) :
    (Query.rows none ⟨"Comment", [⟨"videoId", a⟩]⟩ (some "time") none).answers schema
      equals t.contents =
      .does fun answer => ∃ all : List Cells,
      all.Perm ((t.cells .Comment).filter (meets equals [(3, a)])) ∧
        Descending (some 5) all ∧ answer = all.map (project none) := rfl

end CommentStatements

section Comments

variable {lib : Nlohmann} {server : Server} {buf : List UInt8} {c : Comment} {t : Tables}

theorem modify_info_comment (h : commentOf lib buf = some c) :
    ModifyInfoControl.modify_info lib server buf =
    Handler.nextId >>= fun n => Handler.query_execute (c.command (toString n)) >>= fun _ =>
      Program.ret () := by
  simp only [commentOf, Option.bind_eq_some_iff, Option.ite_none_right_eq_some,
    Option.map_eq_some_iff] at h
  obtain ⟨jsonMsg, hparse, infotype, hinfo, htype, r, hr, p, hp, v, hv, content, hcontent, rfl⟩ := h
  simp only [ModifyInfoControl.modify_info, hparse, hinfo, Program.ofOption_some, Program.ret_bind,
    htype,
    ModifyInfoControl.modify, ModifyInfoControl.modifyComment, Handler.str_eq hr, Handler.str_eq hp,
    Handler.str_eq hv, Handler.str_eq hcontent]
  rfl

theorem send_info_comments {v : String} (h : commentQuery lib buf = some v) :
    SendInfoControl.send_info lib server buf =
      SendInfoControl.sendList server (.selectComments v) SendInfoControl.toJson_CommentInfo
        (NetPacketGenerator.sendComments_P lib) := by
  simp only [commentQuery, Option.bind_eq_some_iff, Option.ite_none_right_eq_some] at h
  obtain ⟨jsonMsg, hparse, infotype, hinfo, htype, hv⟩ := h
  simp only [SendInfoControl.send_info, hparse, hinfo, Program.ofOption_some, Program.ret_bind,
    htype, SendInfoControl.answer, Handler.str_eq hv]

/-- **A comment is stored as it was sent**, in one new row and with nothing else changed, and
whoever asks for the comments of its video is sent a list with it. -/
def CommentSurvives (lib : Nlohmann) (server : Server) (equals : String → String → Bool)
    (buf ask : List UInt8) (c : Comment) (n : ℕ) (time : String) (t : Tables) : Prop :=
  Always equals time fun db now m => m.answer .nextId = some n →
    db.handle m (ModifyInfoControl.modify_info lib server buf) t =
      ([⟨.nextId, some n⟩, ⟨.query_execute (c.command (toString n)), true⟩],
        t.apply .Comment (.insert [c.cells (toString n) time])) ∧
    ∀ m' : Meeting _, db.Up now equals m'.db →
      ∃ rows, c.cells (toString n) time ∈ rows ∧
        db.replies m' (SendInfoControl.send_info lib server ask)
          (t.apply .Comment (.insert [c.cells (toString n) time])) =
            [⟨.GetInfo, commentsMessage rows⟩]

section Replies

variable {H : Type} {db : Database H} {now : H → String} {equals : String → String → Bool}
  {m : Meeting H}

/-- **The comments of a video are listed**, if they fit. -/
theorem replies_comments (server : Server) (hdb : db.Obeys now equals) (hup : db.Up now equals m.db)
    (ht : t.Shaped) {v : String} (hbuf : commentQuery lib buf = some v) (hv : IsNumber v) :
    ∃ rows : List Cells, rows.Perm (commentsOf equals v t) ∧
      db.replies m (SendInfoControl.send_info lib server buf) t =
        if NetPacketGenerator.fits lib (commentsMessage rows) then
        [⟨.GetInfo, commentsMessage rows⟩] else [] := by
  obtain ⟨rows, hrows, all, hall, -, hanswer⟩ :=
    hdb.query_up (t := t) hup (parse_selectComments hv) (answers_selectComments t equals)
  have hproject : all.map (project none) = all := List.map_id all
  rw [hproject] at hanswer
  refine ⟨all, hall, ?_⟩
  rw [send_info_comments hbuf]
  refine (replies_toJson (by decide) (by decide) (fun _ => rfl) hrows ?_).trans
    (by rw [hanswer]; rfl)
  rw [hanswer]
  intro cells hmem column hcolumn
  have hlength : cells.length = 6 :=
    ht .Comment cells (List.mem_of_mem_filter (hall.mem_iff.mp hmem))
  rw [hlength]
  revert column
  decide

/-- Whether they fit does not depend on their order. -/
theorem fits_comments (hlib : lib.Writes) {rows rows' : List Cells} (h : rows.Perm rows') :
    NetPacketGenerator.fits lib (commentsMessage rows) = true ↔
      commentsLength rows' < BUF_SIZE := by
  have hlength : commentsLength rows = commentsLength rows' :=
    congrArg (infoLength .Comment "comments") (listLength_perm (h.map _))
  rw [← hlength]
  exact fits_iff hlib (hasLength_commentsMessage rows)

/-- The tables have their columns after an insertion. -/
theorem Tables.Shaped.insert (ht : t.Shaped) {table : Table} {cells : Cells}
    (hcells : cells.length = table.columns.length) : (t.apply table (.insert [cells])).Shaped := by
  intro table' cells' hcells'
  by_cases htable : table' = table
  · subst htable
    have happend := Tables.cells_insert t table' cells
    rw [changeOf] at happend
    rw [happend, List.mem_append, List.mem_singleton] at hcells'
    rcases hcells' with hcells' | rfl
    · exact ht table' cells' hcells'
    · exact hcells
  · rw [Tables.cells_apply_ne htable] at hcells'
    exact ht table' cells' hcells'

end Replies

/-- **When comments survive**: when their text is a literal, and the comments of the video fit into
a packet. -/
theorem commentSurvives_iff (hlib : lib.Writes) {equals : String → String → Bool}
    (hequals : ∀ v, IsNumber v → equals v v = true) (hbuf : commentOf lib buf = some c)
    {ask : List UInt8} (hask : commentQuery lib ask = some c.videoId) (hfits : c.Fits) {n : ℕ}
    (hn : (toString n).length ≤ 30) (time : String) (ht : t.Shaped) :
    CommentSurvives lib server equals buf ask c n time t ↔ Literal c.content.toList ∧
      commentsLength
      (commentsOf equals c.videoId (t.apply .Comment (.insert [c.cells (toString n) time]))) <
        BUF_SIZE := by
  have hhandle : ∀ {H : Type} (db : Database H) (m : Meeting H), m.answer .nextId = some n →
      db.handle m (ModifyInfoControl.modify_info lib server buf) t =
        ([⟨.nextId, some n⟩, ⟨.query_execute (c.command (toString n)),
            (db.perform t (.query_execute (c.command (toString n))) m).2⟩],
          (db.perform t (.query_execute (c.command (toString n))) m).1) := by
    intro H db m hn
    have hperform : db.perform t .nextId m = (t, some n) := by rw [← hn]; rfl
    rw [modify_info_comment hbuf, Handler.nextId, Handler.perform_bind, Program.call_bind,
      handle_call, hperform]
    rfl
  have hshaped : (t.apply .Comment (.insert [c.cells (toString n) time])).Shaped := ht.insert rfl
  constructor
  · intro h
    obtain ⟨hstored, htold⟩ :=
      h Moment (mysqlWith equals) Moment.now (mysqlWith_obeys equals) (given n time)
      (mysql_up rfl) rfl rfl
    constructor
    · rw [hhandle (mysqlWith equals) _ rfl, Prod.mk.injEq] at hstored
      obtain ⟨hlog, htables⟩ := hstored
      have hok :
          ((mysqlWith equals).perform t (.query_execute (c.command (toString n)))
            (given n time)).2 = true := by
        simpa using hlog
      exact literal_of_insertComment (literal_of_isNumber (Canonical.isNumber ⟨n, rfl⟩))
        hfits.replyCommentId.1 hfits.publisherId.1 (literal_of_isNumber hfits.videoId.1)
          hfits.content (Prod.ext htables hok)
    · obtain ⟨rows, -, hreply⟩ := htold (given n time) (mysql_up rfl)
      obtain ⟨rows', hperm, hreply'⟩ :=
        replies_comments (m := given n time) server (mysqlWith_obeys equals)
        (mysql_up rfl) hshaped hask hfits.videoId.1
      exact (fits_comments hlib hperm).mp (sent_eq (hreply'.symm.trans hreply)).1
  · rintro ⟨hcontent, hlength⟩ H db now hdb m hup htime hgiven
    have hid : Literal (toString n).toList := literal_of_isNumber (Canonical.isNumber ⟨n, rfl⟩)
    have hchanges : (c.command (toString n)).changes = some .Comment := rfl
    have hperform := hdb.perform_up (t := t) hup hchanges
      (parse_insertComment hid hfits.replyCommentId.1 hfits.publisherId.1
      (literal_of_isNumber hfits.videoId.1) hcontent)
      (edit_insertComment hn hfits.replyCommentId.2 hfits.publisherId.2 hfits.videoId.2
        hfits.content equals _)
    refine ⟨?_, fun m' hup' => ?_⟩
    · rw [hhandle db m hgiven, hperform, htime]
      rfl
    · obtain ⟨rows, hperm, hreply⟩ := replies_comments server hdb hup' hshaped hask hfits.videoId.1
      refine ⟨rows, hperm.mem_iff.mpr (List.mem_filter.mpr ⟨?_, ?_⟩),
        hreply.trans (if_pos ((fits_comments hlib hperm).mpr hlength))⟩
      · have happend := Tables.cells_insert t .Comment (c.cells (toString n) time)
        rw [changeOf] at happend
        rw [happend]
        exact List.mem_append_right _ (List.mem_singleton_self _)
      · rw [meets_singleton]
        exact hequals c.videoId hfits.videoId.1

end Comments

/-! ### Messages -/

/-- A message of a chat, as a client sends it. -/
structure Said where
  sendId : String
  receiveId : String
  type : MessageType
  message : String
  deriving DecidableEq, Repr

namespace Said

variable (c : Said)

def command : Control.Command :=
  .insertMessage c.sendId c.receiveId (toString c.type.code) c.message

/-- The row of a message. -/
def cells (time : String) : Cells := Chat.cells ⟨c.sendId, c.receiveId, c.type, c.message, time⟩

/-- The ids are digit strings, and all of the message fits its columns. -/
structure Fits : Prop where
  sendId : IsNumber c.sendId ∧ c.sendId.length ≤ 30
  receiveId : IsNumber c.receiveId ∧ c.receiveId.length ≤ 30
  message : c.message.length ≤ 500

end Said

/-- The message in a request: a text, or a video that is shared. -/
def saidOf (lib : Nlohmann) (buf : List UInt8) : Option Said :=
  (lib.parse buf).bind fun jsonMsg => (jsonMsg.enum "messagetype").bind fun messagetype =>
    (jsonMsg.string "sendId").bind fun sendId => (jsonMsg.string "receiveId").bind fun receiveId =>
      if messagetype = MessageType.Characters.code then
        (jsonMsg.string "content").map fun content => ⟨sendId, receiveId, .Characters, content⟩
      else if messagetype = MessageType.VideoPreviewImg.code then
        (jsonMsg.string "videoId").map fun videoId => ⟨sendId, receiveId, .VideoPreviewImg, videoId⟩
      else none

/-- The message that lists rows of `Message`. -/
def messagesMessage (rows : List Cells) : Json :=
  NetPacketGenerator.info .Message "messages" (listOf (rows.map (rowObject messageColumns)))

/-- How long it is. -/
def messagesLength (rows : List Cells) : ℕ :=
  infoLength .Message "messages" (listLength (rows.map (cellsLength messageColumns)))

theorem hasLength_messagesMessage (rows : List Cells) :
    HasLength (messagesMessage rows) (messagesLength rows) :=
  hasLength_info .Message (by decide) (hasLength_map (hasLength_rowObject (by decide)) rows)

/-- The messages between two users, once each: the rows with users that are taken for these. -/
def messagesOf (equals : String → String → Bool) (u v : String) (t : Tables) : List Cells :=
  ((t.cells .Message).filter fun cells =>
    meets equals [(0, u), (1, v)] cells || meets equals [(0, v), (1, u)] cells).dedup

theorem messagesOf_comm (equals : String → String → Bool) (u v : String) (t : Tables) :
    messagesOf equals u v t = messagesOf equals v u t := by
  simp only [messagesOf, Bool.or_comm]

section MessageStatements

variable {a b c e : String}

theorem text_insertMessage : (Control.Command.insertMessage a b c e).text =
    "insert into Message(sendId, receiveId, messageType, message, time) values('" ++ a ++ "', '" ++
      b ++ "', '" ++
      c ++ "', '" ++ e ++ "', (select now()))" := rfl

theorem parse_insertMessage (ha : Literal a.toList) (hb : Literal b.toList) (hc : Literal c.toList)
    (he : Literal e.toList) : parse (Control.Command.insertMessage a b c e).text =
      some (.command
      (.insert "Message" (some ["sendId", "receiveId", "messageType", "message", "time"])
        [.text a, .text b, .text c, .text e, .now])) :=
  parse_template
    (.literal (.literal (.literal (.literal (.code rfl) ha rfl rfl) hb rfl rfl) hc rfl rfl)
    he rfl rfl) rfl rfl

theorem edit_insertMessage (ha : a.length ≤ 30) (hb : b.length ≤ 30) (k : MessageType)
    (he : e.length ≤ 500) (equals : String → String → Bool) (time : String) :
    (Sql.Command.insert "Message" (some ["sendId", "receiveId", "messageType", "message", "time"])
      [.text a, .text b, .text (toString k.code), .text e, .now]).edit schema equals time =
      .does ("Message", .insert [a, b, toString k.code, e, time]) := by
  have hk : Column.stores time ⟨"messageType", .int⟩ (.text (toString k.code)) =
      .does (toString k.code) := by
    cases k <;> rfl
  refine Command.edit_insert rfl rfl ⟨by decide, rfl⟩ ?_
  exact fill_given rfl (stores_text ha ..) (fill_given rfl (stores_text hb ..) (fill_given rfl hk
    (fill_given rfl (stores_text he ..) (fill_given rfl rfl rfl))))

/-- A message that is stored as it is has a literal for its text. -/
theorem literal_of_insertMessage (ha : Literal a.toList) (hb : Literal b.toList)
    (hc : Literal c.toList) (he : e.length ≤ 500) {equals : String → String → Bool} {t : Tables}
    {m : Meeting Moment} {time : String}
    (h : (mysqlWith equals).perform t (.query_execute (.insertMessage a b c e)) m =
      (t.apply .Message (changeOf (.insert [a, b, c, e, time])), true)) : Literal e.toList := by
  exact literal_of_insert ["sendId", "receiveId", "messageType", "message", "time"] [a, b, c] 5 3
    rfl
    (text_insertMessage ..)
    (.literal (.literal (.literal (.code rfl) ha rfl rfl) hb rfl rfl) hc rfl rfl)
    (by decide) rfl (fun _ _ => rfl) rfl (fun _ _ => rfl) rfl he rfl h

end MessageStatements

section Messages

variable {lib : Nlohmann} {server : Server} {buf : List UInt8} {c : Said} {t : Tables}

theorem chat_said (h : saidOf lib buf = some c) :
    chat lib buf = Handler.query_execute c.command >>= fun _ => Program.ret () := by
  simp only [saidOf, Option.bind_eq_some_iff] at h
  obtain ⟨jsonMsg, hparse, messagetype, htype, sendId, hsend, receiveId, hreceive, h⟩ := h
  simp only [chat, hparse, htype, Program.ofOption_some, Program.ret_bind]
  split_ifs at h ⊢ with hcharacters hvideo
  · obtain ⟨content, hcontent, rfl⟩ := Option.map_eq_some_iff.mp h
    simp only [insertChat, Handler.str_eq hsend, Handler.str_eq hreceive, Handler.str_eq hcontent,
      Program.ret_bind]
    rfl
  · obtain ⟨videoId, hid, rfl⟩ := Option.map_eq_some_iff.mp h
    simp only [insertChat, Handler.str_eq hsend, Handler.str_eq hreceive, Handler.str_eq hid,
      Program.ret_bind]
    rfl

/-- **A message is stored as it was sent**, in one new row and with nothing else changed, and
whoever of the two users asks for their messages is sent a list with it. -/
def MessageSurvives (lib : Nlohmann) (server : Server) (equals : String → String → Bool)
    (buf ask : List UInt8) (c : Said) (time : String) (t : Tables) : Prop :=
  Always equals time fun db now m =>
    db.handle m (chat lib buf) t =
      ([⟨.query_execute c.command, true⟩], t.apply .Message (.insert [c.cells time])) ∧
    ∀ m' : Meeting _, db.Up now equals m'.db →
      ∃ rows, c.cells time ∈ rows ∧
        db.replies m' (SendInfoControl.send_info lib server ask)
          (t.apply .Message (.insert [c.cells time])) =
          [⟨.GetInfo, messagesMessage rows⟩]

section Replies

variable {H : Type} {db : Database H} {now : H → String} {equals : String → String → Bool}
  {m : Meeting H}

/-- **The messages between two users are listed**, if they fit. -/
theorem replies_messages (server : Server) (hdb : db.Obeys now equals) (hup : db.Up now equals m.db)
    (ht : t.Shaped) {u v : String} (hbuf : messageQuery lib buf = some (u, v)) (hu : IsNumber u)
    (hv : IsNumber v) :
    ∃ rows : List Cells, rows.Perm (messagesOf equals u v t) ∧
      db.replies m (SendInfoControl.send_info lib server buf) t =
        if NetPacketGenerator.fits lib (messagesMessage rows) then
        [⟨.GetInfo, messagesMessage rows⟩] else [] := by
  obtain ⟨rows, hrows, hnodup, hmem, -⟩ :=
    hdb.query_up (t := t) hup (parse_selectMessages hu hv) (answers_selectMessages t equals)
  have hfound : ∀ cells, cells ∈ rows.map Row.cells ↔ cells ∈ messagesOf equals u v t := by
    intro cells
    rw [hmem, messagesOf, List.mem_dedup, List.mem_filter, List.mem_filter, List.mem_filter,
      Bool.or_eq_true, and_or_left]
  refine ⟨rows.map Row.cells, (List.perm_ext_iff_of_nodup hnodup (List.nodup_dedup _)).mpr hfound,
    ?_⟩
  rw [send_info_message hbuf]
  refine replies_toJson (by decide) (by decide) (fun _ => rfl) hrows ?_
  intro cells hcells column hcolumn
  have hlength : cells.length = 5 :=
    ht .Message cells (List.mem_of_mem_filter (List.mem_dedup.mp ((hfound cells).mp hcells)))
  rw [hlength]
  revert column
  decide

/-- Whether they fit does not depend on their order. -/
theorem fits_messages (hlib : lib.Writes) {rows rows' : List Cells} (h : rows.Perm rows') :
    NetPacketGenerator.fits lib (messagesMessage rows) = true ↔
      messagesLength rows' < BUF_SIZE := by
  have hlength : messagesLength rows = messagesLength rows' :=
    congrArg (infoLength .Message "messages") (listLength_perm (h.map _))
  rw [← hlength]
  exact fits_iff hlib (hasLength_messagesMessage rows)

end Replies

/-- **When messages survive**: when their text is a literal, and the messages between the two users
fit into a packet. -/
theorem messageSurvives_iff (hlib : lib.Writes) {equals : String → String → Bool}
    (hequals : ∀ v, IsNumber v → equals v v = true) (hbuf : saidOf lib buf = some c)
    {ask : List UInt8}
    (hask : messageQuery lib ask = some (c.sendId, c.receiveId) ∨
      messageQuery lib ask = some (c.receiveId, c.sendId))
    (hfits : c.Fits) (time : String) (ht : t.Shaped) :
    MessageSurvives lib server equals buf ask c time t ↔ Literal c.message.toList ∧
      messagesLength
      (messagesOf equals c.sendId c.receiveId (t.apply .Message (.insert [c.cells time]))) <
        BUF_SIZE := by
  have htype : Literal (toString c.type.code).toList := by
    cases c.type <;> decide
  have hhandle : ∀ {H : Type} (db : Database H) (m : Meeting H), db.handle m (chat lib buf) t =
      ([⟨.query_execute c.command, (db.perform t (.query_execute c.command) m).2⟩],
        (db.perform t (.query_execute c.command) m).1) := by
    intro H db m
    rw [chat_said hbuf, handle_statement]
  have hreplies :
      ∀ {H : Type} {db : Database H} {now : H → String} {m : Meeting H}, db.Obeys now equals →
        db.Up now equals m.db → ∃ rows : List Cells,
          rows.Perm
            (messagesOf equals c.sendId c.receiveId (t.apply .Message (.insert [c.cells time]))) ∧
          db.replies m (SendInfoControl.send_info lib server ask)
            (t.apply .Message (.insert [c.cells time])) =
            if NetPacketGenerator.fits lib (messagesMessage rows) then
              [⟨.GetInfo, messagesMessage rows⟩] else [] := by
    intro H db now m hdb hup
    have hshaped : (t.apply .Message (.insert [c.cells time])).Shaped := ht.insert rfl
    rcases hask with hask | hask
    · exact replies_messages server hdb hup hshaped hask hfits.sendId.1 hfits.receiveId.1
    · rw [messagesOf_comm]
      exact replies_messages server hdb hup hshaped hask hfits.receiveId.1 hfits.sendId.1
  constructor
  · intro h
    obtain ⟨hstored, htold⟩ :=
      h Moment (mysqlWith equals) Moment.now (mysqlWith_obeys equals) (calm ⟨true, time⟩)
      (mysql_up rfl) rfl
    constructor
    · rw [hhandle (mysqlWith equals) _, Prod.mk.injEq] at hstored
      obtain ⟨hlog, htables⟩ := hstored
      have hok : ((mysqlWith equals).perform t (.query_execute c.command) (calm ⟨true, time⟩)).2 =
          true := by
        simpa using hlog
      exact literal_of_insertMessage (literal_of_isNumber hfits.sendId.1)
        (literal_of_isNumber hfits.receiveId.1) htype
        hfits.message (Prod.ext htables hok)
    · obtain ⟨rows, -, hreply⟩ := htold (calm ⟨true, time⟩) (mysql_up rfl)
      obtain ⟨rows', hperm, hreply'⟩ :=
        hreplies (m := calm ⟨true, time⟩) (mysqlWith_obeys equals) (mysql_up rfl)
      exact (fits_messages hlib hperm).mp (sent_eq (hreply'.symm.trans hreply)).1
  · rintro ⟨hmessage, hlength⟩ H db now hdb m hup htime
    have hchanges : c.command.changes = some .Message := rfl
    have hperform := hdb.perform_up (t := t) hup hchanges
      (parse_insertMessage (literal_of_isNumber hfits.sendId.1)
      (literal_of_isNumber hfits.receiveId.1) htype hmessage)
      (edit_insertMessage hfits.sendId.2 hfits.receiveId.2 c.type hfits.message equals _)
    refine ⟨?_, fun m' hup' => ?_⟩
    · rw [hhandle db m, hperform, htime]
      rfl
    · obtain ⟨rows, hperm, hreply⟩ := hreplies hdb hup'
      refine ⟨rows, hperm.mem_iff.mpr (List.mem_dedup.mpr (List.mem_filter.mpr ⟨?_, ?_⟩)),
        hreply.trans (if_pos ((fits_messages hlib hperm).mpr hlength))⟩
      · have happend := Tables.cells_insert t .Message (c.cells time)
        rw [changeOf] at happend
        rw [happend]
        exact List.mem_append_right _ (List.mem_singleton_self _)
      · have hself : meets equals [(0, c.sendId), (1, c.receiveId)] (c.cells time) =
            (equals c.sendId c.sendId && (equals c.receiveId c.receiveId && true)) := rfl
        rw [hself, hequals _ hfits.sendId.1, hequals _ hfits.receiveId.1]
        rfl

end Messages

end PickUpLight.Store
