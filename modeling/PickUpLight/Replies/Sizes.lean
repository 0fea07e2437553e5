import PickUpLight.Control.Lengths
import PickUpLight.Control.SendInfoControl
import PickUpLight.Replies.Descriptions

/-!
# Sizes of replies

A reply to `GetInfo` is a list of objects, one for each row the database has, or one object, and
its text goes into a packet of `BUF_SIZE` bytes. Nothing bounds the number of rows. `replyLength`
adds up what the text takes, from the cells of the rows alone, and a reply is sent as it should be
exactly when that is less than `BUF_SIZE` (`repliesFit_iff`).
-/

namespace PickUpLight.Replies

open PickUpLight.Theory PickUpLight.Wire PickUpLight.Control Handler SendInfoControl

/-! ### Requests -/

/-- What a request asks for. -/
inductive GetInfo where
  | comments (videoId : String)
  | vodList (offset num : ℤ)
  | videoLike (videoId userId : String)
  | follow (userId : String)
  | fans (userId : String)
  | liveList
  | nickName (userId : String)
  | userVideo (userId : String)
  | userVideoLike (userId : String)
  | messages (userId1 userId2 : String)
  | videoPush (userId : String)
  deriving DecidableEq, Repr

/-- What the database has, and the live list, while a request is served. -/
structure Content where
  /-- The rows for a query; nothing if it fails. -/
  rows : Command → Option (List Row)
  /-- The streams, by user. -/
  lives : List (String × String)

/-- A cell with a number of an `int`, as mysqlpp converts it. -/
def IsCount (cell : String) : Prop := ∃ n : ℤ, cell.toInt? = some n ∧ -2 ^ 31 ≤ n ∧ n < 2 ^ 31

namespace GetInfo

/-- The type of the information. -/
def infotype : GetInfo → InfoType
  | comments _ => .Comment
  | vodList _ _ => .VodList
  | videoLike _ _ => .VideoLike
  | follow _ => .Follow
  | fans _ => .Fans
  | liveList => .LiveList
  | nickName _ => .NickName
  | userVideo _ => .UserVideo
  | userVideoLike _ => .UserVideoLike
  | messages _ _ => .Message
  | videoPush _ => .VideoPush

/-- A message is this request. -/
def Of (jsonMsg : Json) (r : GetInfo) : Prop :=
  jsonMsg.enum "infotype" = some r.infotype.code ∧
    match r with
    | comments videoId => jsonMsg.string "id" = some videoId
    | vodList offset num => jsonMsg.integer "offset" = some offset ∧
      jsonMsg.integer "num" = some num
    | videoLike videoId userId => jsonMsg.string "id" = some videoId ∧
      jsonMsg.string "userId" = some userId
    | liveList => True
    | messages userId1 userId2 =>
      jsonMsg.string "userId1" = some userId1 ∧ jsonMsg.string "userId2" = some userId2
    | follow userId | fans userId | nickName userId | userVideo userId | userVideoLike userId
    | videoPush userId => jsonMsg.string "userId" = some userId

/-- The first query of a request, and the number of its columns. -/
def query : GetInfo → Option (Command × ℕ)
  | comments videoId => some (.selectComments videoId, 6)
  | vodList offset num => some (.selectVideos offset num, 6)
  | videoLike videoId userId => some (.countVideoLikes videoId userId, 2)
  | follow userId => some (.selectFollows userId, 1)
  | fans userId => some (.selectFans userId, 1)
  | liveList => none
  | nickName userId => some (.selectNickName userId, 1)
  | userVideo userId => some (.selectUserVideos userId, 1)
  | userVideoLike userId => some (.selectUserVideoLikes userId, 1)
  | messages userId1 userId2 => some (.selectMessages userId1 userId2, 5)
  | videoPush userId => some (.selectVideoPush userId, 1)

end GetInfo

/-- The content is what the tables allow: the query of the request succeeds, its rows have their
columns and its counts are numbers of an `int`. -/
structure Content.Allowed (c : Content) (r : GetInfo) : Prop where
  /-- The query. -/
  answered : ∀ command columns, r.query = some (command, columns) →
    ∃ rows, c.rows command = some rows ∧ ∀ row ∈ rows, row.cells.length = columns
  /-- The counts. -/
  counted : ∀ videoId userId rows, c.rows (.countVideoLikes videoId userId) = some rows →
    ∀ row ∈ rows, ∀ cell ∈ row.cells, IsCount cell
  /-- The publisher of a video. -/
  published : ∀ id row rows, c.rows (.selectPublisher id) = some (row :: rows) →
    row.cells.length = 1

/-- The surroundings have this content. -/
def Serves {σ : Type} (answer : σ → (e : Effect) → σ × e.Answer) (c : Content) : Prop :=
  (∀ s command, (answer s (.query_store command)).2 = c.rows command) ∧
    ∀ s, (answer s .getLiveList).2 = c.lives

/-! ### Replies -/

/-- A cell of a row. -/
def cellOf (row : Row) (i : ℕ) : String := row.cells.getD i ""

/-- An object with cells of a row. -/
def rowJson (columns : List (String × ℕ)) (row : Row) : Json := rowObject columns row.cells

/-- A video of the list. -/
def vodJson (server : Server) (row : Row) : Json := vodObject server row.cells

/-- The number in a cell. -/
def countOf (row : Row) (i : ℕ) : ℤ := ((cellOf row i).toInt?).getD 0

/-- The likes of a video, if they have been counted. -/
def likeJson : List Row → Json
  | row :: _ => .obj [("likeCount", .int (countOf row 0)), ("ifLike", .bool (countOf row 1 ≠ 0))]
  | [] => .null

/-- The nickname of a user, if there is such a user. -/
def nickNameJson (userId : String) : List Row → Json
  | row :: _ => .obj [("userId", .str userId), ("nickName", .str (cellOf row 0))]
  | [] => .null

/-- A stream. -/
def liveJson (live : String × String) : Json :=
  .obj [("publisherId", .str live.1), ("url", .str live.2)]

/-- The publisher of a video, if the database has one. -/
def Content.publisher (c : Content) (videoId : String) : Option String :=
  match c.rows (.selectPublisher videoId) with
  | some (row :: _) => some (cellOf row 0)
  | _ => none

/-- Pushed videos, each with the publisher the database has, or else with the one before. -/
def pushes (c : Content) : Option String → List Row → List (String × Option String)
  | _, [] => []
  | last, row :: rows =>
    let publisher := (c.publisher (cellOf row 0)).or last
    (cellOf row 0, publisher) :: pushes c publisher rows

/-- What the database finds when it looks for the publisher of a video. -/
def publisherOf : Option (List Row) → Option String
  | some (row :: _) => some (cellOf row 0)
  | _ => none

/-- The same pushes, of rows with what is found for each. -/
def pushesOf : Option String → List (Row × Option (List Row)) → List (String × Option String)
  | _, [] => []
  | last, (row, found) :: rest =>
    let publisher := (publisherOf found).or last
    (cellOf row 0, publisher) :: pushesOf publisher rest

/-- The rows of pushes, each with what is found for it in some surroundings. -/
def lookups {σ : Type} (answer : σ → (e : Effect) → σ × e.Answer) :
    σ → List Row → List (Row × Option (List Row))
  | _, [] => []
  | s, row :: rows =>
    let (t, found) := answer s (.query_store (.selectPublisher (cellOf row 0)))
    (row, found) :: lookups answer t rows

/-- The message with pushed videos. -/
def pushMessage (pushed : List (String × Option String)) : Json :=
  NetPacketGenerator.info .VideoPush "videos"
    (listOf (pushed.map fun push => pushJson push.1 push.2))

namespace GetInfo

/-- The rows the database has for a request. -/
def found (r : GetInfo) (c : Content) : List Row := (r.query.bind fun q => c.rows q.1).getD []

/-- **The message of a reply.** -/
def message (server : Server) (c : Content) (r : GetInfo) : Json :=
  let rows := r.found c
  match r with
  | comments _ =>
    NetPacketGenerator.info .Comment "comments" (listOf (rows.map (rowJson commentColumns)))
  | vodList _ _ => NetPacketGenerator.info .VodList "vodList" (listOf (rows.map (vodJson server)))
  | videoLike _ _ => NetPacketGenerator.info .VideoLike "likeInfo" (likeJson rows)
  | follow _ =>
    NetPacketGenerator.info .Follow "followInfo" (listOf (rows.map (rowJson [("userId", 0)])))
  | fans _ =>
    NetPacketGenerator.info .Fans "fansInfo" (listOf (rows.map (rowJson [("followerId", 0)])))
  | liveList => NetPacketGenerator.info .LiveList "liveList" (listOf (c.lives.map liveJson))
  | nickName userId => NetPacketGenerator.info .NickName "nickNameInfo" (nickNameJson userId rows)
  | userVideo userId => NetPacketGenerator.infoOf .UserVideo userId "userVideoList"
      (listOf (rows.map (rowJson [("videoId", 0)])))
  | userVideoLike userId => NetPacketGenerator.infoOf .UserVideoLike userId "userVideoLikeList"
      (listOf (rows.map (rowJson [("videoId", 0)])))
  | messages _ _ =>
    NetPacketGenerator.info .Message "messages" (listOf (rows.map (rowJson messageColumns)))
  | videoPush _ => NetPacketGenerator.info .VideoPush "videos"
      (listOf ((pushes c none rows).map fun push => pushJson push.1 push.2))

end GetInfo

/-! ### Rows as objects -/

/-- The streams go into a list one after the other. -/
theorem foldl_push (lives : List (String × String)) :
    List.foldl (fun items (id, url) => Json.push_back items (toJson_LiveListInfo id url))
      Json.null lives =
      listOf (lives.map liveJson) := by
  have hgo :
      ∀ done, List.foldl (fun items (id, url) => Json.push_back items (toJson_LiveListInfo id url))
        (listOf done) lives = listOf (done ++ lives.map liveJson) := by
    induction lives with
    | nil => simp
    | cons live lives ih =>
      intro done
      show List.foldl _ ((listOf done).push_back (liveJson live)) lives = _
      rw [push_back_listOf, ih, List.map_cons, List.append_assoc, List.singleton_append]
  exact hgo []

/-! ### What a request is sent -/

section Runs

variable {σ : Type} {answer : σ → (e : Effect) → σ × e.Answer} {lib : Nlohmann} {server : Server}
  {c : Content} {jsonMsg : Json} {r : GetInfo}

/-- One reply with a message, if it fits. -/
def Sends (lib : Nlohmann) (message : Json) (sent : List Effect) : Prop :=
  sent = if NetPacketGenerator.fits lib message then
    [.send { purpose := .GetInfo, message := message }] else []

/-- A program comes to one reply; what is behind it sends nothing and cannot fail. -/
def ComesToReply {σ : Type} (answer : σ → (e : Effect) → σ × e.Answer) (lib : Nlohmann)
    (server : Server) (message : Json) (s : σ) (p : Handler Unit) : Prop :=
  ∃ (t : σ) (rest : Handler Unit), Program.Comes answer (fun e => isPacket e = false) s p t
      (NetPacketGenerator.packet lib .GetInfo message >>= fun p => send server p >>=
        fun _ => rest) ∧
    ∀ u, packetsOf answer u rest = [] ∧ Program.Ends answer (fun _ _ => True) u rest

/-- The reply is sent if it fits. -/
theorem ComesToReply.sends {message : Json} {s : σ} {p : Handler Unit}
    (h : ComesToReply answer lib server message s p) :
    Sends lib message (packetsOf answer s p) := by
  obtain ⟨t, rest, hcomes, hrest⟩ := h
  rw [Sends, packetsOf_comes (fun _ => id) hcomes, NetPacketGenerator.packet_bind]
  split
  · let e : Effect := .send { purpose := .GetInfo, message := message }
    show packetsOf answer t (Program.call e fun ok => sent server ok >>= fun _ => rest) = _
    rw [packetsOf_call]
    unfold sent
    split
    · rfl
    · rw [Program.ret_bind, (hrest _).1]
      rfl
  · rfl

/-- It ends if the reply fits and is delivered. -/
theorem ComesToReply.ends_iff {message : Json} {s : σ} {p : Handler Unit} {delivers : Bool}
    (h : ComesToReply answer lib server message s p)
    (hsent : ∀ t p, (answer t (.send p)).2 = delivers) :
    Program.Ends answer (fun _ _ => True) s p ↔
      NetPacketGenerator.fits lib message = true ∧ (server = .boost → delivers = true) := by
  obtain ⟨t, rest, hcomes, hrest⟩ := h
  rw [hcomes.ends_iff, NetPacketGenerator.packet_bind]
  split
  · rename_i hfits
    let e : Effect := .send { purpose := .GetInfo, message := message }
    show Program.Ends answer _ t (Program.call e fun ok => sent server ok >>= fun _ => rest) ↔ _
    rw [Program.ends_call, hsent, and_iff_right hfits]
    unfold sent
    split
    · rename_i hfailed
      simp [hfailed]
    · rename_i hok
      rw [Program.ret_bind]
      refine iff_of_true (hrest _).2 fun hboost => ?_
      simpa [hboost] using hok
  · rename_i hfits
    simp [hfits]

/-- A packet. -/
theorem comes_send {message : Json} (s : σ) : ComesToReply answer lib server message s
    (NetPacketGenerator.packet lib .GetInfo message >>= fun p => send server p) := by
  refine ⟨s, Program.ret (), ?_, fun _ => ⟨rfl, trivial⟩⟩
  have hsend : ∀ p, (send server p >>= fun _ => Program.ret ()) = send server p :=
    fun p => Program.bind_ret _
  simp only [hsend]
  exact .refl _ _

/-- An effect that sends nothing comes before. -/
theorem ComesToReply.after {e : Effect} {next : e.Answer → Handler Unit} {message : Json} {s : σ}
    (he : isPacket e = false)
    (h : ComesToReply answer lib server message (answer s e).1 (next (answer s e).2)) :
    ComesToReply answer lib server message s (Program.call e next) := by
  obtain ⟨t, rest, hcomes, hrest⟩ := h
  exact ⟨t, rest, .call he hcomes, hrest⟩

/-- A query that is answered with some rows. -/
theorem comes_query {command : Command} {rows : List Row} {f : Option (List Row) → Handler Unit}
    {message : Json} {s : σ} (hrows : (answer s (.query_store command)).2 = some rows)
    (h : ComesToReply answer lib server message (answer s (.query_store command)).1
      (f (some rows))) :
    ComesToReply answer lib server message s (query_store command >>= f) := by
  rw [← hrows] at h
  exact ComesToReply.after rfl h

/-- A list of objects. -/
theorem comes_sendList {command : Command} {rows : List Row} {item : Row → Handler Json}
    {g : Row → Json} {packet : Json → Handler NetPacket} {message : Json → Json} {s : σ}
    (hrows : (answer s (.query_store command)).2 = some rows)
    (hitem : ∀ row ∈ rows, item row = Program.ret (g row))
    (hpacket : ∀ value, packet value = NetPacketGenerator.packet lib .GetInfo (message value)) :
    ComesToReply answer lib server (message (listOf (rows.map g))) s
      (sendList server command item packet) := by
  have hloop := loop_push hitem []
  rw [List.nil_append] at hloop
  refine comes_query hrows ?_
  show ComesToReply answer lib server _ _ (Program.loop _ (listOf []) rows >>= _)
  rw [hloop, Program.ret_bind, hpacket]
  exact comes_send _

/-- An object about the first row. -/
theorem comes_sendFirst {command : Command} {rows : List Row} {item : Row → Handler Json}
    {g : List Row → Json} {packet : Json → Handler NetPacket} {message : Json → Json} {s : σ}
    (hrows : (answer s (.query_store command)).2 = some rows)
    (hitem : ∀ row rest, rows = row :: rest → item row = Program.ret (g rows))
    (hnull : g [] = .null)
    (hpacket : ∀ value, packet value = NetPacketGenerator.packet lib .GetInfo (message value)) :
    ComesToReply answer lib server (message (g rows)) s (sendFirst server command item packet) := by
  refine comes_query hrows ?_
  cases rows with
  | nil =>
    simp only [hpacket, hnull]
    exact comes_send _
  | cons row rest =>
    simp only [hitem row rest rfl, Program.ret_bind, hpacket]
    exact comes_send _

/-- The rows of a request's query, which have their columns. -/
theorem Content.Allowed.rows_eq (hc : c.Allowed r) {command : Command} {columns : ℕ}
    (hquery : r.query = some (command, columns)) :
    c.rows command = some (r.found c) ∧ ∀ row ∈ r.found c, row.cells.length = columns := by
  obtain ⟨rows, hrows, hcells⟩ := hc.answered command columns hquery
  have hfound : r.found c = rows := by simp [GetInfo.found, hquery, hrows]
  rw [hfound]
  exact ⟨hrows, hcells⟩

/-- A pushed video gets the publisher that is found, or keeps the one before. -/
theorem withPublisher_eq {found : Option (List Row)}
    (hfound : ∀ row rest, found = some (row :: rest) → row.cells.length = 1) {videoId : String}
    {last : Option String} (done : List Json) :
    withPublisher (pushJson videoId last) (listOf done) found =
      let video := pushJson videoId ((publisherOf found).or last)
      Program.ret (video, listOf (done ++ [video])) := by
  cases found with
  | none =>
    simp only [withPublisher, publisherOf, push_back_listOf, Program.pure_eq, Option.none_or]
  | some publishers =>
    cases publishers with
    | nil =>
      simp only [withPublisher, publisherOf, push_back_listOf, Program.pure_eq, Option.none_or]
    | cons row rows =>
      have hcell : cell row 0 = Program.ret (cellOf row 0) :=
        cell_eq (by rw [hfound row rows rfl]; decide)
      simp only [withPublisher, publisherOf, hcell, Program.ret_bind, set_publisherId_pushJson,
        push_back_listOf, Program.pure_eq, Option.some_or]

/-- What is found for publishers has one column. -/
def Published {σ : Type} (answer : σ → (e : Effect) → σ × e.Answer) : Prop :=
  ∀ s id row rows, (answer s (.query_store (.selectPublisher id))).2 = some (row :: rows) →
    row.cells.length = 1

/-- Pushed videos go into the list one after the other, each with its publisher. -/
theorem comes_pushed (hpublished : Published answer) {rows : List Row}
    (hcells : ∀ row ∈ rows, row.cells.length = 1) {video : Json} {last : Option String}
    (hvideo : ∀ videoId, video.set "videoId" (.str videoId) = pushJson videoId last)
    (done : List Json) {f : Json × Json → Handler Unit} {message : Json} (s : σ)
    (h : ∀ t video', ComesToReply answer lib server message t (f (video', listOf (done ++
      (pushesOf last (lookups answer s rows)).map fun push => pushJson push.1 push.2)))) :
    ComesToReply answer lib server message s
      (Program.loop pushedVideo (video, listOf done) rows >>= f) := by
  induction rows generalizing video last done s with
  | nil =>
    have hnone := h s video
    rw [lookups, pushesOf, List.map_nil, List.append_nil] at hnone
    exact hnone
  | cons row rows ih =>
    have hcell : cell row 0 = Program.ret (cellOf row 0) :=
      cell_eq (by rw [hcells row List.mem_cons_self]; decide)
    have hrest : ∀ row' ∈ rows, row'.cells.length = 1 :=
      fun row' h => hcells row' (List.mem_cons_of_mem _ h)
    rw [Program.loop_cons, Program.bind_assoc, pushedVideo, hcell, Program.ret_bind,
      Program.bind_assoc]
    refine ComesToReply.after (e := .query_store (.selectPublisher (cellOf row 0))) rfl ?_
    show ComesToReply answer lib server message _
      (withPublisher (video.set "videoId" (.str (cellOf row 0))) (listOf done)
      (answer s (.query_store (.selectPublisher (cellOf row 0)))).2 >>= _)
    rw [hvideo, withPublisher_eq (hpublished s (cellOf row 0)), Program.ret_bind]
    refine ih hrest (set_videoId_pushJson _ _) _ _ fun t video' => ?_
    rw [List.append_assoc, List.singleton_append]
    exact h t video'

/-- A list of objects, each made of one column. -/
theorem toJson_column {row : Row} (key : String) (h : row.cells.length = 1) :
    toJson [(key, 0)] row = Program.ret (rowJson [(key, 0)] row) :=
  toJson_eq (by simp) (by simp [h]) (by simp)

/-- The pushes of a user. -/
theorem comes_videoPush (hpublished : Published answer) {userId : String} {rows : List Row} {s : σ}
    (hrows : (answer s (.query_store (.selectVideoPush userId))).2 = some rows)
    (hcells : ∀ row ∈ rows, row.cells.length = 1) :
    ComesToReply answer lib server
      (pushMessage
      (pushesOf none (lookups answer (answer s (.query_store (.selectVideoPush userId))).1 rows))) s
      (sendVideoPush lib server userId) := by
  refine comes_query hrows ?_
  cases rows with
  | nil => exact comes_send _
  | cons row rows =>
    have hnull : ∀ videoId, Json.null.set "videoId" (.str videoId) = pushJson videoId none :=
      fun _ => rfl
    show ComesToReply answer lib server _ _
      (Program.loop pushedVideo (.null, listOf []) (row :: rows) >>= _)
    refine comes_pushed hpublished hcells hnull [] _ fun t video => ?_
    -- the pushes are deleted when they have been sent
    exact ⟨t, query_execute (.deleteVideoPush userId) >>= fun _ => Program.ret (), .refl _ _,
      fun _ => ⟨rfl, trivial⟩⟩

/-- With the same content throughout, the publishers that are found are the database's. -/
theorem pushesOf_lookups (hserves : Serves answer c) (last : Option String) (rows : List Row)
    (s : σ) :
    pushesOf last (lookups answer s rows) = pushes c last rows := by
  induction rows generalizing last s with
  | nil => rfl
  | cons row rows ih =>
    have hfound : publisherOf (answer s (.query_store (.selectPublisher (cellOf row 0)))).2 =
        c.publisher (cellOf row 0) := by
      rw [hserves.1, Content.publisher]
      cases c.rows (.selectPublisher (cellOf row 0)) with
      | none => rfl
      | some found => cases found <;> rfl
    rw [lookups, pushesOf, pushes, hfound, ih]

/-- The surroundings have this content at one point. -/
def Has {σ : Type} (answer : σ → (e : Effect) → σ × e.Answer) (s : σ) (c : Content) : Prop :=
  (∀ command, (answer s (.query_store command)).2 = c.rows command) ∧
    (answer s .getLiveList).2 = c.lives

/-- A request that makes one query comes to its reply. -/
theorem comes_once {s : σ} (hhas : Has answer s c) (hc : c.Allowed r) (hr : r.Of jsonMsg)
    (hpush : ∀ userId, r ≠ .videoPush userId) :
    ComesToReply answer lib server (r.message server c) s
      (SendInfoControl.answer lib server jsonMsg r.infotype) := by
  have hmembers := hr.2
  cases r with
  | comments videoId =>
    obtain ⟨hrows, hcells⟩ := hc.rows_eq rfl
    have hitem : ∀ row ∈ (GetInfo.comments videoId).found c,
        toJson_CommentInfo row = Program.ret (rowJson commentColumns row) := by
      intro row hrow
      exact toJson_eq (by simp) (by simp [hcells row hrow]) (by decide)
    show ComesToReply answer lib server _ s (str jsonMsg "id" >>= _)
    rw [str_eq hmembers, Program.ret_bind]
    exact comes_sendList ((hhas.1 _).trans hrows) hitem (fun _ => rfl)
  | vodList offset num =>
    obtain ⟨hrows, hcells⟩ := hc.rows_eq rfl
    have hitem : ∀ row ∈ (GetInfo.vodList offset num).found c,
        toJson_VodListInfo server row = Program.ret (vodJson server row) := by
      intro row hrow
      rw [toJson_VodListInfo_eq, if_pos (by rw [hcells row hrow]; decide)]
      rfl
    show ComesToReply answer lib server _ s (Program.ofOption (jsonMsg.integer "offset") >>= _)
    rw [hmembers.1, Program.ofOption_some, Program.ret_bind, hmembers.2, Program.ofOption_some,
      Program.ret_bind]
    exact comes_sendList ((hhas.1 _).trans hrows) hitem (fun _ => rfl)
  | videoLike videoId userId =>
    obtain ⟨hrows, hcells⟩ := hc.rows_eq rfl
    have hitem : ∀ row rest, (GetInfo.videoLike videoId userId).found c = row :: rest →
        likeInfo row = Program.ret (likeJson ((GetInfo.videoLike videoId userId).found c)) := by
      intro row rest hrow
      have hmem : row ∈ (GetInfo.videoLike videoId userId).found c := by simp [hrow]
      have hcount : ∀ i, i < 2 → cell row i = Program.ret (cellOf row i) ∧
          (cellOf row i).toInt? = some (countOf row i) := by
        intro i hi
        have hlt : i < row.cells.length := by rw [hcells row hmem]; exact hi
        obtain ⟨n, hn, -⟩ :=
          hc.counted videoId userId _ hrows row hmem row.cells[i] (List.getElem_mem hlt)
        have hcell : cellOf row i = row.cells[i] := by simp [cellOf, hlt]
        exact ⟨cell_eq hlt, by simp [countOf, hcell, hn]⟩
      obtain ⟨hcell₀, hcount₀⟩ := hcount 0 (by decide)
      obtain ⟨hcell₁, hcount₁⟩ := hcount 1 (by decide)
      simp only [likeInfo, hcell₀, hcell₁, hcount₀, hcount₁, Program.ret_bind,
        Program.ofOption_some, Program.pure_eq, hrow]
      rfl
    show ComesToReply answer lib server _ s (str jsonMsg "id" >>= _)
    rw [str_eq hmembers.1, Program.ret_bind, str_eq hmembers.2, Program.ret_bind]
    exact comes_sendFirst ((hhas.1 _).trans hrows) hitem rfl (fun _ => rfl)
  | follow userId =>
    obtain ⟨hrows, hcells⟩ := hc.rows_eq rfl
    show ComesToReply answer lib server _ s (str jsonMsg "userId" >>= _)
    rw [str_eq hmembers, Program.ret_bind]
    exact comes_sendList ((hhas.1 _).trans hrows)
      (fun row hrow => toJson_column "userId" (hcells row hrow)) (fun _ => rfl)
  | fans userId =>
    obtain ⟨hrows, hcells⟩ := hc.rows_eq rfl
    show ComesToReply answer lib server _ s (str jsonMsg "userId" >>= _)
    rw [str_eq hmembers, Program.ret_bind]
    exact comes_sendList ((hhas.1 _).trans hrows)
      (fun row hrow => toJson_column "followerId" (hcells row hrow)) (fun _ => rfl)
  | liveList =>
    refine ComesToReply.after (e := .getLiveList) rfl ?_
    rw [hhas.2]
    show ComesToReply answer lib server _ _
      (NetPacketGenerator.sendLiveList_P lib (List.foldl _ _ _) >>= fun p => send server p)
    rw [foldl_push]
    exact comes_send _
  | nickName userId =>
    obtain ⟨hrows, hcells⟩ := hc.rows_eq rfl
    have hitem : ∀ row rest, (GetInfo.nickName userId).found c = row :: rest →
        (do pure (toJson_NickNameInfo userId (← cell row 0))) =
          (Program.ret (nickNameJson userId ((GetInfo.nickName userId).found c)) : Handler
            Json) := by
      intro row rest hrow
      have hcell : cell row 0 = Program.ret (cellOf row 0) :=
        cell_eq (by rw [hcells row (by simp [hrow])]; decide)
      simp only [hcell, Program.ret_bind, Program.pure_eq, hrow]
      rfl
    show ComesToReply answer lib server _ s (str jsonMsg "userId" >>= _)
    rw [str_eq hmembers, Program.ret_bind]
    exact comes_sendFirst ((hhas.1 _).trans hrows) hitem rfl (fun _ => rfl)
  | userVideo userId =>
    obtain ⟨hrows, hcells⟩ := hc.rows_eq rfl
    show ComesToReply answer lib server _ s (str jsonMsg "userId" >>= _)
    rw [str_eq hmembers, Program.ret_bind]
    exact comes_sendList ((hhas.1 _).trans hrows)
      (fun row hrow => toJson_column "videoId" (hcells row hrow)) (fun _ => rfl)
  | userVideoLike userId =>
    obtain ⟨hrows, hcells⟩ := hc.rows_eq rfl
    show ComesToReply answer lib server _ s (str jsonMsg "userId" >>= _)
    rw [str_eq hmembers, Program.ret_bind]
    exact comes_sendList ((hhas.1 _).trans hrows)
      (fun row hrow => toJson_column "videoId" (hcells row hrow)) (fun _ => rfl)
  | messages userId1 userId2 =>
    obtain ⟨hrows, hcells⟩ := hc.rows_eq rfl
    have hitem : ∀ row ∈ (GetInfo.messages userId1 userId2).found c,
        toJson_MessageInfo row = Program.ret (rowJson messageColumns row) := by
      intro row hrow
      exact toJson_eq (by simp) (by simp [hcells row hrow]) (by decide)
    show ComesToReply answer lib server _ s (str jsonMsg "userId1" >>= _)
    rw [str_eq hmembers.1, Program.ret_bind, str_eq hmembers.2, Program.ret_bind]
    exact comes_sendList ((hhas.1 _).trans hrows) hitem (fun _ => rfl)
  | videoPush userId => exact absurd rfl (hpush userId)

/-- **What a request is sent**, if it fits. -/
theorem sends_answer (hserves : Serves answer c) (hc : c.Allowed r) (hr : r.Of jsonMsg) (s : σ) :
    Sends lib (r.message server c)
      (packetsOf answer s (SendInfoControl.answer lib server jsonMsg r.infotype)) := by
  by_cases hpush : ∀ userId, r ≠ .videoPush userId
  · exact (comes_once ⟨hserves.1 s, hserves.2 s⟩ hc hr hpush).sends
  · obtain ⟨userId, hpush⟩ := not_forall.mp hpush
    obtain rfl : r = .videoPush userId := not_not.mp hpush
    obtain ⟨hrows, hcells⟩ := hc.rows_eq rfl
    have hpublished : Published answer := fun s id row rows hfound =>
      hc.published id row rows ((hserves.1 s _).symm.trans hfound)
    have hcomes : ComesToReply answer lib server _ s (sendVideoPush lib server userId) :=
      comes_videoPush hpublished ((hserves.1 s _).trans hrows) hcells
    rw [pushesOf_lookups hserves] at hcomes
    show Sends lib _ (packetsOf answer s (str jsonMsg "userId" >>= _))
    rw [str_eq hr.2, Program.ret_bind]
    exact hcomes.sends

end Runs

/-! ### Lengths -/

/-- The length of some cells of a row. -/
def rowLength (columns : List (String × ℕ)) (row : Row) : ℕ := cellsLength columns row.cells

/-- The length of a video of the list. -/
def vodLength (server : Server) (row : Row) : ℕ := vodObjectLength server row.cells

/-- The length of the likes of a video. -/
def likeLength : List Row → ℕ
  | row :: _ =>
    objLength
    [("likeCount", intLength (countOf row 0)), ("ifLike", if countOf row 1 = 0 then 5 else 4)]
  | [] => 4

/-- The length of a nickname. -/
def nickNameLength (userId : String) : List Row → ℕ
  | row :: _ => objLength [("userId", strLength userId), ("nickName", strLength (cellOf row 0))]
  | [] => 4

/-- The length of a stream. -/
def liveLength (live : String × String) : ℕ :=
  objLength [("publisherId", strLength live.1), ("url", strLength live.2)]

/-- **The length of a reply**, from the cells of the rows and the live list. -/
def GetInfo.replyLength (server : Server) (c : Content) (r : GetInfo) : ℕ :=
  let rows := r.found c
  match r with
  | comments _ => infoLength .Comment "comments" (listLength (rows.map (rowLength commentColumns)))
  | vodList _ _ => infoLength .VodList "vodList" (listLength (rows.map (vodLength server)))
  | videoLike _ _ => infoLength .VideoLike "likeInfo" (likeLength rows)
  | follow _ => infoLength .Follow "followInfo" (listLength (rows.map (rowLength [("userId", 0)])))
  | fans _ => infoLength .Fans "fansInfo" (listLength (rows.map (rowLength [("followerId", 0)])))
  | liveList => infoLength .LiveList "liveList" (listLength (c.lives.map liveLength))
  | nickName userId => infoLength .NickName "nickNameInfo" (nickNameLength userId rows)
  | userVideo userId =>
    infoOfLength .UserVideo userId "userVideoList"
      (listLength (rows.map (rowLength [("videoId", 0)])))
  | userVideoLike userId =>
    infoOfLength .UserVideoLike userId "userVideoLikeList"
      (listLength (rows.map (rowLength [("videoId", 0)])))
  | messages _ _ =>
    infoLength .Message "messages" (listLength (rows.map (rowLength messageColumns)))
  | videoPush _ => infoLength .VideoPush "videos"
      (listLength ((pushes c none rows).map fun push => pushLength push.1 push.2))

theorem hasLength_rowJson {columns : List (String × ℕ)} (hkeys : (columns.map Prod.fst).Nodup)
    (row : Row) :
    HasLength (rowJson columns row) (rowLength columns row) := hasLength_rowObject hkeys row.cells

theorem hasLength_vodJson (server : Server) (row : Row) :
    HasLength (vodJson server row) (vodLength server row) :=
  hasLength_vodObject server row.cells

theorem hasLength_likeJson {rows : List Row} (hcount : ∀ row ∈ rows, -2 ^ 31 ≤ countOf row 0 ∧
      countOf row 0 < 2 ^ 31) :
    HasLength (likeJson rows) (likeLength rows) := by
  cases rows with
  | nil => exact hasLength_null
  | cons row rows =>
    obtain ⟨hlow, hhigh⟩ := hcount row List.mem_cons_self
    refine hasLength_obj (show ["likeCount", "ifLike"].Nodup by decide)
      (.cons ⟨rfl, hasLength_int hlow hhigh⟩ (.cons ⟨rfl, ?_⟩ .nil))
    have hbool := hasLength_bool (decide (countOf row 1 ≠ 0))
    simpa using hbool

theorem hasLength_nickNameJson (userId : String) (rows : List Row) :
    HasLength (nickNameJson userId rows) (nickNameLength userId rows) := by
  cases rows with
  | nil => exact hasLength_null
  | cons row rows =>
    exact hasLength_obj (show ["userId", "nickName"].Nodup by decide)
      (.cons ⟨rfl, hasLength_str _⟩ (.cons ⟨rfl, hasLength_str _⟩ .nil))

theorem hasLength_liveJson (live : String × String) : HasLength (liveJson live) (liveLength live) :=
  hasLength_obj (show ["publisherId", "url"].Nodup by decide)
    (.cons ⟨rfl, hasLength_str _⟩ (.cons ⟨rfl, hasLength_str _⟩ .nil))

theorem hasLength_pushMessage (pushed : List (String × Option String)) :
    HasLength (pushMessage pushed)
    (infoLength .VideoPush "videos"
      (listLength (pushed.map fun push => pushLength push.1 push.2))) :=
  hasLength_info _ (by decide) (hasLength_map hasLength_pushJson _)

/-- Counts of an `int`, where the content is allowed. -/
theorem Content.Allowed.countOf_bounds {c : Content} {videoId userId : String}
    (hc : c.Allowed (.videoLike videoId userId)) :
    ∀ row ∈ (GetInfo.videoLike videoId userId).found c, -2 ^ 31 ≤ countOf row 0 ∧
      countOf row 0 < 2 ^ 31 := by
  intro row hrow
  obtain ⟨hrows, hcells⟩ := hc.rows_eq rfl
  have hlt : 0 < row.cells.length := by rw [hcells row hrow]; decide
  obtain ⟨n, hn, hlow, hhigh⟩ :=
    hc.counted videoId userId _ hrows row hrow row.cells[0] (List.getElem_mem hlt)
  have hcount : countOf row 0 = n := by simp [countOf, cellOf, List.getElem?_eq_getElem hlt, hn]
  rw [hcount]
  exact ⟨hlow, hhigh⟩

/-- The message of a reply has the length of the reply. -/
theorem hasLength_message {c : Content} {r : GetInfo} (server : Server) (hc : c.Allowed r) :
    HasLength (r.message server c) (r.replyLength server c) := by
  have hone :
      ∀ (key : String) (row : Row), HasLength (rowJson [(key, 0)] row) (rowLength [(key, 0)] row) :=
    fun key => hasLength_rowJson (show [key].Nodup from List.nodup_singleton _)
  cases r with
  | comments videoId =>
    exact hasLength_info _ (by decide) (hasLength_map (hasLength_rowJson (by decide)) _)
  | vodList offset num =>
    exact hasLength_info _ (by decide) (hasLength_map (hasLength_vodJson server) _)
  | videoLike videoId userId =>
    exact hasLength_info _ (by decide) (hasLength_likeJson hc.countOf_bounds)
  | follow userId => exact hasLength_info _ (by decide) (hasLength_map (hone _) _)
  | fans userId => exact hasLength_info _ (by decide) (hasLength_map (hone _) _)
  | liveList => exact hasLength_info _ (by decide) (hasLength_map hasLength_liveJson _)
  | nickName userId => exact hasLength_info _ (by decide) (hasLength_nickNameJson userId _)
  | userVideo userId => exact hasLength_infoOf _ userId (by decide) (hasLength_map (hone _) _)
  | userVideoLike userId => exact hasLength_infoOf _ userId (by decide) (hasLength_map (hone _) _)
  | messages userId1 userId2 =>
    exact hasLength_info _ (by decide) (hasLength_map (hasLength_rowJson (by decide)) _)
  | videoPush userId => exact hasLength_pushMessage _

/-! ### Which replies fit -/

/-- The header of a packet. -/
def packetHeader (lib : Nlohmann) (p : NetPacket) : NetPacketHeader where
  purpose := p.purpose.code
  data_size := UInt32.ofNat (lib.dump p.message).length

/-- The memory of a packet: `strcpy` stops at the first zero of the text, and what is behind the
end of the copy is whatever was there. -/
def packetMemory (lib : Nlohmann) (p : NetPacket) (garbage : List UInt8) : List UInt8 :=
  (packetHeader lib p).bytes ++ ((lib.dump p.message).takeWhile (· ≠ 0) ++ 0 :: garbage)

/-- The text of a packet fits, and what is sent is the header and the text. -/
def InBounds (lib : Nlohmann) (p : NetPacket) : Prop :=
  (lib.dump p.message).length ≤ BUF_SIZE - 1 ∧
    ∀ garbage, (packetMemory lib p garbage).take
      (headerSize + (packetHeader lib p).data_size.toNat) =
      (packetHeader lib p).bytes ++ lib.dump p.message

/-- A request gets one reply, in bounds, whenever it is served with this content. -/
def RepliesFit (lib : Nlohmann) (server : Server) (buf : List UInt8) (c : Content) : Prop :=
  ∀ {σ : Type} (answer : σ → (e : Effect) → σ × e.Answer) (s : σ), Serves answer c →
    ∃ p, packetsOf answer s (send_info lib server buf) = [.send p] ∧ InBounds lib p

/-- Surroundings with this content. -/
def serving (c : Content) (s : Unit) : (e : Effect) → Unit × e.Answer
  | .query_store command => ((), c.rows command)
  | .getLiveList => ((), c.lives)
  | e => sameFiles [] s e

theorem serves_serving (c : Content) : Serves (serving c) c := ⟨fun _ _ => rfl, fun _ => rfl⟩

theorem inBounds_of_lt {lib : Nlohmann} {p : NetPacket} (hzero : 0 ∉ lib.dump p.message)
    (hlt : (lib.dump p.message).length < BUF_SIZE) : InBounds lib p := by
  refine ⟨Nat.le_sub_one_of_lt hlt, fun garbage => ?_⟩
  have hsize : (packetHeader lib p).data_size.toNat = (lib.dump p.message).length := by
    rw [packetHeader, UInt32.toNat_ofNat']
    exact Nat.mod_eq_of_lt (hlt.trans (by decide))
  have hall :
      (lib.dump p.message ++ []).takeWhile (· ≠ 0) = lib.dump p.message ++ [].takeWhile (· ≠ 0) :=
    List.takeWhile_append_of_pos fun b hb => decide_eq_true fun h0 => hzero (h0 ▸ hb)
  rw [List.takeWhile_nil, List.append_nil] at hall
  rw [packetMemory, hall, ← List.append_assoc, hsize, List.take_left']
  rw [List.length_append, NetPacketHeader.length_bytes]

section Fits

variable {lib : Nlohmann} {server : Server} {buf : List UInt8} {jsonMsg : Json} {r : GetInfo}
  {c : Content}

theorem dump_message (hlib : lib.Writes) (hc : c.Allowed r) :
    lib.dump (r.message server c) = (r.message server c).text :=
  hlib.dump_eq (hasLength_message server hc).written

theorem fits_message (hlib : lib.Writes) (hc : c.Allowed r) :
    NetPacketGenerator.fits lib (r.message server c) = true ↔ r.replyLength server c < BUF_SIZE :=
  fits_iff hlib (hasLength_message server hc)

theorem sends_send_info {σ : Type} {answer : σ → (e : Effect) → σ × e.Answer}
    (hparse : lib.parse buf = some jsonMsg) (hr : r.Of jsonMsg) (hc : c.Allowed r)
    (hserves : Serves answer c) (s : σ) :
    Sends lib (r.message server c) (packetsOf answer s (send_info lib server buf)) := by
  have hcode : InfoType.ofCode r.infotype.code = some r.infotype := by cases r <;> rfl
  rw [send_info, hparse, Program.ofOption_some, Program.ret_bind, hr.1, Program.ofOption_some,
    Program.ret_bind]
  simp only [hcode]
  exact sends_answer hserves hc hr s

theorem RepliesFit.lt (hlib : lib.Writes) (hparse : lib.parse buf = some jsonMsg)
    (hr : r.Of jsonMsg) (hc : c.Allowed r)
    (h : RepliesFit lib server buf c) : r.replyLength server c < BUF_SIZE := by
  obtain ⟨p, hp, -⟩ := h (serving c) () (serves_serving c)
  have hsends :
      Sends lib (r.message server c) (packetsOf (serving c) () (send_info lib server buf)) :=
    sends_send_info hparse hr hc (serves_serving c) ()
  rw [hp, Sends] at hsends
  by_contra hno
  rw [if_neg fun hfits => hno ((fits_message hlib hc).mp hfits)] at hsends
  cases hsends

theorem repliesFit_of_lt (hlib : lib.Writes) (hparse : lib.parse buf = some jsonMsg)
    (hr : r.Of jsonMsg) (hc : c.Allowed r)
    (hlt : r.replyLength server c < BUF_SIZE) : RepliesFit lib server buf c := by
  intro σ answer s hserves
  have hfits : NetPacketGenerator.fits lib (r.message server c) = true :=
    (fits_message hlib hc).mpr hlt
  have hsends : Sends lib (r.message server c) (packetsOf answer s (send_info lib server buf)) :=
    sends_send_info hparse hr hc hserves s
  rw [Sends, if_pos hfits] at hsends
  refine ⟨_, hsends, inBounds_of_lt ?_ (of_decide_eq_true hfits)⟩
  rw [dump_message hlib hc]
  exact Json.zero_not_mem_text _

end Fits

/-- **Which replies fit.** -/
theorem repliesFit_iff (lib : Nlohmann) (server : Server) (buf : List UInt8) (jsonMsg : Json)
    (r : GetInfo) (c : Content) (hlib : lib.Writes) (hparse : lib.parse buf = some jsonMsg)
    (hr : r.Of jsonMsg)
    (hc : c.Allowed r) : RepliesFit lib server buf c ↔ r.replyLength server c < BUF_SIZE :=
  ⟨RepliesFit.lt hlib hparse hr hc, repliesFit_of_lt hlib hparse hr hc⟩

/-! ### A reply that does not fit -/

/-- A comment of 500 letters, the most a column holds. -/
def longComment : Row where
  number := 0
  cells := ["1", "0", "1", "1", letters 500, "2025-01-01 00:00:00"]

/-- A database with some of these comments on one video. -/
def longComments (n : ℕ) : Content where
  rows := fun command => if command = .selectComments "1" then some (List.replicate n longComment)
    else some []
  lives := []

theorem allowed_longComments (n : ℕ) : (longComments n).Allowed (.comments "1") where
  answered := by
    rintro command columns ⟨⟩
    refine ⟨List.replicate n longComment, rfl, fun row hrow => ?_⟩
    rw [List.eq_of_mem_replicate hrow]
    rfl
  counted := by
    rintro videoId userId rows ⟨⟩ row hrow
    exact absurd hrow List.not_mem_nil
  published := by
    rintro id row rows ⟨⟩

theorem found_longComments (n : ℕ) :
    (GetInfo.comments "1").found (longComments n) = List.replicate n longComment := by
  simp [GetInfo.found, GetInfo.query, longComments]

theorem rowLength_longComment : rowLength commentColumns longComment = 605 := by
  have hcontent : strLength (letters 500) = 502 := by rw [strLength, length_letters]
  show objLength
    [("id", strLength "1"), ("replyCommentId", strLength "0"), ("publisherId", strLength "1"),
    ("videoId", strLength "1"), ("content", strLength (letters 500)),
      ("time", strLength "2025-01-01 00:00:00")] = 605
  rw [hcontent]
  decide

/-- The request for them. -/
def commentsRequest : Json := .obj [("infotype", .int 0), ("id", .str "1")]

theorem commentsRequest_of : (GetInfo.comments "1").Of commentsRequest := ⟨rfl, rfl⟩

theorem parse_commentsRequest :
    (knowing [commentsRequest]).parse commentsRequest.text = some commentsRequest := by
  simp [knowing]

/-- Of one comment the client is told. -/
theorem repliesFit_iff_comment :
    RepliesFit (knowing [commentsRequest]) .epoll commentsRequest.text (longComments 1) ↔
      (GetInfo.comments "1").replyLength .epoll (longComments 1) < BUF_SIZE :=
  repliesFit_iff (knowing [commentsRequest]) .epoll commentsRequest.text commentsRequest
    (.comments "1")
    (longComments 1) (writes_knowing _) parse_commentsRequest commentsRequest_of
      (allowed_longComments 1)

/-- Seventeen comments are too many. -/
theorem comments_overflow :
    ¬ ∃ server, RepliesFit (knowing [commentsRequest]) server commentsRequest.text
      (longComments 17) := by
  rintro ⟨server, hfit⟩
  have hlt :=
    hfit.lt (writes_knowing _) parse_commentsRequest commentsRequest_of (allowed_longComments 17)
  rw [GetInfo.replyLength, found_longComments, List.map_replicate, rowLength_longComment] at hlt
  exact absurd hlt (by decide)

end PickUpLight.Replies
