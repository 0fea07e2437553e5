import PickUpLight.Control.JsonText
import PickUpLight.Store.Serving
import PickUpLight.Store.Toggles
import PickUpLight.Store.VideoPush

/-!
# Publishers of pushed videos

`send_info` looks for the publisher of each video a user is pushed. The object it puts the answer
into is one for all of them, so a video whose publisher is not found goes out with the one found
last: that of another video, which `Stale` says.
-/

namespace PickUpLight.Store

open PickUpLight.Theory PickUpLight.Control PickUpLight.Wire PickUpLight.Sql

/-! ### What is looked for, and found -/

variable {H : Type}

/-- There is a row of `Video` with an id and a publisher. -/
def Tables.publishes (t : Tables) (videoId publisherId : String) : Prop :=
  ∃ cells ∈ t.cells .Video, cells.getD 0 "" = videoId ∧ cells.getD 1 "" = publisherId

/-- The publisher in an answer. -/
def publisherIn : Option (List Row) → Option String
  | some (row :: _) => row.cells.head?
  | _ => none

/-- The videos of some pushes, each with the publisher that is found, if one is: there may be none,
or the query fails. The query for the first is the statement `n`. -/
def Database.lookups (db : Database H) (t : Tables) (ms : ℕ → Meeting H) :
    ℕ → List Row → List (String × Option String)
  | _, [] => []
  | n, row :: rows =>
    (row.cells.headD "",
      publisherIn
        (db.store t (ms n).db (Control.Command.selectPublisher (row.cells.headD "")).text)) ::
      Database.lookups db t ms (n + 1) rows

/-- The publisher that was found last. -/
def lastFound (looked : List (String × Option String)) : Option String :=
  (looked.filterMap Prod.snd).getLast?

/-- **A video whose publisher is not found**, after another one was found that does not publish
it. -/
def Stale (t : Tables) (looked : List (String × Option String)) : Prop :=
  ∃ before videoId after publisherId, looked = before ++ (videoId, none) :: after ∧
    lastFound before = some publisherId ∧ ¬ t.publishes videoId publisherId

/-- The queries of a fetch answer with cells of the tables: the column they name, of rows with the
id they name. -/
structure Database.Selects (db : Database H) (t : Tables) (userId : String) : Prop where
  pushes : ∀ h rows, db.store t h (Control.Command.selectVideoPush userId).text = some rows →
    ∀ row ∈ rows, ∃ videoId, row.cells = [videoId] ∧
      ∀ h found others, db.store t h (Control.Command.selectPublisher videoId).text =
        some (found :: others) →
        ∃ publisherId, found.cells = [publisherId] ∧ t.publishes videoId publisherId

/-! ### The reply -/

/-- The videos of a reply. -/
def videosOf : Json → List Json
  | .arr videos => videos
  | _ => []

/-- **The publisher an entry names is that of its video.** -/
def NamesPublisher (t : Tables) (video : Json) : Prop :=
  ∀ publisherId, video.string "publisherId" = some publisherId →
    ∃ videoId, video.string "videoId" = some videoId ∧ t.publishes videoId publisherId

/-- The object of a video, after what is found for it. -/
def afterLookup (video : Json) : String × Option String → Json
  | (videoId, some publisherId) =>
    (video.set "videoId" (.str videoId)).set "publisherId" (.str publisherId)
  | (videoId, none) => video.set "videoId" (.str videoId)

/-- The objects of the videos, one after the other. -/
def entriesFrom (video : Json) : List (String × Option String) → List Json
  | [] => []
  | found :: looked => afterLookup video found :: entriesFrom (afterLookup video found) looked

/-- The lengths of the objects: each has the publisher that was found last, if one was. -/
def entryLengths : Option String → List (String × Option String) → List ℕ
  | _, [] => []
  | last, (videoId, found) :: looked =>
    pushLength videoId (found.or last) :: entryLengths (found.or last) looked

/-- The length of a reply. -/
def pushesLength (looked : List (String × Option String)) : ℕ :=
  infoLength .VideoPush "videos" (listLength (entryLengths none looked))

/-! ### Entries -/

section Entries

variable {video e : Json} {t : Tables} {x : String × Option String}
  {before looked : List (String × Option String)}

theorem videoId_afterLookup : (afterLookup video x).string "videoId" = some x.1 := by
  obtain ⟨videoId, publisher⟩ := x
  cases publisher with
  | none => exact Json.string_set_self ..
  | some publisherId =>
    rw [afterLookup, Json.string_set_ne (by decide)]
    exact Json.string_set_self ..

theorem publisherId_afterLookup :
    (afterLookup video x).string "publisherId" = x.2.or (video.string "publisherId") := by
  obtain ⟨videoId, publisher⟩ := x
  cases publisher with
  | none => exact Json.string_set_ne (by decide) ..
  | some publisherId => exact Json.string_set_self ..

theorem lastFound_concat : lastFound (before ++ [x]) = x.2.or (lastFound before) := by
  obtain ⟨videoId, publisher⟩ := x
  cases publisher <;> simp [lastFound]

/-- **The object keeps the publisher that was found last.** -/
theorem publisherId_foldl : (before.foldl afterLookup .null).string "publisherId" =
      lastFound before := by
  induction before using List.reverseRecOn with
  | nil => rfl
  | append_singleton before x ih =>
    rw [List.foldl_append, List.foldl_cons, List.foldl_nil, publisherId_afterLookup, ih,
      lastFound_concat]

/-- An entry is the object after what came before it. -/
theorem mem_entriesFrom : e ∈ entriesFrom video looked ↔
    ∃ before x after, looked = before ++ x :: after ∧
      e = afterLookup (before.foldl afterLookup video) x := by
  induction looked generalizing video with
  | nil => simp [entriesFrom]
  | cons y looked ih =>
    rw [entriesFrom, List.mem_cons, ih]
    constructor
    · rintro (rfl | ⟨before, x, after, rfl, rfl⟩)
      · exact ⟨[], y, looked, rfl, rfl⟩
      · exact ⟨y :: before, x, after, rfl, rfl⟩
    · rintro ⟨before, x, after, hsplit, rfl⟩
      cases before with
      | nil =>
        cases hsplit
        exact .inl rfl
      | cons y' before =>
        cases hsplit
        exact .inr ⟨before, x, after, rfl, rfl⟩

theorem map_videoId_entriesFrom :
    (entriesFrom video looked).map (fun e => (e.string "videoId").getD "") =
      looked.map Prod.fst := by
  induction looked generalizing video with
  | nil => rfl
  | cons x looked ih =>
    rw [entriesFrom, List.map_cons, ih, videoId_afterLookup]
    rfl

/-- **Entries name their publishers** when none of them is stale. -/
theorem namesPublisher_iff (hfound : ∀ x ∈ looked, ∀ publisherId, x.2 = some publisherId →
      t.publishes x.1 publisherId) :
    (∀ e ∈ entriesFrom .null looked, NamesPublisher t e) ↔ ¬ Stale t looked := by
  have hpublisher :
      ∀ before x, (afterLookup (before.foldl afterLookup .null) x).string "publisherId" =
        x.2.or (lastFound before) := by
    intro before x
    rw [publisherId_afterLookup, publisherId_foldl]
  constructor
  · rintro h ⟨before, videoId, after, publisherId, hlooked, hlast, hnot⟩
    have hnames :=
      h _ (mem_entriesFrom.mpr ⟨before, (videoId, none), after, hlooked, rfl⟩) publisherId
    obtain ⟨videoId', hvideo, hpublishes⟩ := hnames ((hpublisher before _).trans hlast)
    rw [videoId_afterLookup] at hvideo
    cases hvideo
    exact hnot hpublishes
  · intro hstale e he publisherId hnamed
    obtain ⟨before, ⟨videoId, found⟩, after, hlooked, rfl⟩ := mem_entriesFrom.mp he
    rw [hpublisher] at hnamed
    refine ⟨videoId, videoId_afterLookup, ?_⟩
    cases found with
    | some p =>
      cases hnamed
      exact hfound (videoId, some publisherId) (by rw [hlooked]; simp) publisherId rfl
    | none =>
      by_contra hnot
      exact hstale ⟨before, videoId, after, publisherId, hlooked, hnamed, hnot⟩

theorem afterLookup_eq {last : Option String}
    (hvideo : ∀ videoId, video.set "videoId" (.str videoId) = pushJson videoId last) :
    afterLookup video x = pushJson x.1 (x.2.or last) := by
  obtain ⟨videoId, found⟩ := x
  cases found with
  | none => exact hvideo videoId
  | some publisherId => rw [afterLookup, hvideo, set_publisherId_pushJson, Option.some_or]

theorem hasLength_entriesFrom {last : Option String}
    (hvideo : ∀ videoId, video.set "videoId" (.str videoId) = pushJson videoId last) :
    List.Forall₂ HasLength (entriesFrom video looked) (entryLengths last looked) := by
  induction looked generalizing video last with
  | nil => exact .nil
  | cons x looked ih =>
    rw [entriesFrom, afterLookup_eq hvideo]
    exact .cons (hasLength_pushJson (x.1, x.2.or last))
      (ih (set_videoId_pushJson x.1 (x.2.or last)))

theorem hasLength_pushPacket (looked : List (String × Option String)) :
    HasLength (pushPacket (listOf (entriesFrom .null looked))).message (pushesLength looked) :=
  hasLength_info .VideoPush (by decide) (hasLength_listOf (hasLength_entriesFrom fun _ => rfl))

end Entries

/-! ### Replies -/

variable {db : Database H} {t : Tables} {ms : ℕ → Meeting H} {lib : Nlohmann} {server : Server}
  {buf : List UInt8} {userId : String}

/-- One video: its publisher is looked for, and it goes to the end of the list. -/
theorem sends_pushedVideo {video : Json} {items : List Json} {row : Row} {n : ℕ} {videoId : String}
    (hrow : row.cells = [videoId])
    (hfound : ∀ h found others, db.store t h (Control.Command.selectPublisher videoId).text =
      some (found :: others) →
      ∃ publisherId, found.cells = [publisherId] ∧ t.publishes videoId publisherId)
    (next : Json × Json → Handler Unit) :
    db.sends ms n (SendInfoControl.pushedVideo (video, listOf items) row >>= next) t =
      db.sends ms (n + 1)
        (next (afterLookup video (videoId,
            publisherIn (db.store t (ms n).db (Control.Command.selectPublisher videoId).text)),
          listOf (items ++ [afterLookup video (videoId,
            publisherIn (db.store t (ms n).db (Control.Command.selectPublisher videoId).text))])))
        t := by
  have hcell : Handler.cell row 0 = Program.ret videoId := by rw [Handler.cell, hrow]; rfl
  rw [SendInfoControl.pushedVideo, hcell, Program.ret_bind, Program.bind_assoc, sends_query]
  cases hstore : db.store t (ms n).db (Control.Command.selectPublisher videoId).text with
  | none => rw [← push_back_listOf]; rfl
  | some rows =>
    cases rows with
    | nil => rw [← push_back_listOf]; rfl
    | cons found others =>
      obtain ⟨publisherId, hcells, -⟩ := hfound _ found others hstore
      have hcell : Handler.cell found 0 = Program.ret publisherId := by
        rw [Handler.cell, hcells]; rfl
      have hpublisher : publisherIn (some (found :: others)) = some publisherId := by
        rw [publisherIn, hcells]
        rfl
      rw [hpublisher, SendInfoControl.withPublisher, hcell, ← push_back_listOf]
      rfl

/-- The loop over the pushes. -/
theorem sends_pushedVideos {rows : List Row} {video : Json} {items : List Json} {n : ℕ}
    (hrows : ∀ row ∈ rows, ∃ videoId, row.cells = [videoId] ∧
      ∀ h found others, db.store t h (Control.Command.selectPublisher videoId).text =
      some (found :: others) →
        ∃ publisherId, found.cells = [publisherId] ∧ t.publishes videoId publisherId)
    (next : Json → Handler Unit) :
    db.sends ms n
      (Program.loop SendInfoControl.pushedVideo (video, listOf items) rows >>= fun acc =>
      next acc.2) t =
      db.sends ms (n + rows.length)
        (next (listOf (items ++ entriesFrom video (db.lookups t ms n rows)))) t := by
  induction rows generalizing video items n with
  | nil =>
    simp only [Database.lookups, entriesFrom, List.append_nil]
    rfl
  | cons row rows ih =>
    obtain ⟨videoId, hrow, hfound⟩ := hrows row (List.mem_cons_self ..)
    have hhead : row.cells.headD "" = videoId := by rw [hrow]; rfl
    rw [Program.loop_cons, Program.bind_assoc, sends_pushedVideo hrow hfound,
      ih fun row hrow => hrows row (List.mem_cons_of_mem _ hrow)]
    simp only [Database.lookups, entriesFrom, hhead, List.append_assoc, List.singleton_append,
      List.length_cons]
    rw [Nat.add_assoc, Nat.add_comm 1]

/-- What is found is a publisher of the video. -/
theorem mem_lookups {rows : List Row} {n : ℕ}
    (hrows : ∀ row ∈ rows, ∃ videoId, row.cells = [videoId] ∧
      ∀ h found others, db.store t h (Control.Command.selectPublisher videoId).text =
      some (found :: others) →
        ∃ publisherId, found.cells = [publisherId] ∧ t.publishes videoId publisherId) :
    ∀ x ∈ db.lookups t ms n rows, ∀ publisherId, x.2 = some publisherId →
      t.publishes x.1 publisherId := by
  induction rows generalizing n with
  | nil => simp [Database.lookups]
  | cons row rows ih =>
    rw [Database.lookups, List.forall_mem_cons]
    refine ⟨?_, ih fun row hrow => hrows row (List.mem_cons_of_mem _ hrow)⟩
    obtain ⟨videoId, hrow, hfound⟩ := hrows row (List.mem_cons_self ..)
    have hhead : row.cells.headD "" = videoId := by rw [hrow]; rfl
    rw [hhead]
    intro publisherId hpublisher
    unfold publisherIn at hpublisher
    split at hpublisher
    · rename_i found others hstore
      obtain ⟨p, hcells, hpublishes⟩ := hfound _ found others hstore
      rw [hcells] at hpublisher
      cases hpublisher
      exact hpublishes
    · cases hpublisher

theorem map_fst_lookups (rows : List Row) (n : ℕ) :
    (db.lookups t ms n rows).map Prod.fst = column rows := by
  induction rows generalizing n with
  | nil => rfl
  | cons row rows ih =>
    rw [Database.lookups, List.map_cons, ih]
    rfl

theorem sends_pushes {n : ℕ} (videos : Json) :
    db.sends ms n (SendInfoControl.sendPushes lib server userId videos) t =
      if NetPacketGenerator.fits lib (pushPacket videos).message then [pushPacket videos] else
      [] := by
  have hpacket : SendInfoControl.sendPushes lib server userId videos =
      if NetPacketGenerator.fits lib (pushPacket videos).message then
        Handler.send server (pushPacket videos) >>= fun _ =>
          Handler.query_execute (.deleteVideoPush userId) >>= fun _ => Program.ret ()
      else Program.fail := NetPacketGenerator.packet_bind lib _ _ _
  rw [hpacket]
  split
  · refine sends_send fun ok => ?_
    cases server <;> cases ok <;> rfl
  · rfl

theorem sends_noPushes {n : ℕ} :
    db.sends ms n (NetPacketGenerator.sendVideoPushInfo_P lib .null >>= Handler.send server) t =
      if NetPacketGenerator.fits lib (pushPacket .null).message then [pushPacket .null] else
      [] := by
  have hpacket : NetPacketGenerator.sendVideoPushInfo_P lib .null >>= Handler.send server =
      if NetPacketGenerator.fits lib (pushPacket .null).message then Handler.send server
        (pushPacket .null)
      else Program.fail := NetPacketGenerator.packet_bind lib _ _ _
  rw [hpacket]
  split
  · refine sends_send fun ok => ?_
    cases server <;> cases ok <;> rfl
  · rfl

variable {jsonMsg : Json} {rows : List Row}

/-- **The reply to a fetch.** -/
theorem sends_fetch (server : Server) (hbuf : pushQuery lib buf = some jsonMsg)
    (huser : jsonMsg.string "userId" = some userId) (hdb : db.Selects t userId)
    (hrows : db.store t (ms 0).db (Control.Command.selectVideoPush userId).text = some rows) :
    db.sends ms 0 (SendInfoControl.send_info lib server buf) t =
      if NetPacketGenerator.fits lib
      (pushPacket (listOf (entriesFrom .null (db.lookups t ms 1 rows)))).message then
        [pushPacket (listOf (entriesFrom .null (db.lookups t ms 1 rows)))]
      else [] := by
  simp only [pushQuery, Option.bind_eq_some_iff, Option.ite_none_right_eq_some,
    Option.some.injEq] at hbuf
  obtain ⟨j, hparse, infotype, hinfo, htype, rfl⟩ := hbuf
  simp only [SendInfoControl.send_info, hparse, hinfo, Program.ofOption_some, Program.ret_bind,
    htype, SendInfoControl.answer, Handler.str_eq huser]
  rw [SendInfoControl.sendVideoPush, sends_query, hrows]
  cases rows with
  | nil => exact sends_noPushes
  | cons row rows =>
    have hnull : Json.null = listOf [] := rfl
    rw [hnull]
    exact (sends_pushedVideos (hdb.pushes (ms 0).db _ hrows) _).trans (sends_pushes _)

/-- **When pushed videos name their publishers**: a reply with one entry for each push that is
selected, in the same order, in which every publisher is that of its video, is sent when no video is
stale and the entries fit into a packet. -/
theorem names_publisher_iff (hlib : lib.Writes) (server : Server)
    (hbuf : pushQuery lib buf = some jsonMsg) (huser : jsonMsg.string "userId" = some userId)
    (hdb : db.Selects t userId)
    (hrows : db.store t (ms 0).db (Control.Command.selectVideoPush userId).text = some rows) :
    (∃ videos : Json,
      db.sends ms 0 (SendInfoControl.send_info lib server buf) t = [pushPacket videos] ∧
      videoIds videos = column rows ∧ ∀ video ∈ videosOf videos, NamesPublisher t video) ↔
    ¬ Stale t (db.lookups t ms 1 rows) ∧ pushesLength (db.lookups t ms 1 rows) < BUF_SIZE := by
  rw [sends_fetch server hbuf huser hdb hrows]
  generalize hlooked : db.lookups t ms 1 rows = looked
  have hfits :
      NetPacketGenerator.fits lib (pushPacket (listOf (entriesFrom .null looked))).message = true ↔
        pushesLength looked < BUF_SIZE := fits_iff hlib (hasLength_pushPacket looked)
  have hvideos : videosOf (listOf (entriesFrom .null looked)) = entriesFrom .null looked := by
    cases entriesFrom .null looked <;> rfl
  have hnames : (∀ video ∈ videosOf (listOf (entriesFrom .null looked)), NamesPublisher t video) ↔
      ¬ Stale t looked := by
    rw [hvideos]
    exact namesPublisher_iff (hlooked ▸ mem_lookups (hdb.pushes (ms 0).db rows hrows))
  constructor
  · rintro ⟨videos, hsent, -, hall⟩
    obtain ⟨hfit, heq⟩ := sent_eq hsent
    rw [← info_injective (by decide) heq] at hall
    exact ⟨hnames.mp hall, hfits.mp hfit⟩
  · rintro ⟨hstale, hlength⟩
    refine ⟨_, if_pos (hfits.mpr hlength), ?_, hnames.mpr hstale⟩
    have hids : ∀ values : List Json, videoIds (listOf values) =
        values.map fun e => (e.string "videoId").getD "" := by
      intro values
      cases values <;> rfl
    rw [hids, map_videoId_entriesFrom, ← hlooked, map_fst_lookups]

/-! ### Databases that follow SQL -/

section Follows

variable {v : String} {now : H → String} {equals : String → String → Bool}

theorem parse_selectVideoPush (hv : IsNumber v) : parse (Control.Command.selectVideoPush v).text =
    some (.query (.rows (some ["videoId"]) ⟨"VideoPush", [⟨"userId", v⟩]⟩ none none)) :=
  parse_template_number (.code rfl) hv rfl

theorem parse_selectPublisher (hv : IsNumber v) : parse (Control.Command.selectPublisher v).text =
    some (.query (.rows (some ["publisherId"]) ⟨"Video", [⟨"id", v⟩]⟩ none none)) :=
  parse_template_number (.code rfl) hv rfl

theorem answers_selectVideoPush (t : Tables) (equals : String → String → Bool) :
    (Query.rows (some ["videoId"]) ⟨"VideoPush", [⟨"userId", v⟩]⟩ none none).answers schema
      equals t.contents =
      .does fun answer => ∃ all : List Cells,
      all.Perm ((t.cells .VideoPush).filter (meets equals [(0, v)])) ∧
        True ∧ answer = all.map fun cells => [cells.getD 1 ""] := rfl

theorem answers_selectPublisher (t : Tables) (equals : String → String → Bool) :
    (Query.rows (some ["publisherId"]) ⟨"Video", [⟨"id", v⟩]⟩ none none).answers schema
      equals t.contents =
      .does fun answer => ∃ all : List Cells,
      all.Perm ((t.cells .Video).filter (meets equals [(0, v)])) ∧
        True ∧ answer = all.map fun cells => [cells.getD 1 ""] := rfl

/-- **The queries of a fetch** in a database that follows SQL, when ids are written as `nextId`
is. -/
theorem Database.Follows.selects (hdb : db.Follows now equals) (huser : IsNumber userId)
    (hvideo : ∀ cells ∈ t.cells .Video, Canonical (cells.getD 0 ""))
    (hpush : ∀ cells ∈ t.cells .VideoPush, Canonical (cells.getD 1 "")) : db.Selects t userId := by
  refine ⟨fun h rows hrows row hrow => ?_⟩
  obtain ⟨all, hall, -, hanswer⟩ := hdb.query (m := calm h) (parse_selectVideoPush huser)
    (answers_selectVideoPush t equals) hrows
  have hcells := List.mem_map_of_mem (f := Row.cells) hrow
  rw [hanswer] at hcells
  obtain ⟨cells, hcells, hrow⟩ := List.mem_map.mp hcells
  have hid := hpush cells (List.mem_of_mem_filter (hall.mem_iff.mp hcells))
  refine ⟨cells.getD 1 "", hrow.symm, fun h found others hfound => ?_⟩
  obtain ⟨all, hall, -, hanswer⟩ := hdb.query (m := calm h) (parse_selectPublisher hid.isNumber)
    (answers_selectPublisher t equals) hfound
  have hcells :=
    List.mem_map_of_mem (f := Row.cells) (List.mem_cons_self (a := found) (l := others))
  rw [hanswer] at hcells
  obtain ⟨video, hmem, hfound⟩ := List.mem_map.mp hcells
  have hmem := hall.mem_iff.mp hmem
  have hmeets := List.of_mem_filter hmem
  rw [meets_singleton] at hmeets
  have hcanonical := hvideo video (List.mem_of_mem_filter hmem)
  have hvalue := (hdb.numeric _ _ hcanonical.isNumber hid.isNumber).mp hmeets
  exact ⟨video.getD 1 "", hfound.symm, video, List.mem_of_mem_filter hmem,
    (hcanonical.value_inj hid).mp hvalue, rfl⟩

end Follows

/-! ### A video that has been deleted -/

namespace DeletedVideo

/-- User `5` has been pushed the videos `7`, of user `3`, and `8`, which has been deleted. -/
def tables : Tables where
  rows
    | .Video => [⟨0, ["7", "3", ".mp4", "first", "NULL", "2025-01-01 00:00:00"]⟩]
    | .VideoPush => [⟨1, ["5", "7"]⟩, ⟨2, ["5", "8"]⟩]
    | _ => []
  next := 3

/-- User `5` asks for them. -/
def ask : List UInt8 := "\x7b\"infotype\":13,\"userId\":\"5\"\x7d".toUTF8.toList

/-- The library, on the request of this example. -/
def nlohmann : Nlohmann where
  parse bytes := if bytes = ask then some (.obj [("infotype", .int 13), ("userId", .str "5")])
    else none
  dump := Json.text

/-- What the statements meet. -/
def now (_ : ℕ) : Meeting Moment := calm { up := true, now := "2025-01-02 00:00:00" }

/-- The object of video `8`, with the publisher of video `7`. -/
def entry : Json := .obj [("videoId", .str "8"), ("publisherId", .str "3")]

theorem asked :
    pushQuery nlohmann ask = some (.obj [("infotype", .int 13), ("userId", .str "5")]) := by
  have hparse : nlohmann.parse ask = some (.obj [("infotype", .int 13), ("userId", .str "5")]) :=
    if_pos rfl
  rw [pushQuery, hparse]
  rfl

theorem selects : mysql.Selects tables "5" := by
  have h7 : Canonical "7" := ⟨7, rfl⟩
  have h8 : Canonical "8" := ⟨8, rfl⟩
  refine mysql_follows.selects (isNumber_iff.mp rfl) ?_ ?_
  · have hcells :
      tables.cells .Video = [["7", "3", ".mp4", "first", "NULL", "2025-01-01 00:00:00"]] := rfl
    rw [hcells]
    exact List.forall_mem_singleton.mpr h7
  · have hcells : tables.cells .VideoPush = [["5", "7"], ["5", "8"]] := rfl
    rw [hcells]
    exact List.forall_mem_cons.mpr ⟨h7, List.forall_mem_singleton.mpr h8⟩

theorem selected : mysql.store tables (now 0).db (Control.Command.selectVideoPush "5").text =
    some [⟨0, ["7"]⟩, ⟨0, ["8"]⟩] := by
  decide +kernel

theorem looked : mysql.lookups tables now 1 [⟨0, ["7"]⟩, ⟨0, ["8"]⟩] =
      [("7", some "3"), ("8", none)] := by
  decide +kernel

/-- **A video that has been deleted** goes out with the publisher of another one. -/
theorem deleted_video : ∃ videos : Json,
    mysql.sends now 0 (SendInfoControl.send_info nlohmann .boost ask) tables = [pushPacket videos] ∧
    entry ∈ videosOf videos ∧ ¬ NamesPublisher tables entry := by
  have hsends := sends_fetch .boost asked rfl selects selected
  rw [looked] at hsends
  refine ⟨_, hsends.trans (if_pos (by decide +kernel)), List.mem_cons_of_mem _
    (List.mem_singleton_self _), ?_⟩
  intro h
  obtain ⟨videoId, hvideo, cells, hcells, hid, -⟩ := h "3" rfl
  cases hvideo
  have hvideos :
      tables.cells .Video = [["7", "3", ".mp4", "first", "NULL", "2025-01-01 00:00:00"]] := rfl
  rw [hvideos, List.mem_singleton] at hcells
  rw [hcells] at hid
  exact absurd hid (by decide)

/-- No reply names the publishers of its videos. -/
theorem names_publisher_iff_deleted : ¬ ∃ videos : Json,
    mysql.sends now 0 (SendInfoControl.send_info nlohmann .boost ask) tables = [pushPacket videos] ∧
    videoIds videos = column [⟨0, ["7"]⟩, ⟨0, ["8"]⟩] ∧
      ∀ video ∈ videosOf videos, NamesPublisher tables video := by
  rw [names_publisher_iff (fun _ _ _ => rfl) .boost asked rfl selects selected, looked, not_and_or,
    not_not]
  refine .inl ⟨[("7", some "3")], "8", [], "3", rfl, rfl, ?_⟩
  rintro ⟨cells, hcells, hid, -⟩
  have hvideos :
      tables.cells .Video = [["7", "3", ".mp4", "first", "NULL", "2025-01-01 00:00:00"]] := rfl
  rw [hvideos, List.mem_singleton] at hcells
  rw [hcells] at hid
  exact absurd hid (by decide)

end DeletedVideo

end PickUpLight.Store
