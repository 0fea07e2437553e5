import Mathlib.Data.List.TakeDrop
import PickUpLight.Control.JsonText
import PickUpLight.Control.ReceiveFileControl
import PickUpLight.Store.Files

/-!
# Uploaded videos

`receive_file` tells the client the id of a video before it has the file and the row of it, and
tells the followers afterwards, whatever has become of them. `exists_iff` says when the video exists
if somebody has been told of it: when the file could be written and the row could be entered, for
nothing in between looks at that.
-/

namespace PickUpLight.Store

open PickUpLight.Theory PickUpLight.Control PickUpLight.Wire PickUpLight.Sql

/-- The description of a video. -/
structure VideoInfo where
  id : String
  suffix : String
  profile : String

/-- The video a description is of. -/
def videoInfo (lib : Nlohmann) (fileInfo : List UInt8) : Option VideoInfo :=
  (lib.parse fileInfo).bind fun jsonMsg => (jsonMsg.member "filetype").bind fun filetype =>
    if filetype.eqCode FileType.Video.code then
      (jsonMsg.string "suffix").bind fun suffix => (jsonMsg.string "id").bind fun id =>
        (jsonMsg.string "profile").map fun profile => ⟨id, suffix, profile⟩
    else none

namespace VideoInfo

variable (v : VideoInfo) (videoId : String)

/-- Where the file is. -/
def path : String := VIDEO_URL ++ videoId ++ v.suffix

/-- The statement that enters the video. -/
def command : Control.Command := .insertVideo videoId v.id v.suffix v.profile

end VideoInfo

/-- The packet with the id. -/
def idPacket (videoId : String) : NetPacket := ⟨.SendFile, Json.null.set "videoId" (.str videoId)⟩

/-- There is a row of `Video` with an id. -/
def Tables.hasVideo (t : Tables) (videoId : String) : Prop :=
  ∃ cells ∈ t.cells .Video, cells.getD 0 "" = videoId

/-- **Somebody is told of a video**: a packet with its id is sent, or a push of it is inserted. -/
def tells (videoId : String) : (e : Effect) × e.Answer → Bool
  | ⟨.send p, ok⟩ => ok && p.purpose = .SendFile && p.message.string "videoId" = some videoId
  | ⟨.query_execute (.insertVideoPush _ id), ok⟩ => ok && id = videoId
  | _ => false

variable {H : Type}

/-- One of the pushes to some followers is inserted; the first is the effect `n`. -/
def Database.pushes (db : Database H) (ms : ℕ → Incident H) (videoId : String) :
    ℕ → Tables → List Row → Bool
  | _, _, [] => false
  | n, t, row :: rows =>
    (db.perform t (.query_execute (.insertVideoPush (row.cells.headD "") videoId))
    (ms n).meeting).2 ||
      Database.pushes db ms videoId (n + 1)
        (db.perform t (.query_execute (.insertVideoPush (row.cells.headD "") videoId))
        (ms n).meeting).1 rows

section Outcomes

variable (db : Database H) (ms : ℕ → Incident H) (s : Host) (v : VideoInfo) (videoId : String)

/-- The tables after the insertion of the video, and whether it has succeeded. -/
def Database.entered : Tables × Bool := db.perform s.tables (.query_execute (v.command videoId))
    (ms 3).meeting

/-- The insertion puts in a row with the id, or it fails and changes nothing. -/
structure Database.EntersVideo : Prop where
  succeeds : (db.entered ms s v videoId).2 = true → (db.entered ms s v videoId).1.hasVideo videoId
  fails : (db.entered ms s v videoId).2 = false → (db.entered ms s v videoId).1 = s.tables

/-- The client is reached, or a follower. -/
def Database.Reaches : Prop :=
  (ms 1).meeting.answer (.send (idPacket videoId)) = true ∨
    ∃ followers, db.store (db.entered ms s v videoId).1 (ms 4).meeting.db
        (Control.Command.selectFollowers v.id).text = some followers ∧
      db.pushes ms videoId 5 (db.entered ms s v videoId).1 followers = true

/-- The file can be opened and written to its end, or it is there as it should be. -/
def Written (data : List UInt8) : Prop :=
  match (ms 2).written with
  | some n => data.length ≤ n
  | none => s.files (v.path videoId) = some data

/-- **The video is kept**: the file is written, and the insertion succeeds, or there was a row. -/
def Database.Keeps (data : List UInt8) : Prop :=
  Written ms s v videoId data ∧ ((db.entered ms s v videoId).2 = true ∨ s.tables.hasVideo videoId)

end Outcomes

/-! ### The upload -/

variable {db : Database H} {ms : ℕ → Incident H} {s s' : Host} {v : VideoInfo} {lib : Nlohmann}
  {server : Server}
  {fileInfo data : List UInt8} {log : List ((e : Effect) × e.Answer)} {n : ℕ} {videoId : String}

/-- What is left of an upload once there is an id. -/
def uploadVideo (lib : Nlohmann) (server : Server) (v : VideoInfo) (videoId : String)
    (data : List UInt8) :
    Handler Unit := do
  let p ← NetPacketGenerator.sendVideoId_P lib videoId
  Handler.send server p
  let _ ← Handler.perform (.writeFile (v.path videoId) data)
  let _ ← Handler.query_execute (v.command videoId)
  ReceiveFileControl.push videoId v.id

/-- A number is the value of one enumerator at most. -/
theorem receive_file_video (h : videoInfo lib fileInfo = some v) :
    ReceiveFileControl.receive_file lib server fileInfo data =
      Handler.nextId >>= fun n => uploadVideo lib server v (toString n) data := by
  simp only [videoInfo, Option.bind_eq_some_iff, Option.ite_none_right_eq_some,
    Option.map_eq_some_iff] at h
  obtain ⟨jsonMsg, hparse, filetype, hmember, htype, suffix, hsuffix, id, hid, profile, hprofile,
    rfl⟩ := h
  have hcode : ∀ filetype', ReceiveFileControl.isType jsonMsg filetype' =
      Program.ret (decide (FileType.Video = filetype')) :=
        ReceiveFileControl.isType_eq ⟨filetype, hmember, htype⟩
  simp only [ReceiveFileControl.receive_file, hparse, Program.ofOption_some, Program.ret_bind,
    ReceiveFileControl.plan, hcode, reduceCtorEq, decide_false, decide_true, Bool.false_eq_true,
      if_false, if_true,
    ReceiveFileControl.planVideo, Handler.str_eq hsuffix, Handler.str_eq hid,
      Handler.str_eq hprofile,
    Program.bind_assoc, Program.pure_eq]
  rfl

/-! ### A run of it -/

/-- The pushes touch neither the files nor the table `Video`. -/
theorem work_pushTo {followers : List Row}
    (hrun : db.work ms n (ReceiveFileControl.pushTo videoId followers) s = (log, s', some ())) :
    s'.files = s.files ∧ s'.tables.rows .Video = s.tables.rows .Video ∧
      log.any (tells videoId) = db.pushes ms videoId n s.tables followers := by
  induction followers generalizing n s log with
  | nil =>
    cases hrun
    exact ⟨rfl, rfl, rfl⟩
  | cons row followers ih =>
    rw [ReceiveFileControl.pushTo, Program.loop_cons] at hrun
    cases hcell : row.cells[0]? with
    | none =>
      rw [Handler.cell, hcell] at hrun
      exact absurd hrun work_fail_ne
    | some follower =>
      rw [Handler.cell, hcell] at hrun
      have hhead : row.cells.headD "" = follower := by
        rw [← List.head?_eq_getElem?] at hcell
        simp [hcell]
      obtain ⟨rest, rfl, hrest⟩ := work_call_eq_some.mp hrun
      obtain ⟨hfiles, hvideo, htells⟩ := ih hrest
      have hother :
          (db.act s (.query_execute (.insertVideoPush follower videoId)) (ms n)).1.tables.rows
            .Video = s.tables.rows .Video :=
        Tables.rows_apply_ne (by decide) _
      refine ⟨hfiles, hvideo.trans hother, ?_⟩
      rw [List.any_cons, htells, Database.pushes, hhead]
      congr 1
      exact Bool.and_eq_left_iff_imp.mpr fun _ => decide_eq_true rfl

/-- The pushes of a video that has been entered. -/
theorem work_push (hrun : db.work ms 4 (ReceiveFileControl.push videoId v.id) s =
      (log, s', some ())) :
    s'.files = s.files ∧ s'.tables.rows .Video = s.tables.rows .Video ∧
      (log.any (tells videoId) = true ↔
        ∃ followers, db.store s.tables (ms 4).meeting.db
        (Control.Command.selectFollowers v.id).text = some followers ∧
          db.pushes ms videoId 5 s.tables followers = true) := by
  rw [ReceiveFileControl.push, Handler.query_store, Handler.perform_bind] at hrun
  obtain ⟨rest, rfl, hrest⟩ := work_call_eq_some.mp hrun
  have hact : db.act s (.query_store (.selectFollowers v.id)) (ms 4) =
      (s, db.store s.tables (ms 4).meeting.db (Control.Command.selectFollowers v.id).text) := rfl
  have hquery : tells videoId ⟨.query_store (.selectFollowers v.id),
      (db.act s (.query_store (.selectFollowers v.id)) (ms 4)).2⟩ = false := rfl
  rw [List.any_cons, hquery, Bool.false_or]
  rw [hact] at hrest
  cases hstore :
    db.store s.tables (ms 4).meeting.db (Control.Command.selectFollowers v.id).text with
  | none =>
    rw [hstore] at hrest
    have hret : ([], s, some ()) = (rest, s', some ()) := hrest
    cases hret
    simp
  | some followers =>
    rw [hstore] at hrest
    obtain ⟨hfiles, hvideo, htells⟩ := work_pushTo hrest
    refine ⟨hfiles, hvideo, ?_⟩
    rw [htells]
    simp only [Option.some.injEq, exists_eq_left']

/-- What the steps of an upload leave behind: the file, the rows of `Video`, and what has been
told. -/
theorem work_uploadVideo (hrun : db.work ms 1 (uploadVideo lib server v videoId data) s =
      (log, s', some ())) :
    s'.files = (s.write (v.path videoId) data (ms 2).written).files ∧
      s'.tables.rows .Video = (db.entered ms s v videoId).1.rows .Video ∧
      (log.any (tells videoId) = true ↔ db.Reaches ms s v videoId) := by
  rw [uploadVideo, NetPacketGenerator.sendVideoId_P, NetPacketGenerator.packet_bind] at hrun
  split at hrun
  · rw [Handler.send, Handler.perform_bind, Program.call_bind] at hrun
    obtain ⟨rest, rfl, hsend⟩ := work_call_eq_some.mp hrun
    have hsent :
        ∀ ok (next : Unit → Handler Unit), db.work ms 2 (Handler.sent server ok >>= next) s =
          (rest, s', some ()) → db.work ms 2 (next ()) s = (rest, s', some ()) := by
      intro ok next h
      unfold Handler.sent at h
      split at h
      · exact absurd h work_fail_ne
      · exact h
    obtain ⟨rest', rfl, hwrite⟩ := work_call_eq_some.mp (hsent _ _ hsend)
    obtain ⟨rest'', rfl, hinsert⟩ := work_call_eq_some.mp hwrite
    obtain ⟨hfiles, hvideo, htells⟩ := work_push hinsert
    have htables : (s.write (v.path videoId) data (ms 2).written).tables = s.tables :=
      Host.tables_write ..
    have hentered : (db.act (db.act s (.writeFile (v.path videoId) data) (ms 2)).1
        (.query_execute (v.command videoId)) (ms 3)).1.tables = (db.entered ms s v videoId).1 := by
      rw [Database.entered, ← htables]
      rfl
    rw [hentered] at hvideo htells
    refine ⟨hfiles, hvideo, ?_⟩
    have hpacket : ∀ ok, tells videoId ⟨.send (idPacket videoId), ok⟩ = ok := by
      intro ok
      simp [tells, idPacket]
    have hwritten : ∀ r, tells videoId ⟨.writeFile (v.path videoId) data, r⟩ = false := fun _ => rfl
    have hinserted : ∀ ok, tells videoId ⟨.query_execute (v.command videoId), ok⟩ = false :=
      fun _ => rfl
    rw [List.any_cons, List.any_cons, List.any_cons, hwritten, hinserted, Bool.false_or,
      Bool.false_or, Bool.or_eq_true, htells]
    exact or_congr_left (Bool.eq_iff_iff.mp (hpacket _))
  · exact absurd hrun work_fail_ne

/-- The file is there when it has been written. -/
theorem written_iff (hfiles : s'.files = (s.write (v.path videoId) data (ms 2).written).files) :
    s'.files (v.path videoId) = some data ↔ Written ms s v videoId data := by
  rw [hfiles, Host.files_write_self, Written]
  cases (ms 2).written with
  | none => exact Iff.rfl
  | some k => rw [Option.some.injEq, List.take_eq_self_iff]

/-- The row is there when it has been inserted, or was there. -/
theorem hasVideo_iff (henters : db.EntersVideo ms s v videoId)
    (hvideo : s'.tables.rows .Video = (db.entered ms s v videoId).1.rows .Video) :
    s'.tables.hasVideo videoId ↔ (db.entered ms s v videoId).2 = true ∨
      s.tables.hasVideo videoId := by
  have hafter : s'.tables.hasVideo videoId ↔ (db.entered ms s v videoId).1.hasVideo videoId := by
    rw [Tables.hasVideo, Tables.hasVideo, Tables.cells, Tables.cells, hvideo]
  rw [hafter]
  cases hok : (db.entered ms s v videoId).2 with
  | true => exact ⟨fun _ => .inl rfl, fun _ => henters.succeeds hok⟩
  | false =>
    rw [henters.fails hok]
    exact ⟨.inr, fun h => h.resolve_left Bool.false_ne_true⟩

/-- **When a video exists of which somebody is told**: its file was written and its row entered, or
nobody is told. -/
theorem told_exists_iff (hv : videoInfo lib fileInfo = some v)
    (hid : (ms 0).meeting.answer .nextId = some n) (henters : db.EntersVideo ms s v (toString n))
    (hrun : db.work ms 0 (ReceiveFileControl.receive_file lib server fileInfo data) s =
      (log, s', some ())) :
    (log.any (tells (toString n)) = true →
        s'.files (v.path (toString n)) = some data ∧ s'.tables.hasVideo (toString n)) ↔
      (db.Reaches ms s v (toString n) → db.Keeps ms s v (toString n) data) := by
  rw [receive_file_video hv, Handler.nextId, Handler.perform_bind, Program.call_bind] at hrun
  obtain ⟨rest, rfl, hrest⟩ := work_call_eq_some.mp hrun
  have hact : db.act s .nextId (ms 0) = (s, (ms 0).meeting.answer .nextId) := rfl
  rw [hact, hid] at hrest
  obtain ⟨hfiles, hvideo, htells⟩ := work_uploadVideo hrest
  have hnone : tells (toString n) ⟨.nextId, (db.act s .nextId (ms 0)).2⟩ = false := rfl
  have hkeeps : s'.files (v.path (toString n)) = some data ∧ s'.tables.hasVideo (toString n) ↔
      db.Keeps ms s v (toString n) data :=
        and_congr (written_iff hfiles) (hasVideo_iff henters hvideo)
  rw [List.any_cons, hnone, Bool.false_or, htells, hkeeps]

/-! ### Databases that follow SQL -/

section Follows

variable {a b c d : String} {now : H → String} {equals : String → String → Bool}

theorem parse_insertVideo (ha : Literal a.toList) (hb : Literal b.toList) (hc : Literal c.toList)
    (hd : Literal d.toList) : parse (Control.Command.insertVideo a b c d).text =
      some (.command (.insert "Video" (some ["id", "publisherId", "videoSuffix", "profile", "time"])
        [.text a, .text b, .text c, .text d, .now])) :=
  parse_template
    (.literal (.literal (.literal (.literal (.code rfl) ha rfl rfl) hb rfl rfl) hc rfl rfl)
    hd rfl rfl) rfl rfl

theorem edit_insertVideo (ha : a.length ≤ 30) (hb : b.length ≤ 30) (hc : c.length ≤ 20)
    (hd : d.length ≤ 500) (time : String) :
    (Sql.Command.insert "Video" (some ["id", "publisherId", "videoSuffix", "profile", "time"])
      [.text a, .text b, .text c, .text d, .now]).edit schema equals time =
      .does ("Video", .insert [a, b, c, d, "NULL", time]) := by
  refine Command.edit_insert rfl rfl ⟨by decide, rfl⟩ ?_
  exact fill_given rfl (stores_text ha ..)
    (fill_given rfl (stores_text hb ..) (fill_given rfl (stores_text hc ..)
    (fill_given rfl (stores_text hd ..) (fill_missing rfl (fill_given rfl rfl rfl)))))

/-- **The insertion of a video** in a database that follows SQL, when its texts fit. -/
theorem Database.Follows.entersVideo (hdb : db.Follows now equals)
    (hid : Literal videoId.toList ∧ videoId.length ≤ 30)
    (hpublisher : Literal v.id.toList ∧ v.id.length ≤ 30)
    (hsuffix : Literal v.suffix.toList ∧ v.suffix.length ≤ 20)
    (hprofile : Literal v.profile.toList ∧ v.profile.length ≤ 500) :
    db.EntersVideo ms s v videoId := by
  have hchanges : (v.command videoId).changes = some .Video := rfl
  obtain ⟨ok, hperform⟩ := hdb.perform (t := s.tables) (m := (ms 3).meeting) hchanges
    (parse_insertVideo hid.1 hpublisher.1 hsuffix.1 hprofile.1)
    (edit_insertVideo hid.2 hpublisher.2 hsuffix.2 hprofile.2 _)
  have hentered : db.entered ms s v videoId = _ := hperform
  constructor
  · intro hok
    rw [hentered] at hok ⊢
    refine ⟨[videoId, v.id, v.suffix, v.profile, "NULL", now (ms 3).meeting.db], ?_, rfl⟩
    rw [if_pos hok, Tables.cells_insert]
    exact List.mem_append_right _ (List.mem_singleton_self _)
  · intro hok
    rw [hentered] at hok ⊢
    exact if_neg (Bool.eq_false_iff.mp hok)

end Follows

/-! ### A file that cannot be opened -/

namespace LostVideo

/-- The description of a video of user `3`. -/
def description : List UInt8 :=
  "\x7b\"filetype\":3,\"id\":\"3\",\"suffix\":\".mp4\",\"profile\":\"first\"\x7d".toUTF8.toList

/-- The library, on the description. -/
def nlohmann : Nlohmann where
  parse bytes :=
    if bytes = description then
      some (.obj
        [("filetype", .int 3), ("id", .str "3"), ("suffix", .str ".mp4"),
        ("profile", .str "first")])
    else none
  dump := Json.text

/-- The video. -/
def video : VideoInfo := ⟨"3", ".mp4", "first"⟩

/-- All goes well, but the directory of the videos cannot be written to. -/
def incidents (_ : ℕ) : Incident Moment := ⟨calm { up := true, now := "2025-01-01 00:00:00" }, none⟩

/-- A server with nothing on it. -/
def host : Host := ⟨initDataBase, fun _ => none⟩

/-- The upload. -/
def upload : List ((e : Effect) × e.Answer) × Host × Option Unit :=
  mysql.work incidents 0 (ReceiveFileControl.receive_file nlohmann .boost description [1, 2, 3])
    host

theorem videoInfo_description : videoInfo nlohmann description = some video := by
  have hparse :
      nlohmann.parse description =
        some (.obj [("filetype", .int 3), ("id", .str "3"), ("suffix", .str ".mp4"),
          ("profile", .str "first")]) := if_pos rfl
  rw [videoInfo, hparse]
  rfl

theorem uploaded : upload.2.2 = some () ∧ upload.1.any (tells "1") = true ∧
      upload.2.1.files (video.path "1") = none := by
  decide +kernel

/-- The upload returns. -/
theorem work_upload :
    mysql.work incidents 0 (ReceiveFileControl.receive_file nlohmann .boost description [1, 2, 3])
      host =
    (upload.1, upload.2.1, some ()) := Prod.ext rfl (Prod.ext rfl uploaded.1)

/-- **A video of which the client is told**, and which has no file. -/
theorem lost_video : ∃ log s',
    mysql.work incidents 0 (ReceiveFileControl.receive_file nlohmann .boost description [1, 2, 3])
      host =
      (log, s', some ()) ∧
    log.any (tells "1") = true ∧ s'.files (video.path "1") = none :=
  ⟨upload.1, upload.2.1, work_upload, uploaded.2⟩

/-- The client is told of a video that does not exist. -/
theorem told_exists_iff_lost : ¬ (upload.1.any (tells (toString 1)) = true →
    upload.2.1.files (video.path (toString 1)) = some [1, 2, 3] ∧
      upload.2.1.tables.hasVideo (toString 1)) := by
  have henters : mysql.EntersVideo incidents host video (toString 1) :=
    mysql_follows.entersVideo (by decide +kernel) (by decide +kernel) (by decide +kernel)
      (by decide +kernel)
  rw [told_exists_iff videoInfo_description rfl henters work_upload]
  intro h
  have hfile : (none : Option (List UInt8)) = some [1, 2, 3] := (h (.inl rfl)).1
  cases hfile

end LostVideo

end PickUpLight.Store
