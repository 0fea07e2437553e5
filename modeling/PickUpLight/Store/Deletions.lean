import PickUpLight.Control.ModifyInfoControl
import PickUpLight.Store.Files
import PickUpLight.Store.Ids

/-!
# Deleted videos

`modify_info` deletes a video in four steps: it looks for the suffix of the file, removes the file,
and deletes the rows of the video and of its likes. Every step is taken whatever has become of the
one before, and what has been done is not taken back. So each part of the video is gone or as it
was, on its own (`work_removeVideo`).
-/

namespace PickUpLight.Store

open PickUpLight.Theory PickUpLight.Control PickUpLight.Wire PickUpLight.Sql

/-! ### The parts of a video -/

/-- The rows of a table that a database takes to have an id in the first column. -/
def Tables.having (t : Tables) (equals : String → String → Bool) (table : Table) (id : String) :
    List Cells :=
  (t.cells table).filter (meets equals [(0, id)])

/-- The file of a video with a suffix. -/
def videoPath (videoId suffix : String) : String := VIDEO_URL ++ videoId ++ suffix

/-- The files of a video: of each of its rows, of which there is one, one. -/
def Tables.videoPaths (t : Tables) (equals : String → String → Bool) (videoId : String) :
    List String :=
  (t.having equals .Video videoId).map fun cells => videoPath videoId (cells.getD 2 "")

/-- **All of a video is gone.** -/
structure Gone (equals : String → String → Bool) (videoId : String) (s s' : Host) : Prop where
  files : ∀ path ∈ s.tables.videoPaths equals videoId, s'.files path = none
  video : s'.tables.having equals .Video videoId = []
  likes : s'.tables.having equals .VideoLike videoId = []

/-- **All of a video is as it was.** -/
structure AsBefore (equals : String → String → Bool) (videoId : String) (s s' : Host) : Prop where
  files : ∀ path ∈ s.tables.videoPaths equals videoId, s'.files path = s.files path
  video : s'.tables.having equals .Video videoId = s.tables.having equals .Video videoId
  likes : s'.tables.having equals .VideoLike videoId = s.tables.having equals .VideoLike videoId

/-! ### Statements -/

section Statements

variable {v : String}

theorem parse_selectVideoSuffix (hv : IsNumber v) :
    parse (Control.Command.selectVideoSuffix v).text =
    some (.query (.rows (some ["videoSuffix"]) ⟨"Video", [⟨"id", v⟩]⟩ none none)) :=
  parse_template_number (.code rfl) hv rfl

theorem parse_deleteVideo (hv : IsNumber v) : parse (Control.Command.deleteVideo v).text =
    some (.command (.delete "Video" [⟨"id", v⟩])) :=
  parse_template_number (.code rfl) hv rfl

theorem parse_deleteVideoLikes (hv : IsNumber v) : parse (Control.Command.deleteVideoLikes v).text =
    some (.command (.delete "VideoLike" [⟨"videoId", v⟩])) :=
  parse_template_number (.code rfl) hv rfl

variable (equals : String → String → Bool)

theorem answers_selectVideoSuffix (t : Tables) :
    (Query.rows (some ["videoSuffix"]) ⟨"Video", [⟨"id", v⟩]⟩ none none).answers schema
      equals t.contents =
      .does fun answer => ∃ all : List Cells, all.Perm (t.having equals .Video v) ∧ True ∧
        answer = all.map fun cells => [cells.getD 2 ""] := rfl

theorem edit_deleteVideo (now : String) :
    (Sql.Command.delete "Video" [⟨"id", v⟩]).edit schema equals now =
    .does ("Video", .delete (meets equals [(0, v)])) := rfl

theorem edit_deleteVideoLikes (now : String) :
    (Sql.Command.delete "VideoLike" [⟨"videoId", v⟩]).edit schema equals now =
      .does ("VideoLike", .delete (meets equals [(0, v)])) := rfl

end Statements

/-! ### The deletion -/

/-- The video a request deletes. -/
def deletionOf (lib : Nlohmann) (buf : List UInt8) : Option String :=
  (lib.parse buf).bind fun jsonMsg => (jsonMsg.enum "infotype").bind fun infotype =>
    if InfoType.ofCode infotype = some .Video then jsonMsg.string "videoId" else none

/-- The suffix in an answer, empty if there is none. -/
def suffixIn : Option (List Row) → String
  | some (row :: _) => row.cells.headD ""
  | _ => ""

variable {lib : Nlohmann} {server : Server} {buf : List UInt8} {v : String}

theorem modify_info_deletion (h : deletionOf lib buf = some v) :
    ModifyInfoControl.modify_info lib server buf =
    Handler.query_store (.selectVideoSuffix v) >>= fun rows =>
      Handler.firstCell rows 0 >>= fun videoSuffix =>
      Program.call (.removeFile (videoPath v videoSuffix)) fun _ =>
        Program.call (.query_execute (.deleteVideo v)) fun _ =>
          Program.call (.query_execute (.deleteVideoLikes v)) fun _ => Program.ret () := by
  simp only [deletionOf, Option.bind_eq_some_iff, Option.ite_none_right_eq_some] at h
  obtain ⟨jsonMsg, hparse, infotype, hinfo, htype, hv⟩ := h
  simp only [ModifyInfoControl.modify_info, hparse, hinfo, Program.ofOption_some, Program.ret_bind,
    htype, ModifyInfoControl.modify, ModifyInfoControl.removeVideo, Handler.str_eq hv]
  rfl

section Run

variable {H : Type} {db : Database H} {now : H → String} {equals : String → String → Bool}
  {ms : ℕ → Incident H}
  {s : Host} {n : ℕ}

/-- The deletion of rows, and whether it succeeds. -/
theorem Database.Follows.erases (hdb : db.Follows now equals) {table : Table}
    {command : Control.Command} {c : Sql.Command} (hc : command.changes = some table)
    (hparse : parse command.text = some (.command c))
    (hedit : ∀ time, c.edit schema equals time =
      .does (table.name, .delete (meets equals [(0, v)]))) (m : Incident H) :
    (db.act s (.query_execute command) m).1.files = s.files ∧
      (∀ table', table' ≠ table →
        (db.act s (.query_execute command) m).1.tables.cells table' = s.tables.cells table') ∧
      (db.act s (.query_execute command) m).1.tables.having equals table v =
        if (db.act s (.query_execute command) m).2 = true then [] else s.tables.having equals table
        v := by
  obtain ⟨ok, hperform⟩ := hdb.perform (t := s.tables) (m := m.meeting) hc hparse (hedit _)
  have hact : db.act s (.query_execute command) m =
      ({ s with tables := (db.perform s.tables (.query_execute command) m.meeting).1 },
        (db.perform s.tables (.query_execute command) m.meeting).2) := rfl
  rw [hact, hperform]
  cases ok with
  | false => exact ⟨rfl, fun _ _ => rfl, rfl⟩
  | true =>
    refine ⟨rfl, fun table' hne => ?_, ?_⟩
    · exact Tables.cells_apply_ne hne (changeOf (.delete (meets equals [(0, v)])))
    simp only [if_true, Tables.having, Tables.cells_delete, List.filter_filter, Bool.and_not_self,
      List.filter_false]

/-- **What a deletion does**: it takes its four steps, and each of them does to its part of the
video what it reports. -/
theorem work_removeVideo (hdb : db.Follows now equals) (hbuf : deletionOf lib buf = some v)
    (hv : IsNumber v) :
    ∃ rows removed ok ok' s',
      db.work ms 0 (ModifyInfoControl.modify_info lib server buf) s =
        ([⟨.query_store (.selectVideoSuffix v), rows⟩,
        ⟨.removeFile (videoPath v (suffixIn rows)), removed⟩,
          ⟨.query_execute (.deleteVideo v), ok⟩, ⟨.query_execute (.deleteVideoLikes v), ok'⟩], s',
          some ()) ∧
      (∀ path, s'.files path =
        if path = videoPath v (suffixIn rows) ∧ removed = true then none else s.files path) ∧
      s'.tables.having equals .Video v =
      (if ok = true then [] else s.tables.having equals .Video v) ∧
      s'.tables.having equals .VideoLike v =
      (if ok' = true then [] else s.tables.having equals .VideoLike v) := by
  obtain ⟨rows, hrows⟩ :
      ∃ rows, db.store s.tables (ms 0).meeting.db (Control.Command.selectVideoSuffix v).text =
        rows :=
    ⟨_, rfl⟩
  have hfirst : Handler.firstCell rows 0 = Program.ret (suffixIn rows) := by
    cases rows with
    | none => rfl
    | some rows =>
      obtain ⟨all, -, -, hanswer⟩ := hdb.query (m := (ms 0).meeting) (parse_selectVideoSuffix hv)
        (answers_selectVideoSuffix equals s.tables) hrows
      cases rows with
      | nil => rfl
      | cons row rows =>
        have hmem : row.cells ∈ (row :: rows).map Row.cells := List.mem_cons_self ..
        rw [hanswer] at hmem
        obtain ⟨cells, -, hcells⟩ := List.mem_map.mp hmem
        rw [Handler.firstCell, Handler.cell, suffixIn, ← hcells]
        rfl
  obtain ⟨s₁, hs₁⟩ : ∃ s₁, db.act s (.removeFile (videoPath v (suffixIn rows))) (ms 1) = s₁ :=
    ⟨_, rfl⟩
  obtain ⟨s₂, hs₂⟩ : ∃ s₂, db.act s₁.1 (.query_execute (.deleteVideo v)) (ms 2) = s₂ := ⟨_, rfl⟩
  obtain ⟨s₃, hs₃⟩ : ∃ s₃, db.act s₂.1 (.query_execute (.deleteVideoLikes v)) (ms 3) = s₃ :=
    ⟨_, rfl⟩
  have htables : s₁.1.tables = s.tables := by
    rw [← hs₁]
    exact Host.tables_remove _
  have hvideo := hdb.erases (s := s₁.1) rfl (parse_deleteVideo hv) (edit_deleteVideo equals) (ms 2)
  have hlikes :=
    hdb.erases (s := s₂.1) rfl (parse_deleteVideoLikes hv) (edit_deleteVideoLikes equals) (ms 3)
  rw [hs₂] at hvideo
  rw [hs₃] at hlikes
  refine ⟨rows, s₁.2, s₂.2, s₃.2, s₃.1, ?_, ?_, ?_, ?_⟩
  · have hquery : db.act s (.query_store (.selectVideoSuffix v)) (ms 0) = (s, rows) := by
      rw [← hrows]
      rfl
    rw [modify_info_deletion hbuf, Handler.query_store, Handler.perform_bind, work_call, hquery,
      hfirst, Program.ret_bind, work_call, hs₁, work_call, hs₂, work_call, hs₃]
    rfl
  · intro path
    rw [hlikes.1, hvideo.1, ← hs₁]
    exact Host.files_remove _ path
  · have hsame : s₃.1.tables.cells .Video = s₂.1.tables.cells .Video :=
      hlikes.2.1 .Video (by decide)
    rw [Tables.having, hsame]
    exact hvideo.2.2.trans (by rw [htables])
  · have hsame : s₂.1.tables.cells .VideoLike = s₁.1.tables.cells .VideoLike :=
      hvideo.2.1 .VideoLike (by decide)
    refine hlikes.2.2.trans ?_
    rw [Tables.having, hsame, htables]
    rfl

/-- **A deletion does what it can**: each part of the video is gone or as it was, by its own step.
So all of the video is gone or all is as it was when the steps that had something to do did it, or
none of them did. -/
theorem best_effort (hdb : db.Follows now equals) (hbuf : deletionOf lib buf = some v)
    (hv : IsNumber v) :
    ∃ rows removed ok ok' s',
      db.work ms 0 (ModifyInfoControl.modify_info lib server buf) s =
        ([⟨.query_store (.selectVideoSuffix v), rows⟩,
        ⟨.removeFile (videoPath v (suffixIn rows)), removed⟩,
          ⟨.query_execute (.deleteVideo v), ok⟩, ⟨.query_execute (.deleteVideoLikes v), ok'⟩], s',
          some ()) ∧
      (∀ path ∈ s.tables.videoPaths equals v, s'.files path =
        if path = videoPath v (suffixIn rows) ∧ removed = true then none else s.files path) ∧
      s'.tables.having equals .Video v =
      (if ok = true then [] else s.tables.having equals .Video v) ∧
      s'.tables.having equals .VideoLike v =
      (if ok' = true then [] else s.tables.having equals .VideoLike v) ∧
      (Gone equals v s s' ∨ AsBefore equals v s s' ↔
        ((∀ path ∈ s.tables.videoPaths equals v,
            path = videoPath v (suffixIn rows) ∧ removed = true ∨ s.files path = none) ∧
          (ok = true ∨ s.tables.having equals .Video v = []) ∧
          (ok' = true ∨ s.tables.having equals .VideoLike v = [])) ∨
        ((∀ path ∈ s.tables.videoPaths equals v,
            ¬ (path = videoPath v (suffixIn rows) ∧ removed = true) ∨ s.files path = none) ∧
          (ok = false ∨ s.tables.having equals .Video v = []) ∧
          (ok' = false ∨ s.tables.having equals .VideoLike v = []))) := by
  obtain ⟨rows, removed, ok, ok', s', hwork, hfiles, hvideo, hlikes⟩ :=
    work_removeVideo hdb hbuf hv
  refine ⟨rows, removed, ok, ok', s', hwork, fun path _ => hfiles path, hvideo, hlikes,
    or_congr ?_ ?_⟩
  · have hnil : ∀ {b : Bool} {rows : List Cells}, (if b = true then [] else rows) = [] ↔ b = true ∨
        rows = [] := by
      intro b rows
      cases b <;> simp
    constructor
    · rintro ⟨hgone, hgone', hgone''⟩
      refine ⟨fun path hpath => ?_, hnil.mp (hvideo ▸ hgone'), hnil.mp (hlikes ▸ hgone'')⟩
      have hnone := hgone path hpath
      rw [hfiles] at hnone
      split_ifs at hnone with h
      · exact .inl h
      · exact .inr hnone
    · rintro ⟨hgone, hgone', hgone''⟩
      refine ⟨fun path hpath => ?_, hvideo.trans (hnil.mpr hgone'), hlikes.trans (hnil.mpr hgone'')⟩
      rw [hfiles]
      split_ifs with h
      · rfl
      · exact (hgone path hpath).resolve_left h
  · have hsame : ∀ {b : Bool} {rows : List Cells}, (if b = true then [] else rows) = rows ↔
        b = false ∨ rows = [] := by
      intro b rows
      cases b
      · simp
      · simp [eq_comm]
    constructor
    · rintro ⟨hkept, hkept', hkept''⟩
      refine ⟨fun path hpath => ?_, hsame.mp (hvideo ▸ hkept'), hsame.mp (hlikes ▸ hkept'')⟩
      have hkeeps := hkept path hpath
      rw [hfiles] at hkeeps
      split_ifs at hkeeps with h
      · exact .inr hkeeps.symm
      · exact .inl h
    · rintro ⟨hkept, hkept', hkept''⟩
      refine ⟨fun path hpath => ?_, hvideo.trans (hsame.mpr hkept'),
        hlikes.trans (hsame.mpr hkept'')⟩
      rw [hfiles]
      split_ifs with h
      · exact ((hkept path hpath).resolve_left (not_not_intro h)).symm
      · rfl

end Run

/-! ### A deletion that loses its database -/

namespace HalfDeleted

/-- Video `7` of user `3`, with a like. -/
def host : Host where
  tables :=
    { rows
        | .Video => [⟨0, ["7", "3", ".mp4", "first", "NULL", "2025-01-01 00:00:00"]⟩]
        | .VideoLike => [⟨1, ["7", "5"]⟩]
        | _ => []
      next := 2 }
  files path := if path = videoPath "7" ".mp4" then some [1, 2, 3] else none

/-- User `3` deletes it. -/
def request : List UInt8 := "\x7b\"infotype\":7,\"videoId\":\"7\"\x7d".toUTF8.toList

/-- The library, on the request. -/
def nlohmann : Nlohmann where
  parse bytes := if bytes = request then some (.obj [("infotype", .int 7), ("videoId", .str "7")])
    else none
  dump _ := []

/-- The connection to the database is lost after the file has been removed. -/
def incidents (n : ℕ) : Incident Moment :=
  ⟨calm { up := n < 2, now := "2025-01-02 00:00:00" }, none⟩

/-- The deletion. -/
def deletion : List ((e : Effect) × e.Answer) × Host × Option Unit :=
  mysql.work incidents 0 (ModifyInfoControl.modify_info nlohmann .boost request) host

theorem requested : deletionOf nlohmann request = some "7" := by
  have hparse :
      nlohmann.parse request = some (.obj [("infotype", .int 7), ("videoId", .str "7")]) :=
    if_pos rfl
  rw [deletionOf, hparse]
  rfl

theorem deleted : deletion.2.2 = some () ∧ deletion.2.1.files (videoPath "7" ".mp4") = none ∧
    deletion.2.1.tables.having equalNumbers .Video "7" ≠ [] ∧
    videoPath "7" ".mp4" ∈ host.tables.videoPaths equalNumbers "7" := by
  decide +kernel

/-- **A video that has lost its file**, and keeps its row. -/
theorem half_deleted : ∃ log s',
    mysql.work incidents 0 (ModifyInfoControl.modify_info nlohmann .boost request) host =
      (log, s', some ()) ∧
    ¬ (Gone equalNumbers "7" host s' ∨ AsBefore equalNumbers "7" host s') := by
  obtain ⟨hreturned, hfile, hrow, hpath⟩ := deleted
  refine ⟨deletion.1, deletion.2.1, Prod.ext rfl (Prod.ext rfl hreturned), ?_⟩
  rintro (h | h)
  · exact hrow h.video
  · have hkept := h.files _ hpath
    rw [hfile] at hkept
    cases hkept

/-- The row is gone or as it was. -/
theorem best_effort_half : ∃ rows removed ok ok' s',
    mysql.work incidents 0 (ModifyInfoControl.modify_info nlohmann .boost request) host =
      ([⟨.query_store (.selectVideoSuffix "7"), rows⟩,
      ⟨.removeFile (videoPath "7" (suffixIn rows)), removed⟩,
        ⟨.query_execute (.deleteVideo "7"), ok⟩, ⟨.query_execute (.deleteVideoLikes "7"), ok'⟩], s',
        some ()) ∧
    s'.tables.having equalNumbers .Video "7" =
      if ok = true then [] else [["7", "3", ".mp4", "first", "NULL", "2025-01-01 00:00:00"]] := by
  obtain ⟨rows, removed, ok, ok', s', hwork, -, hvideo, -⟩ :=
    best_effort mysql_follows requested (isNumber_iff.mp rfl)
  exact ⟨rows, removed, ok, ok', s', hwork, hvideo⟩

end HalfDeleted

end PickUpLight.Store
