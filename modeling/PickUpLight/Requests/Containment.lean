import PickUpLight.Control.ModifyInfoControl
import PickUpLight.Replies.Descriptions
import PickUpLight.Store.Deletions
import PickUpLight.Theory.Paths

/-!
# The paths of files

A file a client asks for, sends or deletes is found by a path: the directory of its type, and behind
it a name made of what the request says, of the suffix in the database or of a new id. Nothing looks
into the name. It may go up with `..`, it may be empty, and for `stat`, `fopen` and `remove` it ends
where it has a zero; `confined_iff` says for which names the path is inside its directory.
-/

namespace PickUpLight.Requests

open PickUpLight.Theory PickUpLight.Wire PickUpLight.Control PickUpLight.Replies

/-! ### Requests -/

/-- What a client sends a file for. -/
inductive SendFile where
  /-- 头像文件. -/
  | picture (id suffix : String)
  /-- 聊天图像. -/
  | chatImg (suffix sendId receiveId : String)
  /-- 视频预览图. -/
  | preview (id suffix : String)
  /-- 视频文件. -/
  | video (id suffix profile : String)
  deriving DecidableEq, Repr

namespace SendFile

/-- The type of the file. -/
def filetype : SendFile → FileType
  | picture .. => .ProfilePicture
  | chatImg .. => .ChatImg
  | preview .. => .VideoPreviewImg
  | video .. => .Video

/-- A message is this request. -/
def Of (jsonMsg : Json) (r : SendFile) : Prop :=
  (∃ j, jsonMsg.member "filetype" = some j ∧ j.eqCode r.filetype.code = true) ∧
    match r with
    | picture id suffix | preview id suffix =>
      jsonMsg.string "id" = some id ∧ jsonMsg.string "suffix" = some suffix
    | chatImg suffix sendId receiveId =>
      jsonMsg.string "suffix" = some suffix ∧ jsonMsg.string "sendId" = some sendId ∧
        jsonMsg.string "receiveId" = some receiveId
    | video id suffix profile =>
      jsonMsg.string "suffix" = some suffix ∧ jsonMsg.string "id" = some id ∧
        jsonMsg.string "profile" = some profile

/-- Where the file goes. -/
def dir : SendFile → String
  | picture .. => PROFILE_PICTURE_URL
  | chatImg .. => CHAT_PICTURE_URL
  | preview .. => PREVIEW_PICTURE_URL
  | video .. => VIDEO_URL

/-- The name of the file; a chat image and a video have a new id. -/
def name (r : SendFile) (newId : String) : String :=
  match r with
  | picture id suffix | preview id suffix => id ++ suffix
  | chatImg suffix _ _ | video _ suffix _ => newId ++ suffix

/-- The file gets a new id. -/
def isNew : SendFile → Bool
  | chatImg .. | video .. => true
  | _ => false

/-- The name of any other file depends on the request only. -/
theorem name_eq {r : SendFile} (hold : r.isNew ≠ true) (newId newId' : String) :
    r.name newId = r.name newId' := by
  cases r with
  | picture id suffix | preview id suffix => rfl
  | chatImg suffix sendId receiveId | video id suffix profile => exact absurd rfl hold

end SendFile

/-- A request that uses a file. -/
inductive FileRequest where
  /-- A file is asked for. -/
  | get (r : GetFile)
  /-- A file is sent. -/
  | put (r : SendFile)
  /-- A video is deleted. -/
  | delete (videoId : String)
  deriving DecidableEq, Repr

namespace FileRequest

/-- A message is this request. -/
def Of (jsonMsg : Json) : FileRequest → Prop
  | get r => r.Of jsonMsg
  | put r => r.Of jsonMsg
  | delete videoId =>
    (∃ infotype, jsonMsg.enum "infotype" = some infotype ∧ InfoType.ofCode infotype = some .Video) ∧
      jsonMsg.string "videoId" = some videoId

/-- The directory for its type of file. -/
def dir : FileRequest → String
  | get r => r.dir
  | put r => r.dir
  | delete _ => VIDEO_URL

/-- The name of the file: what is given is the suffix in the database, or the new id. -/
def name (r : FileRequest) (given : String) : String :=
  match r with
  | get r => r.name given
  | put r => r.name given
  | delete videoId => videoId ++ given

/-- What can be given: any suffix, but a new id is a number. -/
def CanBeGiven (given : String) : FileRequest → Prop
  | put r => r.isNew = true → ∃ n < 2 ^ 63, given = toString n
  | _ => True

/-- The surroundings give it. -/
def Gives {σ : Type} (answer : σ → (e : Effect) → σ × e.Answer) (s : σ) (given : String) :
    FileRequest → Prop
  | get r => ∃ publisherId, r.Finds answer s given publisherId
  | put r => r.isNew = true → ∀ n, (answer s .nextId).2 = some n → given = toString n
  | delete videoId => First (answer s (.query_store (.selectVideoSuffix videoId))).2 [given]

/-- The handler. -/
def handler (lib : Nlohmann) (server : Server) (buf fileData : List UInt8) :
    FileRequest → Handler Unit
  | get _ => SendFileControl.send_file lib server buf
  | put _ => ReceiveFileControl.receive_file lib server buf fileData
  | delete _ => ModifyInfoControl.modify_info lib server buf

end FileRequest

/-! ### Paths -/

/-- The path of a file that is looked at, opened or removed. -/
def pathOf : Effect → Option String
  | .stat path | .readFile path _ | .writeFile path _ | .removeFile path => some path
  | _ => none

/-- The paths a program uses in some surroundings. -/
def pathsOf {σ α : Type} (answer : σ → (e : Effect) → σ × e.Answer) (s : σ) (p : Handler α) :
    List String :=
  ((Program.run answer s p).1.map Sigma.fst).filterMap pathOf

/-- What the system makes of a path: it ends at the first zero. -/
def cPath (path : String) : List Char := path.toList.takeWhile fun c => c.toNat ≠ 0

/-- **The files of a request stay in their directory**, whatever the surroundings do that give what
is given. -/
def Confined (lib : Nlohmann) (server : Server) (buf fileData : List UInt8) (r : FileRequest)
    (given : String) : Prop :=
  ∀ {σ : Type} (answer : σ → (e : Effect) → σ × e.Answer) (s : σ), r.Gives answer s given →
    ∀ path ∈ pathsOf answer s (r.handler lib server buf fileData), Paths.Inside r.dir.toList
      (cPath path)

/-- A name behind a directory comes back to it, and goes on. -/
def Stays (dir name : String) : Prop :=
  (Paths.relative (cPath name)).Returns (Paths.resolve dir.toList)

instance (dir name : String) : Decidable (Stays dir name) :=
  inferInstanceAs (Decidable (Paths.Way.Returns _ _))

/-- **A plain name stays**: one without a slash, and neither empty nor dots. -/
theorem stays_plain {name : String} (hslash : '/' ∉ cPath name)
    (hname : cPath name ≠ [] ∧ cPath name ≠ ['.'] ∧ cPath name ≠ ['.', '.']) (dir : String) :
    Stays dir name :=
  Paths.returns_single hslash hname _

/-- The directories. -/
theorem dir_eq (r : FileRequest) : ∃ base, r.dir.toList = base ++ ['/'] ∧
    r.dir.toList.all (fun c => c.toNat ≠ 0) = true := by
  have hdirs : ∀ dir ∈ [PROFILE_PICTURE_URL, CHAT_PICTURE_URL, PREVIEW_PICTURE_URL, VIDEO_URL],
      dir.toList = dir.toList.dropLast ++ ['/'] ∧ dir.toList.all (fun c => c.toNat ≠ 0) = true := by
        decide
  have hdir : r.dir ∈ [PROFILE_PICTURE_URL, CHAT_PICTURE_URL, PREVIEW_PICTURE_URL, VIDEO_URL] := by
    cases r with
    | get r => cases r <;> simp [FileRequest.dir, GetFile.dir]
    | put r => cases r <;> simp [FileRequest.dir, SendFile.dir]
    | delete videoId => simp [FileRequest.dir]
  exact ⟨_, hdirs _ hdir⟩

/-- **When a path is inside its directory.** -/
theorem inside_iff (r : FileRequest) (name : String) :
    Paths.Inside r.dir.toList (cPath (r.dir ++ name)) ↔ Stays r.dir name := by
  obtain ⟨base, hbase, hzero⟩ := dir_eq r
  have hpath : cPath (r.dir ++ name) = base ++ '/' :: cPath name := by
    rw [cPath, String.toList_append, List.takeWhile_append_of_pos (List.all_eq_true.mp hzero),
      hbase, List.append_assoc]
    rfl
  rw [hpath, hbase, Paths.inside_append_iff, Stays, hbase, Paths.resolve_slash]

/-! ### The paths of a run -/

/-- An effect that uses no path but this one. -/
def Uses (path : String) (e : Effect) : Prop := ∀ path' ∈ pathOf e, path' = path

section Runs

variable {σ α : Type} {answer : σ → (e : Effect) → σ × e.Answer} {s : σ} {lib : Nlohmann}
  {server : Server}
  {buf fileData : List UInt8} {jsonMsg : Json} {path : String} {p : Handler α}

theorem pathsOf_call (e : Effect) (next : e.Answer → Handler α) :
    pathsOf answer s (Program.call e next) =
    (pathOf e).toList ++ pathsOf answer (answer s e).1 (next (answer s e).2) := by
  rw [pathsOf, Program.run_call, List.map_cons, List.filterMap_cons, pathsOf]
  cases pathOf e <;> rfl

/-- The paths are those that are used from there on. -/
theorem pathsOf_comes {quiet : Effect → Prop} {t : σ} {q : Handler α}
    (hquiet : ∀ e, quiet e → pathOf e = none)
    (h : Program.Comes answer quiet s p t q) : pathsOf answer s p = pathsOf answer t q := by
  induction h with
  | refl => rfl
  | call he _ ih => rw [pathsOf_call, ih, hquiet _ he, Option.toList_none, List.nil_append]

/-- A program that may use one path uses no other. -/
theorem eq_of_mem_pathsOf (h : p.Meets (Uses path) fun _ => True) (s : σ) :
    ∀ path' ∈ pathsOf answer s p, path' = path := by
  intro path' hpath
  obtain ⟨e, he, hpath⟩ := List.mem_filterMap.mp hpath
  obtain ⟨x, hx, rfl⟩ := List.mem_map.mp he
  exact h.run s x hx path' hpath

/-- An effect without a path. -/
theorem uses_of_none {e : Effect} (h : pathOf e = none) : Uses path e := by
  intro path' hpath
  rw [h] at hpath
  cases hpath

theorem uses_self {e : Effect} (h : pathOf e = some path) : Uses path e := by
  intro path' hpath
  rw [h] at hpath
  exact (Option.some.inj hpath).symm

/-- A file that is sent is looked at and opened by its path. -/
theorem meets_sendFile (fileInfo : Json) :
    (SendFileControl.sendFile lib server path fileInfo).Meets (Uses path) fun _ => True := by
  have hsize : (SendFileControl.getFileSize path).Meets (Uses path) fun _ => True := by
    refine ⟨uses_self rfl, fun filesize => ?_⟩
    cases filesize <;> trivial
  have hsent :
      ∀ (ok b : Bool), (Handler.sent server ok >>= fun _ => Program.ret b).Meets (Uses path)
        fun _ => True :=
    fun ok b => Program.Meets.bind (Handler.meets_sent server ok) fun _ _ => trivial
  refine Program.Meets.bind hsize fun file_size _ => ?_
  unfold SendFileControl.sendSized
  split
  · exact ⟨uses_of_none rfl, fun ok => hsent ok false⟩
  · refine ⟨uses_self rfl, fun fileData => ?_⟩
    cases fileData with
    | none => trivial
    | some fileData =>
      show (SendFileControl.sendPacket lib server _ _ fileData).Meets _ _
      unfold SendFileControl.sendPacket
      split
      · exact ⟨uses_of_none rfl, fun ok => hsent ok ok⟩
      · trivial

/-- What `receive_file` does once it knows where the file goes. -/
def store (jsonMsg : Json) (fileData : List UInt8) (plan : ReceiveFileControl.Plan) :
    Handler Unit := do
  let _ ← Handler.perform (.writeFile plan.filepath fileData)
  let _ ← Handler.query_execute plan.command
  if ← ReceiveFileControl.isType jsonMsg .Video then
    ReceiveFileControl.push plan.videoId (← Handler.str jsonMsg "id")

/-- The file is written to its path. -/
theorem meets_store {plan : ReceiveFileControl.Plan} (hplan : plan.filepath = path) :
    (store jsonMsg fileData plan).Meets (Uses path) fun _ => True := by
  have hpush : ∀ videoId followers,
      (ReceiveFileControl.pushTo videoId followers).Meets (Uses path) fun _ => True := by
    intro videoId followers
    refine Program.Meets.loop (fun _ row _ => ?_) followers trivial
    refine Program.Meets.bind (Program.meets_ofOption fun _ _ => trivial) fun follower (_ : True) =>
      ?_
    exact ⟨uses_of_none rfl, fun _ => trivial⟩
  refine Program.Meets.bind (Handler.meets_perform (uses_self (congrArg some hplan))) fun _ _ => ?_
  refine Program.Meets.bind (Handler.meets_perform (uses_of_none rfl)) fun _ _ => ?_
  refine Program.Meets.bind (Program.meets_ofOption fun _ _ => trivial) fun isVideo (_ : True) => ?_
  split
  · refine Program.Meets.bind (Program.meets_ofOption fun _ _ => trivial) fun id (_ : True) => ?_
    refine ⟨uses_of_none rfl, fun followers => ?_⟩
    cases followers with
    | none => trivial
    | some followers => exact hpush _ _
  · trivial

/-- The plan for a file, once its new id is known, if it has one. -/
def planned (lib : Nlohmann) (server : Server) (newId : String) :
    SendFile → Handler ReceiveFileControl.Plan
  | .picture id suffix => pure {
      filepath := PROFILE_PICTURE_URL ++ id ++ suffix
      command := .updatePictureSuffix server suffix id
      videoId := "" }
  | .chatImg suffix sendId receiveId => pure {
      filepath := CHAT_PICTURE_URL ++ newId ++ suffix
      command :=
        .insertMessage sendId receiveId (toString MessageType.ChatImg.code) (newId ++ suffix)
      videoId := "" }
  | .preview id suffix => pure {
      filepath := PREVIEW_PICTURE_URL ++ id ++ suffix
      command := .updatePreviewSuffix suffix id
      videoId := "" }
  | .video id suffix profile => do
      let p ← NetPacketGenerator.sendVideoId_P lib newId
      Handler.send server p
      pure {
        filepath := VIDEO_URL ++ newId ++ suffix
        command := .insertVideo newId id suffix profile
        videoId := newId }

/-- **What `receive_file` does with a request.** -/
theorem receive_file_eq {r : SendFile} (hparse : lib.parse buf = some jsonMsg) (hr : r.Of jsonMsg) :
    ReceiveFileControl.receive_file lib server buf fileData =
      if r.isNew then Handler.nextId >>= fun n =>
      planned lib server (toString n) r >>= store jsonMsg fileData
      else planned lib server "" r >>= store jsonMsg fileData := by
  obtain ⟨htype, hmembers⟩ := hr
  have hplan : ReceiveFileControl.plan lib server jsonMsg =
      if r.isNew then Handler.nextId >>= fun n => planned lib server (toString n) r
        else planned lib server "" r := by
    simp only [ReceiveFileControl.plan, ReceiveFileControl.isType_eq htype, Program.ret_bind]
    cases r with
    | picture id suffix =>
      show ReceiveFileControl.planPicture server jsonMsg = _
      rw [ReceiveFileControl.planPicture, Handler.str_eq hmembers.1, Handler.str_eq hmembers.2]
      rfl
    | chatImg suffix sendId receiveId =>
      show ReceiveFileControl.planChatImg jsonMsg = _
      rw [ReceiveFileControl.planChatImg, Handler.str_eq hmembers.1, Handler.str_eq hmembers.2.1,
        Handler.str_eq hmembers.2.2]
      rfl
    | preview id suffix =>
      show ReceiveFileControl.planPreview jsonMsg = _
      rw [ReceiveFileControl.planPreview, Handler.str_eq hmembers.1, Handler.str_eq hmembers.2]
      rfl
    | video id suffix profile =>
      show ReceiveFileControl.planVideo lib server jsonMsg = _
      rw [ReceiveFileControl.planVideo, Handler.str_eq hmembers.1, Handler.str_eq hmembers.2.1,
        Handler.str_eq hmembers.2.2]
      rfl
  rw [ReceiveFileControl.receive_file, hparse, Program.ofOption_some, Program.ret_bind, hplan]
  split
  · rw [Program.bind_assoc]
    rfl
  · rfl

/-- The file goes behind the directory, under its name. -/
theorem meets_planned (newId : String) (r : SendFile) (jsonMsg : Json) (fileData : List UInt8) :
    (planned lib server newId r >>= store jsonMsg fileData).Meets (Uses (r.dir ++ r.name newId))
      fun _ => True := by
  have hplan : (planned lib server newId r).Meets (Uses (r.dir ++ r.name newId))
      fun plan => plan.filepath = r.dir ++ r.name newId := by
    cases r with
    | video id suffix profile =>
      show (NetPacketGenerator.packet lib .SendFile _ >>= _).Meets _ _
      rw [NetPacketGenerator.packet_bind]
      split
      · have hsend :
            ∀ p, (Handler.send server p).Meets (Uses (VIDEO_URL ++ (newId ++ suffix))) fun _ =>
            True :=
          fun p => Program.Meets.bind (Handler.meets_perform (uses_of_none rfl)) fun ok _ =>
            Handler.meets_sent server ok
        exact Program.Meets.bind (hsend _) fun _ _ => String.append_assoc ..
      · trivial
    | picture id suffix | chatImg suffix sendId receiveId | preview id suffix =>
      exact String.append_assoc ..
  exact Program.Meets.bind hplan fun plan hfilepath => meets_store hfilepath

end Runs

section Handlers

variable {σ : Type} {answer : σ → (e : Effect) → σ × e.Answer} {s : σ} {lib : Nlohmann}
  {server : Server}
  {buf fileData : List UInt8} {jsonMsg : Json} {r : FileRequest} {given : String}

/-- The paths of a file that is asked for. -/
theorem pathsOf_get {r : GetFile} {publisherId : String} (hparse : lib.parse buf = some jsonMsg)
    (hr : r.Of jsonMsg) (hfinds : r.Finds answer s given publisherId) :
    pathsOf answer s (SendFileControl.send_file lib server buf) = pathsOf answer (r.after answer s)
      (SendFileControl.sendFile lib server (r.dir ++ r.name given)
      (r.fileInfo given publisherId)) := by
  have hquiet : ∀ e : Effect, (∃ command, e = .query_store command) → pathOf e = none := by
    rintro _ ⟨command, rfl⟩
    rfl
  rw [SendFileControl.send_file, hparse, Program.ofOption_some, Program.ret_bind,
    pathsOf_comes hquiet (comes_answer hr hfinds), pathsOf, Program.run_bind_ret, pathsOf]

/-- What is done to the file of a video that is deleted, and to its rows. -/
def removed (videoId : String) (path : String) : Handler Unit :=
  Program.call (.removeFile path) fun _ =>
    Program.call (.query_execute (.deleteVideo videoId)) fun _ =>
      Program.call (.query_execute (.deleteVideoLikes videoId)) fun _ => Program.ret ()

theorem meets_removed (videoId path : String) :
    (removed videoId path).Meets (Uses path) fun _ => True :=
  ⟨uses_self rfl, fun _ => ⟨uses_of_none rfl, fun _ => ⟨uses_of_none rfl, fun _ => trivial⟩⟩⟩

/-- The paths of a video that is deleted. -/
theorem pathsOf_delete {videoId : String} (hparse : lib.parse buf = some jsonMsg)
    (hr : (FileRequest.delete videoId).Of jsonMsg)
    (hgives : (FileRequest.delete videoId).Gives answer s given) :
    pathsOf answer s (ModifyInfoControl.modify_info lib server buf) =
      pathsOf answer (answer s (.query_store (.selectVideoSuffix videoId))).1
        (removed videoId (VIDEO_URL ++ (videoId ++ given))) := by
  obtain ⟨⟨infotype, hinfotype, hvideo⟩, hid⟩ := hr
  have hdeletion : Store.deletionOf lib buf = some videoId := by
    simp only [Store.deletionOf, hparse, hinfotype, hvideo, Option.bind_some, if_true, hid]
  rw [Store.modify_info_deletion hdeletion]
  show pathsOf answer s (Program.call (.query_store _) fun rows => Handler.firstCell rows 0 >>= _) =
    _
  rw [pathsOf_call, firstCell_eq hgives rfl, Program.ret_bind, Store.videoPath, String.append_assoc]
  rfl

/-- **A request uses one path**, whatever the surroundings do. -/
theorem pathsOf_handler (hparse : lib.parse buf = some jsonMsg) (hr : r.Of jsonMsg)
    (hgives : r.Gives answer s given) :
    ∀ path ∈ pathsOf answer s (r.handler lib server buf fileData), path =
      r.dir ++ r.name given := by
  cases r with
  | get r =>
    obtain ⟨publisherId, hfinds⟩ := hgives
    rw [FileRequest.handler, pathsOf_get hparse hr hfinds]
    exact eq_of_mem_pathsOf (meets_sendFile _) _
  | put r =>
    rw [FileRequest.handler, receive_file_eq hparse hr]
    split
    · rename_i hnew
      show ∀ path ∈ pathsOf answer s (Program.call .nextId fun n => Program.ofOption n >>= _), _
      rw [pathsOf_call]
      intro path hpath
      cases hn : (answer s .nextId).2 with
      | none =>
        rw [hn] at hpath
        cases hpath
      | some n =>
        rw [hn] at hpath
        rw [hgives hnew n hn]
        exact eq_of_mem_pathsOf (meets_planned (toString n) r jsonMsg fileData) _ path hpath
    · rename_i hold
      show ∀ path ∈ _, path = r.dir ++ r.name given
      rw [SendFile.name_eq hold given ""]
      exact eq_of_mem_pathsOf (meets_planned "" r jsonMsg fileData) s
  | delete videoId =>
    rw [FileRequest.handler, pathsOf_delete hparse hr hgives]
    exact eq_of_mem_pathsOf (meets_removed _ _) _

/-! ### Surroundings in which the path is used -/

/-- Surroundings that give what is given, and in which everything succeeds. -/
def giving (given : String) (n : ℕ) (_ : Unit) : (e : Effect) → Unit × e.Answer
  | .query_store _ => ((), some [{ number := 0, cells := [given, ""] }])
  | .nextId => ((), some n)
  | e => sameFiles [0] () e

theorem gives_giving {n : ℕ} (hgiven : ∀ r', r = .put r' → r'.isNew = true → given = toString n) :
    r.Gives (giving given n) () given := by
  cases r with
  | get r =>
    refine ⟨"", fun command columns hquery => ?_⟩
    exact List.take_prefix columns [given, ""]
  | put r =>
    rintro hnew m hm
    obtain rfl : n = m := Option.some.inj hm
    exact hgiven r rfl hnew
  | delete videoId => exact ⟨[""], rfl⟩

/-- A new id fits into its packet. -/
theorem fits_videoId (hlib : lib.Writes) {n : ℕ} (hn : n < 2 ^ 64) :
    NetPacketGenerator.fits lib (Json.null.set "videoId" (.str (toString n))) = true := by
  have hobj : Json.null.set "videoId" (.str (toString n)) = .obj [("videoId", .str (toString n))] :=
    rfl
  have hwritten : Written (Json.null.set "videoId" (.str (toString n))) :=
    written_null.set _ (written_str _)
  have hdigits : (toString n).length ≤ 20 :=
    (Nat.length_repr_le_iff (by decide)).mpr (hn.trans (by decide))
  have hkey : (Json.dump_escaped "videoId").length = 7 := by decide
  have hid := Json.length_dump_escaped_le (toString n)
  rw [NetPacketGenerator.fits, decide_eq_true_eq, hlib.dump_eq hwritten, hobj, Json.length_text_obj]
  simp only [List.map_cons, List.map_nil, List.sum_cons, List.sum_nil, List.length_cons,
    List.length_nil, Json.length_text_str, hkey, BUF_SIZE]
  omega

/-- A file that is sent to the server is written, in these surroundings. -/
theorem mem_pathsOf_put {r : SendFile} {n : ℕ} (server : Server) (fileData : List UInt8)
    (hlib : lib.Writes) (hn : n < 2 ^ 63) (newId : String)
    (hnew : r.isNew = true → newId = toString n) :
    r.dir ++ r.name newId ∈ pathsOf (giving given n) ()
      (planned lib server newId r >>= store jsonMsg fileData) := by
  have hstore : ∀ (plan : ReceiveFileControl.Plan) (path : String), plan.filepath = path →
      path ∈ pathsOf (giving given n) () (store jsonMsg fileData plan) := by
    rintro plan path rfl
    show _ ∈ pathsOf _ _ (Program.call _ _)
    rw [pathsOf_call]
    exact List.mem_append_left _ List.mem_cons_self
  cases r with
  | picture id suffix | chatImg suffix sendId receiveId | preview id suffix =>
    exact hstore _ _ (String.append_assoc ..)
  | video id suffix profile =>
    obtain rfl : newId = toString n := hnew rfl
    have hsent : Handler.sent server true = Program.ret () := by simp [Handler.sent]
    rw [planned, Program.bind_assoc, NetPacketGenerator.sendVideoId_P,
      NetPacketGenerator.packet_bind, if_pos (fits_videoId hlib (hn.trans (by decide)))]
    show _ ∈ pathsOf _ _
      (Program.call (.send _) fun ok => (Handler.sent server ok >>= fun _ => _) >>= _)
    rw [pathsOf_call]
    show _ ∈ [] ++ pathsOf _ _ ((Handler.sent server true >>= _) >>= _)
    rw [hsent]
    exact hstore _ _ (String.append_assoc ..)

/-- **There are surroundings in which the path is used.** -/
theorem mem_pathsOf_handler (server : Server) (fileData : List UInt8) (hlib : lib.Writes)
    (hparse : lib.parse buf = some jsonMsg) (hr : r.Of jsonMsg) (hgiven : r.CanBeGiven given) :
    ∃ n, r.Gives (giving given n) () given ∧
      r.dir ++ r.name given ∈ pathsOf (giving given n) () (r.handler lib server buf fileData) := by
  cases r with
  | get r =>
    have hgives : (FileRequest.get r).Gives (giving given 0) () given :=
      gives_giving fun _ h => nomatch h
    obtain ⟨publisherId, hfinds⟩ := hgives
    refine ⟨0, ⟨publisherId, hfinds⟩, ?_⟩
    rw [FileRequest.handler, pathsOf_get hparse hr hfinds]
    show _ ∈ pathsOf _ _ (Program.call (.stat _) _)
    rw [pathsOf_call]
    exact List.mem_append_left _ List.mem_cons_self
  | put r =>
    obtain ⟨n, hn, hnew⟩ : ∃ n < 2 ^ 63, r.isNew = true → given = toString n := by
      by_cases hnew : r.isNew = true
      · obtain ⟨n, hn, hgiven⟩ := hgiven hnew
        exact ⟨n, hn, fun _ => hgiven⟩
      · exact ⟨0, by decide, fun h => absurd h hnew⟩
    refine ⟨n, gives_giving fun r' hr' => ?_, ?_⟩
    · cases hr'
      exact hnew
    · rw [FileRequest.handler, receive_file_eq hparse hr]
      split
      · rename_i hisNew
        have hname : r.name given = r.name (toString n) := congrArg r.name (hnew hisNew)
        show r.dir ++ r.name given ∈ pathsOf _ _
          (Program.call .nextId fun m => Program.ofOption m >>= _)
        rw [pathsOf_call, hname]
        exact mem_pathsOf_put server fileData hlib hn (toString n) fun _ => rfl
      · rename_i hold
        show r.dir ++ r.name given ∈ _
        rw [SendFile.name_eq hold given ""]
        exact mem_pathsOf_put server fileData hlib hn "" fun h => absurd h hold
  | delete videoId =>
    have hgives : (FileRequest.delete videoId).Gives (giving given 0) () given :=
      gives_giving fun _ h => nomatch h
    refine ⟨0, hgives, ?_⟩
    rw [FileRequest.handler, pathsOf_delete hparse hr hgives, removed, pathsOf_call]
    exact List.mem_append_left _ List.mem_cons_self

end Handlers

/-- A name that stays is needed. -/
theorem Confined.stays {lib : Nlohmann} {server : Server} {buf fileData : List UInt8}
    {jsonMsg : Json} {r : FileRequest} {given : String}
    (h : Confined lib server buf fileData r given) (hlib : lib.Writes)
    (hparse : lib.parse buf = some jsonMsg) (hr : r.Of jsonMsg) (hgiven : r.CanBeGiven given) :
    Stays r.dir (r.name given) := by
  obtain ⟨n, hgives, hmem⟩ := mem_pathsOf_handler server fileData hlib hparse hr hgiven
  exact (inside_iff r (r.name given)).mp (h (giving given n) () hgives _ hmem)

/-- **Which files stay in their directory**: those whose name, as far as its first zero, goes up no
more levels than it goes down again by the same way, and goes on. -/
theorem confined_iff (lib : Nlohmann) (server : Server) (buf fileData : List UInt8) (jsonMsg : Json)
    (r : FileRequest) (given : String) (hlib : lib.Writes) (hparse : lib.parse buf = some jsonMsg)
    (hr : r.Of jsonMsg) (hgiven : r.CanBeGiven given) : Confined lib server buf fileData r given ↔
      Stays r.dir (r.name given) := by
  refine ⟨fun h => h.stays hlib hparse hr hgiven, fun hstays σ answer s hgives path hpath => ?_⟩
  rw [pathsOf_handler hparse hr hgives path hpath]
  exact (inside_iff r (r.name given)).mpr hstays

theorem parse_known (j : Json) : (knowing [j]).parse j.text = some j := by simp [knowing]

/-- A picture with a plain name. -/
theorem confined_iff_picture :
    Confined (knowing [pictureRequest]) .epoll pictureRequest.text []
      (.get (.picture "1")) ".png" := by
  refine (confined_iff (knowing [pictureRequest]) .epoll pictureRequest.text [] pictureRequest
    (.get (.picture "1")) ".png"
    (writes_knowing _) (parse_known _) ⟨⟨_, rfl, rfl⟩, rfl⟩ trivial).mpr ?_
  exact stays_plain (by decide) (by decide) _

/-! ### Names that escape -/

/-- A request for a picture one level up. -/
def pictureAbove : Json := .obj [("filetype", .int 0), ("id", .str "../x")]

/-- A picture to be put there. -/
def pictureSentAbove : Json :=
  .obj [("filetype", .int 0), ("id", .str "../x"), ("suffix", .str ".png")]

/-- A video to be deleted there. -/
def videoDeletedAbove : Json := .obj [("infotype", .int 7), ("videoId", .str "../x")]

/-- **Names with `..` escape**, when a file is asked for, sent and deleted. -/
theorem not_confined : (FileRequest.get (.picture "../x")).Of pictureAbove ∧
    (FileRequest.put (.picture "../x" ".png")).Of pictureSentAbove ∧
      (FileRequest.delete "../x").Of videoDeletedAbove ∧
    ¬ Confined (knowing [pictureAbove]) .boost pictureAbove.text []
      (.get (.picture "../x")) ".png" ∧
    ¬ Confined (knowing [pictureSentAbove]) .boost pictureSentAbove.text [0]
      (.put (.picture "../x" ".png")) "" ∧
    ¬ Confined (knowing [videoDeletedAbove]) .boost videoDeletedAbove.text []
      (.delete "../x") ".mp4" := by
  have hget : (FileRequest.get (.picture "../x")).Of pictureAbove := ⟨⟨_, rfl, rfl⟩, rfl⟩
  have hput : (FileRequest.put (.picture "../x" ".png")).Of pictureSentAbove :=
    ⟨⟨_, rfl, rfl⟩, rfl, rfl⟩
  have hdelete : (FileRequest.delete "../x").Of videoDeletedAbove := ⟨⟨_, rfl, rfl⟩, rfl⟩
  refine ⟨hget, hput, hdelete, fun h => ?_, fun h => ?_, fun h => ?_⟩
  · exact absurd (h.stays (writes_knowing _) (parse_known _) hget trivial) (by decide)
  · exact absurd (h.stays (writes_knowing _) (parse_known _) hput fun hnew => by cases hnew)
      (by decide)
  · exact absurd (h.stays (writes_knowing _) (parse_known _) hdelete trivial) (by decide)

end PickUpLight.Requests
