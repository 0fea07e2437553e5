import Mathlib.Data.List.TakeWhile
import PickUpLight.Replies.Files
import PickUpLight.Wire.Buffer

/-!
# Descriptions of files

A client that asks for a file gets a description of it, in a block of `BUF_SIZE` bytes. The request
was no longer than that, and the description repeats it. The id that a chat image comes with is
written behind a shorter key than in the request. The id of a picture or of a video is part of the
file's name, and so is short, as far as the name is read: it ends at its first zero, and the
description does not. A preview's description has the suffix from the database besides the two ids
(`describes_iff`).
-/

namespace PickUpLight.Replies

open PickUpLight.Theory PickUpLight.Wire PickUpLight.Control Handler SendFileControl

/-! ### Requests -/

/-- What a request asks for. -/
inductive GetFile where
  /-- 头像文件. -/
  | picture (id : String)
  /-- 点播视频文件. -/
  | video (id : String)
  /-- 聊天图像. -/
  | chatImg (id imgName : String)
  /-- 视频预览图. -/
  | preview (id videoId : String)
  deriving DecidableEq, Repr

/-- An answer begins with these cells; if it has no row, or the query fails, they are empty. -/
def First (res : Option (List Row)) (cells : List String) : Prop :=
  match res with
  | some (row :: _) => cells <+: row.cells
  | _ => ∀ c ∈ cells, c = ""

namespace GetFile

/-- The type of a request's file. -/
def filetype : GetFile → FileType
  | picture _ => .ProfilePicture
  | video _ => .Video
  | chatImg _ _ => .ChatImg
  | preview _ _ => .VideoPreviewImg

/-- A message is this request. -/
def Of (jsonMsg : Json) (r : GetFile) : Prop :=
  (∃ j, jsonMsg.member "filetype" = some j ∧ j.eqCode r.filetype.code = true) ∧
    match r with
    | picture id | video id => jsonMsg.string "id" = some id
    | chatImg id imgName => jsonMsg.string "id" = some id ∧ jsonMsg.string "imgName" = some imgName
    | preview id videoId => jsonMsg.string "id" = some id ∧ jsonMsg.string "videoId" = some videoId

/-- The name of the file, with the suffix from the database. -/
def name (r : GetFile) (suffix : String) : String :=
  match r with
  | picture id | video id => id ++ suffix
  | chatImg _ imgName => imgName
  | preview _ videoId => videoId ++ suffix

/-- The name that `stat` and `fopen` read: a C string. -/
def nameRead (r : GetFile) (suffix : String) : List UInt8 :=
  (utf8 (r.name suffix)).takeWhile (· ≠ 0)

/-- Where the file is. -/
def dir : GetFile → String
  | picture _ => PROFILE_PICTURE_URL
  | video _ => VIDEO_URL
  | chatImg _ _ => CHAT_PICTURE_URL
  | preview _ _ => PREVIEW_PICTURE_URL

/-- The description. -/
def fileInfo (r : GetFile) (suffix publisherId : String) : Json :=
  match r with
  | picture id => toJson_PFileInfo .ProfilePicture id suffix
  | video id => toJson_VFileInfo .Video id publisherId suffix
  | chatImg id imgName => toJson_PFileInfo .ChatImg id imgName
  | preview id videoId => toJson_PFileInfo .VideoPreviewImg id (videoId ++ suffix)

/-- **The description fits**, by the lengths of its strings. The one of a chat image always does. -/
def Fits (r : GetFile) (suffix publisherId : String) : Prop :=
  match r with
  | picture id => 34 + (Json.dump_escaped id).length + (Json.dump_escaped suffix).length < BUF_SIZE
  | video id => 56 + (Json.dump_escaped id).length + (Json.dump_escaped publisherId).length +
      (Json.dump_escaped suffix).length < BUF_SIZE
  | chatImg _ _ => True
  | preview id videoId => 34 + (Json.dump_escaped id).length + (Json.dump_escaped videoId).length +
      (Json.dump_escaped suffix).length < BUF_SIZE

/-- What the database has on the file a request asks for: the suffix, and the publisher of a
video. -/
def Stored {σ : Type} (answer : σ → (e : Effect) → σ × e.Answer) (r : GetFile)
    (suffix publisherId : String) :
    Prop :=
  ∀ s : σ, match r with
    | picture id => First (answer s (.query_store (.selectPictureSuffix id))).2 [suffix]
    | video id => First (answer s (.query_store (.selectVideoFile id))).2 [suffix, publisherId]
    | chatImg _ _ => True
    | preview _ videoId => First (answer s (.query_store (.selectPreviewSuffix videoId))).2 [suffix]

/-- The query for what the database has on a file, and the number of its columns. -/
def query : GetFile → Option (Command × ℕ)
  | picture id => some (.selectPictureSuffix id, 1)
  | video id => some (.selectVideoFile id, 2)
  | chatImg _ _ => none
  | preview _ videoId => some (.selectPreviewSuffix videoId, 1)

/-- The suffix, and the publisher of a video, are found at one point. -/
def Finds {σ : Type} (answer : σ → (e : Effect) → σ × e.Answer) (s : σ) (r : GetFile)
    (suffix publisherId : String) :
    Prop :=
  ∀ command columns, r.query = some (command, columns) →
    First (answer s (.query_store command)).2 ([suffix, publisherId].take columns)

/-- The surroundings once the database has answered. -/
def after {σ : Type} (answer : σ → (e : Effect) → σ × e.Answer) (s : σ) (r : GetFile) : σ :=
  match r.query with
  | some (command, _) => (answer s (.query_store command)).1
  | none => s

theorem Stored.finds {σ : Type} {answer : σ → (e : Effect) → σ × e.Answer} {r : GetFile}
    {suffix publisherId : String} (h : r.Stored answer suffix publisherId)
    (s : σ) : r.Finds answer s suffix publisherId := by
  intro command columns hquery
  cases r with
  | chatImg id imgName => cases hquery
  | picture id | video id | preview id videoId =>
    cases hquery
    exact h s

end GetFile

/-! ### What a request does -/

section Runs

variable {σ : Type} {answer : σ → (e : Effect) → σ × e.Answer} {lib : Nlohmann} {server : Server}
  {jsonMsg : Json} {r : GetFile} {suffix publisherId : String}

theorem firstCell_eq {res : Option (List Row)} {cells : List String} {i : ℕ} {c : String}
    (h : First res cells) (hi : cells[i]? = some c) : firstCell res i = Program.ret c := by
  unfold First at h
  split at h
  · rename_i row rows
    obtain ⟨rest, hrest⟩ := h
    have hlt := (List.getElem?_eq_some_iff.mp hi).1
    have hc : row.cells[i]? = some c := by rw [← hrest, List.getElem?_append_left hlt, hi]
    simp [firstCell, cell, hc]
  · rename_i hno
    have hc : c = "" := h c (List.mem_of_getElem? hi)
    subst hc
    unfold firstCell
    split
    · rename_i row rows
      exact absurd rfl (hno row rows)
    · rfl

/-- What `send_file` does with a request. -/
theorem answer_eq (hr : r.Of jsonMsg) :
    SendFileControl.answer lib server jsonMsg = (match r with
      | .picture _ => sendPicture lib server jsonMsg
      | .video _ => sendVideo lib server jsonMsg
      | .chatImg _ _ => sendChatImg lib server jsonMsg
      | .preview _ _ => sendPreview lib server jsonMsg) >>= fun _ => Program.ret () := by
  simp only [SendFileControl.answer, ReceiveFileControl.isType_eq hr.1, Program.ret_bind]
  cases r <;> rfl

/-- **A request asks the database, and then the file is sent.** -/
theorem comes_answer {s : σ} (hr : r.Of jsonMsg) (hfinds : r.Finds answer s suffix publisherId) :
    Program.Comes answer (fun e => ∃ command, e = .query_store command) s
      (SendFileControl.answer lib server jsonMsg)
      (r.after answer s)
      (sendFile lib server (r.dir ++ r.name suffix) (r.fileInfo suffix publisherId) >>= fun _ =>
        Program.ret ()) := by
  have hmembers := hr.2
  rw [answer_eq hr]
  cases r with
  | picture id =>
    have hfirst : First (answer s (.query_store (.selectPictureSuffix id))).2 [suffix] :=
      hfinds _ _ rfl
    rw [sendPicture, str_eq hmembers]
    refine .call ⟨_, rfl⟩ ?_
    show Program.Comes answer _ _
      (firstCell (answer s (.query_store (.selectPictureSuffix id))).2 0 >>= _ >>= _) _ _
    rw [firstCell_eq hfirst rfl, Program.ret_bind, String.append_assoc]
    exact .refl _ _
  | video id =>
    have hfirst : First (answer s (.query_store (.selectVideoFile id))).2 [suffix, publisherId] :=
      hfinds _ _ rfl
    rw [sendVideo, str_eq hmembers]
    refine .call ⟨_, rfl⟩ ?_
    show Program.Comes answer _ _
      ((firstCell (answer s (.query_store (.selectVideoFile id))).2 0 >>= fun videoSuffix =>
      firstCell (answer s (.query_store (.selectVideoFile id))).2 1 >>= _) >>= _) _ _
    rw [firstCell_eq hfirst rfl, Program.ret_bind, firstCell_eq hfirst rfl, Program.ret_bind,
      String.append_assoc]
    exact .refl _ _
  | chatImg id imgName =>
    rw [sendChatImg, str_eq hmembers.2, str_eq hmembers.1]
    exact .refl _ _
  | preview id videoId =>
    have hfirst : First (answer s (.query_store (.selectPreviewSuffix videoId))).2 [suffix] :=
      hfinds _ _ rfl
    rw [sendPreview, str_eq hmembers.2, str_eq hmembers.1]
    refine .call ⟨_, rfl⟩ ?_
    show Program.Comes answer _ _
      (firstCell (answer s (.query_store (.selectPreviewSuffix videoId))).2 0 >>= _ >>= _) _ _
    rw [firstCell_eq hfirst rfl, Program.ret_bind, String.append_assoc]
    exact .refl _ _

/-- The packets are those the file is sent with. -/
theorem packetsOf_answer {s : σ} (hr : r.Of jsonMsg)
    (hfinds : r.Finds answer s suffix publisherId) :
    packetsOf answer s (SendFileControl.answer lib server jsonMsg) =
      packetsOf answer (r.after answer s)
      (sendFile lib server (r.dir ++ r.name suffix) (r.fileInfo suffix publisherId)) := by
  have hquiet : ∀ e : Effect, (∃ command, e = .query_store command) → isPacket e = false := by
    rintro _ ⟨command, rfl⟩
    rfl
  rw [packetsOf_comes hquiet (comes_answer hr hfinds), packetsOf, Program.run_bind_ret, packetsOf]

end Runs

/-! ### Descriptions -/

/-- A parser that makes of the text of a value what has the same members. -/
def RoundTrips (lib : Nlohmann) (j : Json) : Prop :=
  ∃ j', lib.parse (lib.dump j) = some j' ∧ ∀ key, j'.member key = j.member key

/-- A description stays inside its block, and a client parses it back, whatever is behind it. -/
def Arrives (lib : Nlohmann) (fileInfo : Json) : Prop :=
  (lib.dump fileInfo).length + 1 ≤ BUF_SIZE ∧ ∀ garbage, ∃ text j,
    cString (lib.dump fileInfo ++ 0 :: garbage) = some text ∧ lib.parse text = some j ∧
      ∀ key, j.member key = fileInfo.member key

/-- The answer to a request describes the file, which is there and can be sent. -/
def Describes (lib : Nlohmann) (server : Server) (buf : List UInt8) (r : GetFile)
    (suffix publisherId : String) :
    Prop :=
  ∀ {σ : Type} (answer : σ → (e : Effect) → σ × e.Answer) (s : σ) (data : List UInt8),
    r.Stored answer suffix publisherId → Readable answer (r.dir ++ r.name suffix) data →
    1 ≤ data.length → data.length ≤ FILE_BUF_SIZE →
    ∃ p, packetsOf answer s (send_file lib server buf) = [.sendFile p] ∧
      p.fileInfo = r.fileInfo suffix publisherId ∧ Arrives lib p.fileInfo

variable {lib : Nlohmann} {server : Server} {buf : List UInt8} {jsonMsg : Json} {r : GetFile}
  {suffix publisherId : String}

theorem written_description (r : GetFile) (suffix publisherId : String) :
    Written (r.fileInfo suffix publisherId) := by
  cases r with
  | video id => exact written_VFileInfo _ _ _ _
  | picture id | chatImg id imgName | preview id videoId => exact written_PFileInfo _ _ _

/-- Surroundings in which every file has one byte, and the database knows of every file. -/
def stocked (suffix publisherId : String) (s : Unit) : (e : Effect) → Unit × e.Answer
  | .query_store _ => ((), some [{ number := 0, cells := [suffix, publisherId] }])
  | e => sameFiles [0] s e

theorem stored_stocked (r : GetFile) (suffix publisherId : String) :
    r.Stored (stocked suffix publisherId) suffix publisherId := by
  intro s
  cases r with
  | chatImg id imgName => trivial
  | video id => exact List.prefix_rfl
  | picture id | preview id videoId => exact ⟨[publisherId], rfl⟩

theorem readable_stocked (suffix publisherId path : String) :
    Readable (stocked suffix publisherId) path [0] :=
  ⟨fun _ => rfl, fun _ _ => rfl⟩

theorem describes_iff_fits (hlib : lib.Writes) (hparse : lib.parse buf = some jsonMsg)
    (hr : r.Of jsonMsg) (hround : RoundTrips lib (r.fileInfo suffix publisherId)) :
    Describes lib server buf r suffix publisherId ↔
      NetPacketGenerator.fits lib (r.fileInfo suffix publisherId) = true := by
  have hsend : send_file lib server buf = SendFileControl.answer lib server jsonMsg := by
    rw [send_file, hparse, Program.ofOption_some, Program.ret_bind]
  constructor
  · intro hd
    obtain ⟨p, -, hinfo, hle, -⟩ :=
      hd (stocked suffix publisherId) () [0] (stored_stocked r suffix publisherId)
      (readable_stocked suffix publisherId _) (by decide) (by decide)
    rw [hinfo] at hle
    exact decide_eq_true hle
  · intro hfits σ answer s data hstored hfile hpos hle
    refine ⟨wholeFile (r.fileInfo suffix publisherId) data, ?_, rfl, ?_⟩
    · rw [hsend, packetsOf_answer hr (hstored.finds s)]
      exact (carries_of_le hpos hle hfits).whole answer (r.after answer s) hfile
    · refine ⟨of_decide_eq_true hfits, fun garbage => ?_⟩
      obtain ⟨j, hj, hmembers⟩ := hround
      have hzero : 0 ∉ lib.dump (r.fileInfo suffix publisherId) := by
        rw [hlib.dump_eq (written_description r suffix publisherId)]
        exact Json.zero_not_mem_text _
      exact ⟨_, j, cString_append hzero garbage, hj, hmembers⟩

/-! ### Which descriptions fit -/

theorem utf8_append (s t : String) : utf8 (s ++ t) = utf8 s ++ utf8 t := by
  simp [utf8]

/-- A part of a file's name is short. -/
theorem length_dump_escaped_lt {s : String} (h : (utf8 s).length ≤ 255) :
    (Json.dump_escaped s).length ≤ 1530 := by
  have hescaped := Json.length_dump_escaped_le s
  have hchars := length_le_utf8 s
  omega

/-- The type of a file takes a byte. -/
theorem one_le_least {j : Json} {filetype : FileType} (h : j.eqCode filetype.code = true) :
    1 ≤ j.least := by
  cases j with
  | int n =>
    have hn : n = filetype.code := by simpa [Json.eqCode] using h
    rw [hn]
    exact Nat.le_of_eq (length_code filetype).symm
  | float q => exact Nat.le_refl 1
  | _ => cases h

/-- A request for a chat image repeats the id and the name. -/
theorem least_chatImg {id imgName : String} (hr : (GetFile.chatImg id imgName).Of jsonMsg) :
    35 + (Json.dump_escaped id).length + (Json.dump_escaped imgName).length ≤ jsonMsg.least := by
  obtain ⟨⟨j, hj, hcode⟩, hid, himgName⟩ := hr
  obtain ⟨members, rfl, hidMember⟩ := Json.lookup_of_string hid
  obtain ⟨members', heq, himgMember⟩ := Json.lookup_of_string himgName
  cases heq
  have hfiletype : members.lookup "filetype" = some j := by
    simp only [Json.member, Option.some.injEq] at hj
    cases hv : members.lookup "filetype" with
    | none =>
      rw [hv] at hj
      subst hj
      cases hcode
    | some v =>
      rw [hv] at hj
      rw [← hj, Option.getD_some]
  obtain ⟨rest₁, hsum₁, hlength₁, hlookup₁⟩ := Json.leastMembers_lookup hfiletype
  obtain ⟨rest₂, hsum₂, hlength₂, hlookup₂⟩ :=
    Json.leastMembers_lookup ((hlookup₁ "id" (by decide)).trans hidMember)
  have himgName₂ : rest₂.lookup "imgName" = some (.str imgName) :=
    (hlookup₂ "imgName" (by decide)).trans ((hlookup₁ "imgName" (by decide)).trans himgMember)
  obtain ⟨rest₃, hsum₃, hlength₃, -⟩ := Json.leastMembers_lookup himgName₂
  have htype := one_le_least hcode
  have hkey₁ : (Json.dump_escaped "filetype").length = 8 := by decide
  have hkey₂ : (Json.dump_escaped "id").length = 2 := by decide
  have hkey₃ : (Json.dump_escaped "imgName").length = 7 := by decide
  have hstr : ∀ s : String, (Json.str s).least = (Json.dump_escaped s).length + 2 :=
    fun s => Json.length_text_str s
  rw [hstr] at hsum₂ hsum₃
  simp only [Json.least]
  omega

/-- The condition is on the description. -/
theorem fits_fileInfo_iff (hlib : lib.Writes) (hreads : lib.Reads)
    (hparse : lib.parse buf = some jsonMsg) (hlen : buf.length ≤ BUF_SIZE - 1) (hr : r.Of jsonMsg) :
    NetPacketGenerator.fits lib (r.fileInfo suffix publisherId) = true ↔
      r.Fits suffix publisherId := by
  cases r with
  | picture id => exact fits_PFileInfo hlib .ProfilePicture id suffix
  | video id => exact fits_VFileInfo hlib .Video id publisherId suffix
  | chatImg id imgName =>
    have hsize : BUF_SIZE = 10240 := rfl
    have hrequest := (least_chatImg hr).trans (hreads _ _ hparse)
    rw [GetFile.fileInfo, fits_PFileInfo hlib]
    exact ⟨fun _ => trivial, fun _ => by omega⟩
  | preview id videoId =>
    rw [GetFile.fileInfo, fits_PFileInfo hlib, Json.dump_escaped_append, List.length_append,
      ← Nat.add_assoc]
    exact Iff.rfl

/-- A name without zeros is read to its end. -/
theorem nameRead_eq {suffix : String} (hzero : 0 ∉ utf8 (r.name suffix)) :
    r.nameRead suffix = utf8 (r.name suffix) := by
  rw [GetFile.nameRead, List.takeWhile_eq_self_iff]
  exact fun b hb => decide_eq_true fun h0 => hzero (h0 ▸ hb)

/-- The descriptions of pictures and videos fit, where their names are read to their ends. -/
theorem fits_of_name (hzero : 0 ∉ utf8 (r.name suffix)) (hname : (r.nameRead suffix).length ≤ 255)
    (hsuffix : suffix.length ≤ 20) (hpublisher : publisherId.length ≤ 30)
    (hpreview : ∀ id videoId, r ≠ .preview id videoId) : r.Fits suffix publisherId := by
  have hsize : BUF_SIZE = 10240 := rfl
  have hs := Json.length_dump_escaped_le suffix
  have hp := Json.length_dump_escaped_le publisherId
  rw [nameRead_eq hzero] at hname
  cases r with
  | picture id | video id =>
    rw [GetFile.name, utf8_append, List.length_append] at hname
    have hid : (utf8 id).length ≤ 255 := by omega
    have hlt := length_dump_escaped_lt hid
    simp only [GetFile.Fits]
    omega
  | chatImg id imgName => trivial
  | preview id videoId => exact absurd rfl (hpreview id videoId)

/-- **Which requests get a description that fits and can be read**: those with strings that are not
too long together, and these are all but previews and names that are not read to their ends. -/
theorem describes_iff (lib : Nlohmann) (server : Server) (buf : List UInt8) (jsonMsg : Json)
    (r : GetFile) (suffix publisherId : String) (hlib : lib.Writes) (hreads : lib.Reads)
    (hparse : lib.parse buf = some jsonMsg) (hlen : buf.length ≤ BUF_SIZE - 1) (hr : r.Of jsonMsg)
    (hname : (r.nameRead suffix).length ≤ 255) (hsuffix : suffix.length ≤ 20)
    (hpublisher : publisherId.length ≤ 30)
    (hround : RoundTrips lib (r.fileInfo suffix publisherId)) :
    (Describes lib server buf r suffix publisherId ↔ r.Fits suffix publisherId) ∧
      ((∀ id videoId, r ≠ .preview id videoId) → 0 ∉ utf8 (r.name suffix) →
      r.Fits suffix publisherId) := by
  constructor
  · rw [describes_iff_fits hlib hparse hr hround]
    exact fits_fileInfo_iff hlib hreads hparse hlen hr
  · exact fun hpreview hzero => fits_of_name hzero hname hsuffix hpublisher hpreview

/-! ### A parser of some texts -/

/-- A parser that knows the texts of some values. -/
def knowing (values : List Json) : Nlohmann where
  parse := fun text => values.find? fun j => j.text = text
  dump := Json.text

theorem writes_knowing (values : List Json) : (knowing values).Writes := fun _ _ _ => rfl

theorem reads_knowing {values : List Json} (h : ∀ j ∈ values, j.Plain) :
    (knowing values).Reads := by
  intro text j hj
  have htext : j.text = text := by simpa using List.find?_some hj
  rw [Json.least_eq j (h j (List.mem_of_find?_eq_some hj)), htext]

/-- A request and its answer are both known. -/
theorem parse_knowing {request reply : Json} (h : request.text ≠ reply.text) :
    (knowing [request, reply]).parse request.text = some request ∧
      (knowing [request, reply]).parse reply.text = some reply := by
  simp [knowing, h]

/-- A request for a picture. -/
def pictureRequest : Json := .obj [("filetype", .int 0), ("id", .str "1")]

/-- A picture that is there. -/
theorem describes_iff_picture :
    Describes (knowing [pictureRequest, toJson_PFileInfo .ProfilePicture "1" ".png"]) .epoll
      pictureRequest.text
      (.picture "1") ".png" "" := by
  have hne : pictureRequest.text ≠ (toJson_PFileInfo .ProfilePicture "1" ".png").text := by
    intro h
    have hlength := congrArg List.length h
    rw [length_PFileInfo] at hlength
    exact absurd hlength (by decide)
  have hplain : ∀ j ∈ [pictureRequest, toJson_PFileInfo .ProfilePicture "1" ".png"], j.Plain := by
    simp [pictureRequest, toJson_PFileInfo, Json.set, Json.assign, Json.Plain, Json.PlainMembers]
  have hlen : pictureRequest.text.length = 23 := by decide
  obtain ⟨hiff, hshort⟩ :=
    describes_iff _ .epoll pictureRequest.text pictureRequest (.picture "1") ".png" ""
    (writes_knowing _) (reads_knowing hplain) (parse_knowing hne).1 (hlen.trans_le (by decide))
      ⟨⟨_, rfl, rfl⟩, rfl⟩
    (by decide) (by decide) (by decide) ⟨_, (parse_knowing hne).2, fun _ => rfl⟩
  rw [hiff]
  exact hshort (by rintro _ _ ⟨⟩) (by decide)

/-! ### A description that does not fit -/

/-- A request for the preview of a video. -/
def previewRequest (id : String) : Json :=
  .obj [("filetype", .int 1), ("id", .str id), ("videoId", .str "1")]

theorem length_previewRequest (id : String) :
    (previewRequest id).text.length = 36 + (Json.dump_escaped id).length := by
  have hfiletype : (Json.dump_escaped "filetype").length = 8 := by decide
  have hid : (Json.dump_escaped "id").length = 2 := by decide
  have hvideoId : (Json.dump_escaped "videoId").length = 7 := by decide
  have hone : (Json.dump_escaped "1").length = 1 := by decide
  have hcode : (Json.int 1).text.length = 1 := by decide
  rw [previewRequest, Json.length_text_obj]
  simp only [List.map_cons, List.map_nil, List.sum_cons, List.sum_nil, List.length_cons,
    List.length_nil, Json.length_text_str, hfiletype, hid, hvideoId, hcode, hone]
  omega

theorem previewRequest_of (id : String) : (GetFile.preview id "1").Of (previewRequest id) :=
  ⟨⟨_, rfl, rfl⟩, rfl, rfl⟩

/-- The description for such a request, with a suffix of four letters, is longer by three bytes. -/
theorem not_describes_preview {id : String} (hid : (Json.dump_escaped id).length = 10203)
    (server : Server) :
    ¬ Describes (knowing [previewRequest id, toJson_PFileInfo .VideoPreviewImg id "1.png"]) server
      (previewRequest id).text (.preview id "1") ".png" "" := by
  have hname : (Json.dump_escaped "1.png").length = 5 := by decide
  have hreply : (toJson_PFileInfo .VideoPreviewImg id "1.png").text.length = 10242 := by
    rw [length_PFileInfo, hid, hname]
  have hne : (previewRequest id).text ≠ (toJson_PFileInfo .VideoPreviewImg id "1.png").text := by
    intro h
    have hlengths := congrArg List.length h
    rw [length_previewRequest, hid, hreply] at hlengths
    omega
  have hinfo :
      (GetFile.preview id "1").fileInfo ".png" "" = toJson_PFileInfo .VideoPreviewImg id "1.png" :=
    congrArg (toJson_PFileInfo .VideoPreviewImg id) (by decide)
  have hround :
      RoundTrips (knowing [previewRequest id, toJson_PFileInfo .VideoPreviewImg id "1.png"])
        ((GetFile.preview id "1").fileInfo ".png" "") := by
    rw [hinfo]
    exact ⟨_, (parse_knowing hne).2, fun _ => rfl⟩
  intro hd
  have hfits :=
    (describes_iff_fits (writes_knowing _) (parse_knowing hne).1 (previewRequest_of id) hround).mp
      hd
  have hlt := of_decide_eq_true hfits
  rw [hinfo] at hlt
  exact absurd (hreply.symm.trans_lt hlt) (by decide)

/-- An id of some letters. -/
def letters (n : ℕ) : String := String.ofList (List.replicate n 'a')

theorem length_letters (n : ℕ) : (Json.dump_escaped (letters n)).length = n := by
  rw [Json.dump_escaped, letters, String.toList_ofList]
  induction n with
  | zero => rfl
  | succ n ih =>
    have hone : (Json.escapeChar 'a').length = 1 := by decide
    rw [List.replicate_succ, List.flatMap_cons, List.length_append, ih, hone, Nat.add_comm]

/-- A request as long as a request may be, for the preview of a video with an id of one digit: its
description does not fit. -/
theorem preview_overflows :
    (previewRequest (letters 10203)).text.length = BUF_SIZE - 1 ∧
    (GetFile.preview (letters 10203) "1").Of (previewRequest (letters 10203)) ∧
    ∀ server, ¬ Describes
      (knowing [previewRequest (letters 10203),
      toJson_PFileInfo .VideoPreviewImg (letters 10203) "1.png"]) server
      (previewRequest (letters 10203)).text (.preview (letters 10203) "1") ".png" "" := by
  have hlength : (previewRequest (letters 10203)).text.length = BUF_SIZE - 1 := by
    rw [length_previewRequest, length_letters]
    rfl
  exact ⟨hlength, previewRequest_of _, not_describes_preview (length_letters _)⟩

end PickUpLight.Replies
