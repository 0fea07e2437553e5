import PickUpLight.Control.JsonText
import PickUpLight.Control.SendFileControl
import PickUpLight.Theory.Endings

/-!
# Replies with files

A client that asks for a file should get all of it, and should be told that there is none only
if there is none or nothing in it. The size goes through an `unsigned int` and the packet has
room for `FILE_BUF_SIZE` bytes, so the code does this for files of up to that size and for no
others (`carries_iff`).
-/

namespace PickUpLight.Replies

open PickUpLight.Theory PickUpLight.Wire PickUpLight.Control Handler SendFileControl

variable {σ : Type} {answer : σ → (e : Effect) → σ × e.Answer}

/-! ### Packets of a run -/

/-- An effect that sends something. -/
def isPacket : Effect → Bool
  | .send _ | .sendFile _ | .sendNoFile => true
  | _ => false

/-- What is sent, among the effects of a run. -/
def packets (effects : List ((e : Effect) × e.Answer)) : List Effect :=
  (effects.map Sigma.fst).filter isPacket

/-- What a program sends in some surroundings. -/
def packetsOf {α : Type} (answer : σ → (e : Effect) → σ × e.Answer) (s : σ) (p : Handler α) :
    List Effect :=
  packets (Program.run answer s p).1

@[simp] theorem packetsOf_ret {α : Type} (s : σ) (a : α) :
    packetsOf answer s (Program.ret a) = [] := rfl

@[simp] theorem packetsOf_fail {α : Type} (s : σ) :
    packetsOf answer s (Program.fail : Handler α) = [] := rfl

/-- An effect, and what comes after it. -/
theorem packetsOf_call {α : Type} (s : σ) (e : Effect) (next : e.Answer → Handler α) :
    packetsOf answer s (Program.call e next) =
      [e].filter isPacket ++ packetsOf answer (answer s e).1 (next (answer s e).2) := by
  simp only [packetsOf, packets, Program.run, List.map_cons]
  rw [← List.singleton_append, List.filter_append]

/-- What is sent is what is sent from there on. -/
theorem packetsOf_comes {α : Type} {quiet : Effect → Prop} {s t : σ} {p q : Handler α}
    (hquiet : ∀ e, quiet e → isPacket e = false) (h : Program.Comes answer quiet s p t q) :
    packetsOf answer s p = packetsOf answer t q := by
  induction h with
  | refl => rfl
  | call he _ ih =>
    rw [packetsOf_call, ih, List.filter_singleton, hquiet _ he, cond_false, List.nil_append]

/-- The outcome of a send is the end of it. -/
theorem packetsOf_sent (server : Server) (ok b : Bool) (s : σ) :
    packetsOf answer s (sent server ok >>= fun _ => Program.ret b) = [] := by
  unfold sent
  split <;> rfl

/-! ### Files -/

/-- There is a file of a given size. -/
def Sized (answer : σ → (e : Effect) → σ × e.Answer) (path : String) (size : ℕ) : Prop :=
  ∀ s, (answer s (.stat path)).2 = some size

/-- There is a file that can be read, with given bytes in it. -/
def Readable (answer : σ → (e : Effect) → σ × e.Answer) (path : String) (data : List UInt8) :
    Prop :=
  Sized answer path data.length ∧ ∀ s n, (answer s (.readFile path n)).2 = some (data.take n)

/-- The packet with all of a file. -/
def wholeFile (fileInfo : Json) (data : List UInt8) : FileNetPacket where
  data_size := data.length
  fileInfo := fileInfo
  fileData := data
  length := headerSize + BUF_SIZE + data.length

/-- A reply carries the file. -/
structure Carries (reply : Handler Bool) (path : String) (fileInfo : Json) (data : List UInt8) :
    Prop where
  /-- What is sent of a file that can be read is all of it. -/
  whole : ∀ {σ : Type} (answer : σ → (e : Effect) → σ × e.Answer) (s : σ),
    Readable answer path data →
    packetsOf answer s reply = [.sendFile (wholeFile fileInfo data)]
  /-- A file that is there, whether it can be read or not, is not said to be missing. -/
  honest : ∀ {σ : Type} (answer : σ → (e : Effect) → σ × e.Answer) (s : σ),
    Sized answer path data.length →
    .sendNoFile ∉ packetsOf answer s reply

variable {lib : Nlohmann} {server : Server} {path : String} {fileInfo : Json} {data : List UInt8}

/-- What is sent when there is no file. -/
theorem packetsOf_sendNoFile (s : σ) : packetsOf answer s (sendNoFile server) = [.sendNoFile] := by
  show packetsOf answer s (Program.call _ _) = _
  rw [packetsOf_call]
  exact congrArg (Effect.sendNoFile :: ·) (packetsOf_sent ..)

/-- What is sent once the file has been read. -/
theorem packetsOf_sendPacket {file_size : UInt32} {fileData : List UInt8}
    (hroom : room lib file_size fileInfo fileData) (s : σ) :
    packetsOf answer s (sendPacket lib server file_size fileInfo fileData) =
      [.sendFile { data_size := file_size.toNat, fileInfo := fileInfo, fileData := fileData,
                   length := sendLength server file_size }] := by
  rw [sendPacket, if_pos hroom]
  show packetsOf answer s (Program.call _ _) = _
  rw [packetsOf_call]
  exact congrArg (Effect.sendFile _ :: ·) (packetsOf_sent ..)

/-- A packet with a file is not one that says there is none. -/
theorem sendNoFile_not_mem {file_size : UInt32} {fileData : List UInt8} (s : σ) :
    .sendNoFile ∉ packetsOf answer s (sendPacket lib server file_size fileInfo fileData) := by
  by_cases hroom : room lib file_size fileInfo fileData
  · simp [packetsOf_sendPacket hroom]
  · simp [sendPacket, hroom]

/-- What is sent of a file of some size. -/
theorem packetsOf_sendFile {size : ℕ} (hsize : Sized answer path size) (s : σ) :
    packetsOf answer s (sendFile lib server path fileInfo) =
      packetsOf answer (answer s (.stat path)).1
      (sendSized lib server path fileInfo (UInt32.ofNat size)) := by
  show packetsOf answer s (Program.call _ _) = _
  rw [packetsOf_call, hsize s]
  rfl

/-- What is sent of a file that can be read. -/
theorem packetsOf_sendSized (hfile : Readable answer path data) {file_size : UInt32}
    (hne : file_size ≠ 0)
    (s : σ) : packetsOf answer s (sendSized lib server path fileInfo file_size) =
      packetsOf answer (answer s (.readFile path file_size.toNat)).1
        (sendPacket lib server file_size fileInfo (data.take file_size.toNat)) := by
  rw [sendSized, if_neg hne]
  show packetsOf answer s (Program.call _ _) = _
  rw [packetsOf_call, hfile.2 s]
  rfl

/-- The size as an `unsigned int` is the size. -/
theorem toNat_size {size : ℕ} (hle : size ≤ FILE_BUF_SIZE) : (UInt32.ofNat size).toNat = size := by
  rw [UInt32.toNat_ofNat']
  exact Nat.mod_eq_of_lt (hle.trans_lt (by decide))

/-- The length to send fits an `int`. -/
theorem sendLength_eq (server : Server) {file_size : UInt32}
    (hle : file_size.toNat ≤ FILE_BUF_SIZE) :
    sendLength server file_size = headerSize + BUF_SIZE + file_size.toNat := by
  have hlt : headerSize + BUF_SIZE + file_size.toNat < 2 ^ 31 :=
    (Nat.add_le_add_left hle _).trans_lt (by decide)
  cases server with
  | boost =>
    simp only [sendLength]
    push_cast
    rfl
  | epoll =>
    simp only [sendLength]
    rw [Int32.toInt_ofNat_of_lt hlt]
    push_cast
    rfl

theorem carries_of_le (hpos : 1 ≤ data.length) (hle : data.length ≤ FILE_BUF_SIZE)
    (hfits : NetPacketGenerator.fits lib fileInfo = true) :
    Carries (sendFile lib server path fileInfo) path fileInfo data := by
  have hsize := toNat_size hle
  have hne : UInt32.ofNat data.length ≠ 0 := by
    intro h0
    rw [h0] at hsize
    exact absurd hsize (by simp; omega)
  constructor
  · intro σ answer s hfile
    have htake : data.take (UInt32.ofNat data.length).toNat = data := by
      rw [hsize, List.take_length]
    have hroom : room lib (UInt32.ofNat data.length) fileInfo data :=
      ⟨hfits, hle, hsize.trans_le hle⟩
    rw [packetsOf_sendFile hfile.1, packetsOf_sendSized hfile hne, htake, packetsOf_sendPacket
      hroom, sendLength_eq server hroom.2.2, hsize]
    rfl
  · intro σ answer s hsized
    rw [packetsOf_sendFile hsized, sendSized, if_neg hne]
    show _ ∉ packetsOf answer _ (Program.call _ _)
    rw [packetsOf_call]
    cases (answer (answer s (.stat path)).1
      (.readFile path (UInt32.ofNat data.length).toNat)).2 with
    | some fileData => exact sendNoFile_not_mem _
    | none => exact List.not_mem_nil

/-- Surroundings in which every file is the same. -/
def sameFiles (data : List UInt8) (_ : Unit) : (e : Effect) → Unit × e.Answer
  | .stat _ => ((), some data.length)
  | .readFile _ n => ((), some (data.take n))
  | .query_store _ | .nextId => ((), none)
  | .query_execute _ | .send _ | .sendFile _ | .sendNoFile | .set_0 | .add_userId _
    | .removeFile _ => ((), true)
  | .writeFile _ _ | .addLive _ _ | .removeLive _ => ((), ())
  | .getLiveList => ((), [])

theorem readable_sameFiles (path : String) (data : List UInt8) :
    Readable (sameFiles data) path data :=
  ⟨fun _ => rfl, fun _ _ => rfl⟩

theorem Carries.le_and_fits (hc : Carries (sendFile lib server path fileInfo) path fileInfo data) :
    data.length ≤ FILE_BUF_SIZE ∧ NetPacketGenerator.fits lib fileInfo = true := by
  have hfile := readable_sameFiles path data
  have hwhole := hc.whole (sameFiles data) () hfile
  rw [packetsOf_sendFile hfile.1] at hwhole
  by_cases h0 : UInt32.ofNat data.length = 0
  · rw [h0, sendSized, if_pos rfl, packetsOf_sendNoFile] at hwhole
    simp at hwhole
  · rw [packetsOf_sendSized hfile h0] at hwhole
    by_cases hroom : room lib (UInt32.ofNat data.length) fileInfo
        (data.take (UInt32.ofNat data.length).toNat)
    · rw [packetsOf_sendPacket hroom] at hwhole
      simp only [wholeFile, List.cons.injEq, Effect.sendFile.injEq,
        FileNetPacket.mk.injEq] at hwhole
      rw [hwhole.1.2.2.1] at hroom
      exact ⟨hroom.2.1, hroom.1⟩
    · rw [sendPacket, if_neg hroom] at hwhole
      simp at hwhole

/-! ### Descriptions -/

/-- The type of a file is one digit. -/
theorem length_code (filetype : FileType) : (Json.int filetype.code).text.length = 1 := by
  cases filetype <;> decide

/-- The description of a picture. -/
theorem length_PFileInfo (filetype : FileType) (id suffix : String) :
    (toJson_PFileInfo filetype id suffix).text.length =
      34 + (Json.dump_escaped id).length + (Json.dump_escaped suffix).length := by
  have hobj : toJson_PFileInfo filetype id suffix =
      .obj [("filetype", .int filetype.code), ("id", .str id), ("suffix", .str suffix)] := by
    simp [toJson_PFileInfo, Json.set, Json.assign]
  have hfiletype : (Json.dump_escaped "filetype").length = 8 := by decide
  have hid : (Json.dump_escaped "id").length = 2 := by decide
  have hsuffix : (Json.dump_escaped "suffix").length = 6 := by decide
  rw [hobj, Json.length_text_obj]
  simp only [List.map_cons, List.map_nil, List.sum_cons, List.sum_nil, List.length_cons,
    List.length_nil, Json.length_text_str, hfiletype, hid, hsuffix, length_code]
  omega

/-- The description of a video. -/
theorem length_VFileInfo (filetype : FileType) (videoId publisherId suffix : String) :
    (toJson_VFileInfo filetype videoId publisherId suffix).text.length =
      56 + (Json.dump_escaped videoId).length + (Json.dump_escaped publisherId).length +
        (Json.dump_escaped suffix).length := by
  have hobj : toJson_VFileInfo filetype videoId publisherId suffix =
      .obj [("filetype", .int filetype.code), ("videoId", .str videoId),
        ("publisherId", .str publisherId), ("suffix", .str suffix)] := by
    simp [toJson_VFileInfo, Json.set, Json.assign]
  have hfiletype : (Json.dump_escaped "filetype").length = 8 := by decide
  have hvideoId : (Json.dump_escaped "videoId").length = 7 := by decide
  have hpublisherId : (Json.dump_escaped "publisherId").length = 11 := by decide
  have hsuffix : (Json.dump_escaped "suffix").length = 6 := by decide
  rw [hobj, Json.length_text_obj]
  simp only [List.map_cons, List.map_nil, List.sum_cons, List.sum_nil, List.length_cons,
    List.length_nil, Json.length_text_str, hfiletype, hvideoId, hpublisherId, hsuffix, length_code]
  omega

theorem written_fileInfo (filetype : FileType) :
    Written (Json.null.set "filetype" (.int filetype.code)) := by
  refine written_null.set _ (written_int ?_ ?_) <;> (cases filetype <;> decide)

theorem written_PFileInfo (filetype : FileType) (id suffix : String) :
    Written (toJson_PFileInfo filetype id suffix) :=
  ((written_fileInfo filetype).set _ (written_str _)).set _ (written_str _)

theorem written_VFileInfo (filetype : FileType) (videoId publisherId suffix : String) :
    Written (toJson_VFileInfo filetype videoId publisherId suffix) :=
  (((written_fileInfo filetype).set _ (written_str _)).set _ (written_str _)).set _ (written_str _)

theorem fits_PFileInfo (hlib : lib.Writes) (filetype : FileType) (id suffix : String) :
    NetPacketGenerator.fits lib (toJson_PFileInfo filetype id suffix) = true ↔
      34 + (Json.dump_escaped id).length + (Json.dump_escaped suffix).length < BUF_SIZE := by
  rw [NetPacketGenerator.fits, decide_eq_true_eq,
    hlib.dump_eq (written_PFileInfo filetype id suffix), length_PFileInfo]

theorem fits_VFileInfo (hlib : lib.Writes) (filetype : FileType)
    (videoId publisherId suffix : String) :
    NetPacketGenerator.fits lib (toJson_VFileInfo filetype videoId publisherId suffix) = true ↔
      56 + (Json.dump_escaped videoId).length + (Json.dump_escaped publisherId).length +
        (Json.dump_escaped suffix).length < BUF_SIZE := by
  rw [NetPacketGenerator.fits, decide_eq_true_eq,
    hlib.dump_eq (written_VFileInfo filetype videoId publisherId suffix), length_VFileInfo]

/-! ### Which files are carried -/

theorem carries_sendFile_iff (hpos : 1 ≤ data.length) :
    Carries (sendFile lib server path fileInfo) path fileInfo data ↔
      data.length ≤ FILE_BUF_SIZE ∧ NetPacketGenerator.fits lib fileInfo = true :=
  ⟨Carries.le_and_fits, fun h => carries_of_le hpos h.1 h.2⟩

/-- **Which files a reply carries**: those the packet has room for, if it has room for the
description. -/
theorem carries_iff (lib : Nlohmann) (hlib : lib.Writes) (server : Server) (path : String)
    (data : List UInt8) (hpos : 1 ≤ data.length) :
    (∀ (filetype : FileType) (id suffix : String),
      Carries (send_pfile lib server filetype path id suffix) path
      (toJson_PFileInfo filetype id suffix) data ↔
        data.length ≤ FILE_BUF_SIZE ∧
          34 + (Json.dump_escaped id).length + (Json.dump_escaped suffix).length < BUF_SIZE) ∧
    (∀ (filetype : FileType) (videoId publisherId suffix : String),
      Carries (send_vfile lib server filetype path videoId publisherId suffix) path
          (toJson_VFileInfo filetype videoId publisherId suffix) data ↔
        data.length ≤ FILE_BUF_SIZE ∧ 56 + (Json.dump_escaped videoId).length +
          (Json.dump_escaped publisherId).length + (Json.dump_escaped suffix).length <
          BUF_SIZE) := by
  constructor
  · intro filetype id suffix
    rw [send_pfile, carries_sendFile_iff hpos, fits_PFileInfo hlib]
  · intro filetype videoId publisherId suffix
    rw [send_vfile, carries_sendFile_iff hpos, fits_VFileInfo hlib]

/-- The writer, with a parser that accepts nothing. -/
def writer : Nlohmann where
  parse := fun _ => none
  dump := Json.text

/-- A picture of three bytes. -/
theorem carries_iff_three :
    (∀ (filetype : FileType) (id suffix : String),
      Carries (send_pfile writer .epoll filetype "1.png" id suffix) "1.png"
          (toJson_PFileInfo filetype id suffix) [1, 2, 3] ↔
        3 ≤ FILE_BUF_SIZE ∧
        34 + (Json.dump_escaped id).length + (Json.dump_escaped suffix).length < BUF_SIZE) ∧
    (∀ (filetype : FileType) (videoId publisherId suffix : String),
      Carries (send_vfile writer .epoll filetype "1.png" videoId publisherId suffix) "1.png"
          (toJson_VFileInfo filetype videoId publisherId suffix) [1, 2, 3] ↔
        3 ≤ FILE_BUF_SIZE ∧ 56 + (Json.dump_escaped videoId).length +
          (Json.dump_escaped publisherId).length + (Json.dump_escaped suffix).length < BUF_SIZE) :=
  carries_iff writer (fun _ _ _ => rfl) .epoll "1.png" [1, 2, 3] (by decide)

/-- A file of 2^32 bytes is said to be missing. -/
theorem packetsOf_multiple (hlen : data.length = 2 ^ 32) :
    packetsOf (sameFiles data) () (sendFile lib server path fileInfo) = [.sendNoFile] := by
  have h0 : UInt32.ofNat data.length = 0 := by
    rw [hlen]
    rfl
  rw [packetsOf_sendFile (readable_sameFiles path data).1, h0, sendSized, if_pos rfl,
    packetsOf_sendNoFile]

/-- Of a video of 2^32 bytes the client is told that there is none, and for one of 2^30 + 1 bytes
there is no room. -/
theorem large_videos_lost :
    packetsOf (sameFiles (List.replicate (2 ^ 32) 0)) ()
        (send_vfile writer .epoll .Video "1.mp4" "1" "2" ".mp4") = [.sendNoFile] ∧
    ¬ Carries (send_vfile writer .epoll .Video "1.mp4" "1" "2" ".mp4") "1.mp4"
        (toJson_VFileInfo .Video "1" "2" ".mp4") (List.replicate (2 ^ 32) 0) ∧
    ¬ Carries (send_vfile writer .boost .Video "1.mp4" "1" "2" ".mp4") "1.mp4"
        (toJson_VFileInfo .Video "1" "2" ".mp4") (List.replicate (2 ^ 30 + 1) 0) := by
  have hlarge : ∀ n, ¬ n ≤ FILE_BUF_SIZE → ∀ server : Server,
      ¬ Carries (send_vfile writer server .Video "1.mp4" "1" "2" ".mp4") "1.mp4"
        (toJson_VFileInfo .Video "1" "2" ".mp4") (List.replicate n 0) := by
    intro n hn server hc
    have hle := hc.le_and_fits.1
    rw [List.length_replicate] at hle
    exact hn hle
  exact ⟨packetsOf_multiple List.length_replicate, hlarge _ (by decide) _, hlarge _ (by decide) _⟩

end PickUpLight.Replies
