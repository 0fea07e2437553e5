import PickUpLight.Replies.Answered
import PickUpLight.Requests.Containment
import PickUpLight.Requests.Refusals
import PickUpLight.Theory.Endings

/-!
# Requests whose handlers return

An exception leaves a handler of the Boost server where the text of a request has no end in its
buffer, or is no JSON, where a member is missing or is of another type, where there is no new id
because the clock has gone back, where a reply does not fit into its packet and where it cannot be
written. `Proper` says of a request that none of this is so, and `returns_dispatch_iff` that a
handler returns exactly then.
-/

namespace PickUpLight.Boost

open PickUpLight.Theory PickUpLight.Wire PickUpLight.Control PickUpLight.Replies
  PickUpLight.Requests Handler
open Program (Ends ends_bind ends_ofOption ends_ofOption_bind)

variable {σ : Type}

/-! ### Requests -/

/-- The surroundings of a handler: rows have their cells, ids are numbers of 64 bits, the connection
has its entry, and what is sent is delivered, or none of it is. -/
structure Attending (answer : σ → (e : Effect) → σ × e.Answer) (delivers : Bool) :
    Prop extends Tabular answer where
  /-- No row is empty. -/
  cells : ∀ s command rows, (answer s (.query_store command)).2 = some rows →
    ∀ row ∈ rows, row.cells ≠ []
  /-- Ids. -/
  ids : ∀ s n, (answer s .nextId).2 = some n → n < 2 ^ 64
  /-- The entry. -/
  listed : ∀ s, (answer s .set_0).2 = true ∧ ∀ userId, (answer s (.add_userId userId)).2 = true
  /-- Replies. -/
  delivery : ∀ s, (∀ p, (answer s (.send p)).2 = delivers) ∧
    (∀ p, (answer s (.sendFile p)).2 = delivers) ∧
    (answer s .sendNoFile).2 = delivers

/-- The members are strings. -/
def Texts (jsonMsg : Json) (keys : List String) : Prop :=
  ∀ key ∈ keys, ∃ value, jsonMsg.string key = some value

/-- The text is there, and is JSON. -/
def Reads (lib : Nlohmann) (text : Option (List UInt8)) (P : Json → Prop) : Prop :=
  ∃ buf jsonMsg, text = some buf ∧ lib.parse buf = some jsonMsg ∧ P jsonMsg

section Proper

variable (lib : Nlohmann) (answer : σ → (e : Effect) → σ × e.Answer) (delivers : Bool) (s : σ)
  (jsonMsg : Json)

/-- A file that is sent has the members of its type, and an id where it gets one; a video is
answered. -/
def ProperUpload : Prop :=
  ∃ j, jsonMsg.member "filetype" = some j ∧ ∀ filetype : FileType, j.eqCode filetype.code = true →
    ∃ r : SendFile, r.filetype = filetype ∧ r.Of jsonMsg ∧
      (r.isNew = true → (answer s .nextId).2 ≠ none) ∧
      (filetype = .Video → delivers = true)

/-- The reply about a file has room in its packet and is delivered; a file that cannot be opened has
none. -/
def Goes (path : String) (fileInfo : Json) : Prop :=
  let (t, size) := answer s (.stat path)
  let file_size := UInt32.ofNat (size.getD 0)
  if file_size = 0 then delivers = true
  else ∀ fileData, (answer t (.readFile path file_size.toNat)).2 = some fileData →
    SendFileControl.room lib file_size fileInfo fileData ∧ delivers = true

/-- A file that is asked for. -/
def ProperDownload : Prop :=
  ∃ j, jsonMsg.member "filetype" = some j ∧ ∀ filetype : FileType, j.eqCode filetype.code = true →
    ∃ r : GetFile, r.filetype = filetype ∧ r.Of jsonMsg ∧
      Goes lib answer delivers (r.after answer s) (r.dir ++ r.name (r.found answer s).1)
        (r.fileInfo (r.found answer s).1 (r.found answer s).2)

/-- Information that is asked for: where the query succeeds, the reply fits and is delivered. -/
def ProperQuestion : Prop :=
  ∃ code, jsonMsg.enum "infotype" = some code ∧ ∀ r₀ : GetInfo, code = r₀.infotype.code →
    ∃ r : GetInfo, r.infotype = r₀.infotype ∧ r.Of jsonMsg ∧
      (r.Succeeds answer s → r.lengthOf .boost answer s < BUF_SIZE ∧ delivers = true)

/-- The members of a change. -/
def ProperChange : InfoType → Prop
  | .Comment => (answer s .nextId).2 ≠ none ∧
    Texts jsonMsg ["replyCommentId", "publisherId", "videoId", "content"]
  | .Video => Texts jsonMsg ["videoId"]
  | .VideoLike | .CommentLike => Texts jsonMsg ["id", "userId"] ∧ jsonMsg.boolean "ifLike" ≠ none
  | .Follow => Texts jsonMsg ["userId", "followerId"] ∧ jsonMsg.boolean "ifFollow" ≠ none
  | .LiveList => ∃ userId ifStart, jsonMsg.string "userId" = some userId ∧
    jsonMsg.boolean "ifStart" = some ifStart ∧
      (ifStart = true → 63 + (Json.dump_escaped userId).length < BUF_SIZE ∧ delivers = true)
  | .NickName => Texts jsonMsg ["userId", "newNickName"]
  | .VideoProfile => Texts jsonMsg ["videoId", "newProfile"]
  | _ => True

/-- A message of a chat. -/
def ProperChat : Prop :=
  ∃ code, jsonMsg.enum "messagetype" = some code ∧
    (code = MessageType.Characters.code → Texts jsonMsg ["sendId", "receiveId", "content"]) ∧
    (code = MessageType.VideoPreviewImg.code → Texts jsonMsg ["sendId", "receiveId", "videoId"])

/-- **A proper request**: its text is there and is JSON, with the members of its kind, and what it
is to be answered fits and is delivered. -/
def Proper (call : Call) : Prop :=
  match Purpose.ofCode call.header.purpose with
  | none | some .Heart => True
  | some .Register | some .Login =>
    Reads lib (cString (buffer call.payload)) fun jsonMsg => Texts jsonMsg ["id", "pw"] ∧
      delivers = true
  | some .SendFile => Reads lib (cString (call.payload.take BUF_SIZE)) fun jsonMsg =>
    ProperUpload answer delivers s jsonMsg
  | some .GetFile => Reads lib (cString (buffer call.payload)) fun jsonMsg =>
    ProperDownload lib answer delivers s jsonMsg
  | some .GetInfo => Reads lib (cString (buffer call.payload)) fun jsonMsg =>
    ProperQuestion answer delivers s jsonMsg
  | some .ModifyInfo => Reads lib (cString (buffer call.payload)) fun jsonMsg =>
      ∃ code, jsonMsg.enum "infotype" = some code ∧
        ∀ infotype, InfoType.ofCode code = some infotype →
          ProperChange answer delivers s jsonMsg infotype
  | some .Chat => Reads lib (some (chatText call)) fun jsonMsg => ProperChat jsonMsg

end Proper

/-! ### Parts of handlers -/

section Parts

variable {answer : σ → (e : Effect) → σ × e.Answer} {lib : Nlohmann} {delivers : Bool} {s : σ}
  {jsonMsg : Json} {α : Type} {Q : σ → α → Prop}

theorem ends_perform_bind {e : Effect} {f : e.Answer → Handler α} :
    Ends answer Q s (perform e >>= f) ↔ Ends answer Q (answer s e).1 (f (answer s e).2) := Iff.rfl

theorem ends_query_bind {command : Command} {f : Option (List Row) → Handler α} :
    Ends answer Q s (query_store command >>= f) ↔
      Ends answer Q (answer s (.query_store command)).1 (f (answer s (.query_store command)).2) :=
  Iff.rfl

theorem ends_execute_bind {command : Command} {f : Bool → Handler α} :
    Ends answer Q s (query_execute command >>= f) ↔
      Ends answer Q (answer s (.query_execute command)).1
        (f (answer s (.query_execute command)).2) := Iff.rfl

theorem ends_str_bind {key : String} {f : String → Handler α} :
    Ends answer Q s (str jsonMsg key >>= f) ↔ ∃ value, jsonMsg.string key = some value ∧
      Ends answer Q s (f value) :=
  ends_ofOption_bind

theorem ends_flag_bind {key : String} {f : Bool → Handler α} :
    Ends answer Q s (ModifyInfoControl.flag jsonMsg key >>= f) ↔
      ∃ value, jsonMsg.boolean key = some value ∧ Ends answer Q s (f value) :=
  ends_ofOption_bind

theorem ends_nextId_bind {f : ℕ → Handler α} : Ends answer Q s (nextId >>= f) ↔
    ∃ n, (answer s .nextId).2 = some n ∧ Ends answer Q (answer s .nextId).1 (f n) :=
  ends_ofOption_bind

theorem ends_packet_bind {purpose : Purpose} {message : Json} {f : NetPacket → Handler α} :
    Ends answer Q s (NetPacketGenerator.packet lib purpose message >>= f) ↔
      NetPacketGenerator.fits lib message = true ∧ Ends answer Q s (f ⟨purpose, message⟩) := by
  rw [NetPacketGenerator.packet_bind]
  split <;> simp_all

theorem ends_sent_bind {ok : Bool} {f : Unit → Handler α} :
    Ends answer Q s (sent .boost ok >>= f) ↔ ok = true ∧ Ends answer Q s (f ()) := by
  cases ok <;> simp [sent]

theorem ends_send_bind (h : Attending answer delivers) {p : NetPacket} {f : Unit → Handler α} :
    Ends answer Q s (send .boost p >>= f) ↔ delivers = true ∧
      Ends answer Q (answer s (.send p)).1 (f ()) := by
  rw [← (h.delivery s).1 p]
  exact ends_sent_bind

theorem returns_send (h : Attending answer delivers) {p : NetPacket} :
    Ends answer (fun _ _ => True) s (send .boost p) ↔ delivers = true := by
  rw [← (h.delivery s).1 p]
  show Ends answer _ _ (sent .boost (answer s (.send p)).2) ↔ _
  cases (answer s (.send p)).2 <;> simp [sent]

/-- A cell of the first row, if there is one. -/
theorem ends_firstCell_zero (h : Attending answer delivers) {t : σ} {command : Command}
    {f : String → Handler α} (hf : ∀ text, Ends answer Q s (f text)) :
    Ends answer Q s (firstCell (answer t (.query_store command)).2 0 >>= f) := by
  cases hrows : (answer t (.query_store command)).2 with
  | none => exact hf ""
  | some rows =>
    cases rows with
    | nil => exact hf ""
    | cons row rows =>
      obtain ⟨c, cells, hcells⟩ :=
        List.exists_cons_of_ne_nil (h.cells t command _ hrows row List.mem_cons_self)
      have hcell : cell row 0 = Program.ret c := by rw [cell, hcells]; rfl
      rw [firstCell, hcell, Program.ret_bind]
      exact hf c

/-- What a program that ends ends with. -/
theorem exists_of_ends {p : Handler α} {P : α → σ → Prop}
    (hends : Ends answer (fun t a => P a t) s p) : ∃ a t, P a t := by
  obtain ⟨a, -, hP⟩ := Program.ends_iff_run.mp hends
  exact ⟨a, _, hP⟩

theorem texts_cons {key : String} {keys : List String} :
    Texts jsonMsg (key :: keys) ↔ (∃ value, jsonMsg.string key = some value) ∧ Texts jsonMsg keys :=
  List.forall_mem_cons

@[simp] theorem texts_nil : Texts jsonMsg [] := fun _ h => absurd h List.not_mem_nil

end Parts

/-! ### Handlers -/

section Handlers

variable {answer : σ → (e : Effect) → σ × e.Answer} {lib : Nlohmann} {delivers : Bool} {s : σ}
  {jsonMsg : Json} {buf fileData : List UInt8}

theorem returns_success (h : Attending answer delivers) (hlib : lib.Writes) (purpose : Purpose)
    (ok : Bool) :
    Ends answer (fun _ _ => True) s
      (NetPacketGenerator.packet lib purpose (NetPacketGenerator.success ok) >>= fun p =>
        send .boost p) ↔ delivers = true := by
  rw [ends_packet_bind, and_iff_right (fits_success hlib ok)]
  exact returns_send h

theorem account_iff {P : Prop} : (∃ a, InitControl.account lib buf = some a ∧ P) ↔
    ∃ jsonMsg, lib.parse buf = some jsonMsg ∧ Texts jsonMsg ["id", "pw"] ∧ P := by
  simp only [InitControl.account, Option.bind_eq_some_iff, Option.map_eq_some_iff, texts_cons,
    texts_nil, and_true]
  constructor
  · rintro ⟨a, ⟨jsonMsg, hparse, id, hid, pw, hpw, -⟩, hP⟩
    exact ⟨jsonMsg, hparse, ⟨⟨id, hid⟩, pw, hpw⟩, hP⟩
  · rintro ⟨jsonMsg, hparse, ⟨⟨id, hid⟩, pw, hpw⟩, hP⟩
    exact ⟨(id, pw), ⟨jsonMsg, hparse, id, hid, pw, hpw, rfl⟩, hP⟩

theorem returns_register (h : Attending answer delivers) (hlib : lib.Writes) :
    Ends answer (fun _ _ => True) s (InitControl.register lib .boost buf) ↔
      ∃ jsonMsg, lib.parse buf = some jsonMsg ∧ Texts jsonMsg ["id", "pw"] ∧ delivers = true := by
  have haccount :
      ∀ id pw, Ends answer (fun _ _ => delivers = true) s (InitControl.registerAccount id pw) ↔
        delivers = true := by
    intro id pw
    rw [InitControl.registerAccount, ends_query_bind]
    split <;> rfl
  rw [InitControl.register, ends_bind]
  simp only [NetPacketGenerator.register_P, returns_success h hlib, InitControl.do_register,
    ends_ofOption_bind, haccount]
  exact account_iff

theorem returns_login (h : Attending answer delivers) (hlib : lib.Writes) :
    Ends answer (fun _ _ => True) s (InitControl.login lib .boost buf) ↔
      ∃ jsonMsg, lib.parse buf = some jsonMsg ∧ Texts jsonMsg ["id", "pw"] ∧ delivers = true := by
  have haccount :
      ∀ id pw, Ends answer (fun _ _ => delivers = true) s (InitControl.loginAccount id pw) ↔
        delivers = true := by
    intro id pw
    rw [InitControl.loginAccount, ends_query_bind]
    split
    · rename_i row rows hrows
      obtain ⟨c, cells, hcells⟩ :=
        List.exists_cons_of_ne_nil (h.cells s _ _ hrows row List.mem_cons_self)
      have hcell : cell row 0 = Program.ret c := by rw [cell, hcells]; rfl
      rw [hcell, Program.ret_bind]
      split
      · show Ends answer _ _ (found (answer _ (.add_userId id)).2 >>= _) ↔ _
        rw [(h.listed _).2 id]
        rfl
      · rfl
    · rfl
  rw [InitControl.login, ends_bind]
  simp only [NetPacketGenerator.login_P, returns_success h hlib, InitControl.do_login,
    ends_ofOption_bind, haccount]
  exact account_iff

/-! ### Files that are sent -/

/-- The type of a file is one, or none of the four. -/
theorem isType_or (j : Json) : (∃ filetype : FileType, j.eqCode filetype.code = true) ∨
    ∀ filetype : FileType, j.eqCode filetype.code = false := by
  by_cases hj : ∃ filetype : FileType, j.eqCode filetype.code = true
  · exact .inl hj
  · exact .inr fun filetype => Bool.eq_false_iff.mpr fun heq => hj ⟨filetype, heq⟩

/-- A number is one type only. -/
theorem filetype_inj {j : Json} {filetype filetype' : FileType} (h : j.eqCode filetype.code = true)
    (h' : j.eqCode filetype'.code = true) : filetype = filetype' := by
  rw [Json.eqCode_eq h, decide_eq_true_eq] at h'
  exact FileType.code_inj.mp h'

/-- Every follower is pushed to. -/
theorem ends_push (h : Attending answer delivers) (videoId id : String) :
    Ends answer (fun _ _ => True) s (ReceiveFileControl.push videoId id) := by
  rw [ReceiveFileControl.push, ends_query_bind]
  cases hrows : (answer s (.query_store (.selectFollowers id))).2 with
  | none => trivial
  | some followers =>
    show Ends answer _ _ (ReceiveFileControl.pushTo videoId followers)
    have hcells := h.cells s _ followers hrows
    clear hrows
    generalize (answer s (.query_store (.selectFollowers id))).1 = t
    induction followers generalizing t with
    | nil => trivial
    | cons row followers ih =>
      obtain ⟨c, cells, hc⟩ := List.exists_cons_of_ne_nil (hcells row List.mem_cons_self)
      have hcell : cell row 0 = Program.ret c := by rw [cell, hc]; rfl
      rw [ReceiveFileControl.pushTo, Program.loop_cons, hcell]
      exact ih (fun row hrow => hcells row (List.mem_cons_of_mem _ hrow)) _

/-- Once there is a plan, nothing is in the way. -/
theorem ends_store (h : Attending answer delivers) {filetype : FileType}
    (htype : ∃ j, jsonMsg.member "filetype" = some j ∧ j.eqCode filetype.code = true)
    (hvideo : filetype = .Video → ∃ id, jsonMsg.string "id" = some id)
    (plan : ReceiveFileControl.Plan) :
    Ends answer (fun _ _ => True) s (store jsonMsg fileData plan) := by
  rw [store, ends_perform_bind, ends_execute_bind, ReceiveFileControl.isType_eq htype,
    Program.ret_bind]
  by_cases hfile : filetype = .Video
  · obtain ⟨id, hid⟩ := hvideo hfile
    rw [if_pos (decide_eq_true hfile), str_eq hid]
    exact ends_push h _ _
  · rw [if_neg (by simpa using hfile)]
    trivial

/-- What it takes for there to be a plan. -/
theorem ends_plan (h : Attending answer delivers) (hlib : lib.Writes) {filetype : FileType}
    (htype : ∃ j, jsonMsg.member "filetype" = some j ∧ j.eqCode filetype.code = true) :
    Ends answer (fun _ _ => True) s
      (ReceiveFileControl.plan lib .boost jsonMsg >>= store jsonMsg fileData) ↔
      ∃ r : SendFile, r.filetype = filetype ∧ r.Of jsonMsg ∧
      (r.isNew = true → (answer s .nextId).2 ≠ none) ∧
        (filetype = .Video → delivers = true) := by
  have hstore : ∀ t plan, (filetype = .Video → ∃ id, jsonMsg.string "id" = some id) →
      Ends answer (fun _ _ => True) t (store jsonMsg fileData plan) :=
        fun t plan hvideo => ends_store h htype hvideo plan
  simp only [ReceiveFileControl.plan, ReceiveFileControl.isType_eq htype, Program.ret_bind]
  cases filetype with
  | ProfilePicture =>
    show Ends answer _ s (ReceiveFileControl.planPicture .boost jsonMsg >>= _) ↔ _
    rw [ends_bind, ReceiveFileControl.planPicture]
    simp only [ends_str_bind, Program.pure_eq, Program.ends_ret]
    constructor
    · rintro ⟨id, hid, suffix, hsuffix, -⟩
      exact ⟨.picture id suffix, rfl, ⟨htype, hid, hsuffix⟩, by rintro ⟨⟩, by rintro ⟨⟩⟩
    · rintro ⟨r, hr, hof, -, -⟩
      cases r with
      | picture id suffix => exact ⟨id, hof.2.1, suffix, hof.2.2, hstore _ _ (by rintro ⟨⟩)⟩
      | _ => cases hr
  | ChatImg =>
    show Ends answer _ s (ReceiveFileControl.planChatImg jsonMsg >>= _) ↔ _
    rw [ends_bind, ReceiveFileControl.planChatImg]
    simp only [ends_nextId_bind, ends_str_bind, Program.pure_eq, Program.ends_ret]
    constructor
    · rintro ⟨n, hn, suffix, hsuffix, sendId, hsend, receiveId, hreceive, -⟩
      exact ⟨.chatImg suffix sendId receiveId, rfl, ⟨htype, hsuffix, hsend, hreceive⟩,
        fun _ => Option.ne_none_iff_exists'.mpr ⟨n, hn⟩, by rintro ⟨⟩⟩
    · rintro ⟨r, hr, hof, hnew, -⟩
      cases r with
      | chatImg suffix sendId receiveId =>
        obtain ⟨n, hn⟩ := Option.ne_none_iff_exists'.mp (hnew rfl)
        exact ⟨n, hn, suffix, hof.2.1, sendId, hof.2.2.1, receiveId, hof.2.2.2,
          hstore _ _ (by rintro ⟨⟩)⟩
      | _ => cases hr
  | VideoPreviewImg =>
    show Ends answer _ s (ReceiveFileControl.planPreview jsonMsg >>= _) ↔ _
    rw [ends_bind, ReceiveFileControl.planPreview]
    simp only [ends_str_bind, Program.pure_eq, Program.ends_ret]
    constructor
    · rintro ⟨id, hid, suffix, hsuffix, -⟩
      exact ⟨.preview id suffix, rfl, ⟨htype, hid, hsuffix⟩, by rintro ⟨⟩, by rintro ⟨⟩⟩
    · rintro ⟨r, hr, hof, -, -⟩
      cases r with
      | preview id suffix => exact ⟨id, hof.2.1, suffix, hof.2.2, hstore _ _ (by rintro ⟨⟩)⟩
      | _ => cases hr
  | Video =>
    show Ends answer _ s (ReceiveFileControl.planVideo lib .boost jsonMsg >>= _) ↔ _
    rw [ends_bind, ReceiveFileControl.planVideo]
    simp only [ends_nextId_bind, ends_str_bind,
      NetPacketGenerator.sendVideoId_P, ends_packet_bind, ends_send_bind h, Program.pure_eq,
        Program.ends_ret]
    constructor
    · rintro ⟨n, hn, suffix, hsuffix, id, hid, profile, hprofile, -, hdelivers, -⟩
      exact ⟨.video id suffix profile, rfl, ⟨htype, hsuffix, hid, hprofile⟩,
        fun _ => Option.ne_none_iff_exists'.mpr ⟨n, hn⟩, fun _ => hdelivers⟩
    · rintro ⟨r, hr, hof, hnew, hdelivers⟩
      cases r with
      | video id suffix profile =>
        obtain ⟨n, hn⟩ := Option.ne_none_iff_exists'.mp (hnew rfl)
        exact ⟨n, hn, suffix, hof.2.1, id, hof.2.2.1, profile, hof.2.2.2, fits_videoId hlib
          (h.ids s n hn), hdelivers trivial, hstore _ _ fun _ => ⟨id, hof.2.2.1⟩⟩
      | _ => cases hr

/-- **When a file is received.** -/
theorem returns_receive_file (h : Attending answer delivers) (hlib : lib.Writes) :
    Ends answer (fun _ _ => True) s (ReceiveFileControl.receive_file lib .boost buf fileData) ↔
      ∃ jsonMsg, lib.parse buf = some jsonMsg ∧ ProperUpload answer delivers s jsonMsg := by
  rw [ReceiveFileControl.receive_file, ends_ofOption_bind]
  refine exists_congr fun jsonMsg => and_congr_right fun hparse => ?_
  show Ends answer _ s (ReceiveFileControl.plan lib .boost jsonMsg >>= store jsonMsg fileData) ↔ _
  cases hmember : jsonMsg.member "filetype" with
  | none =>
    have hplan : ReceiveFileControl.plan lib .boost jsonMsg = Program.fail := by
      rw [ReceiveFileControl.plan, ReceiveFileControl.isType, hmember]
      rfl
    rw [hplan]
    refine ⟨fun hfail => hfail.elim, ?_⟩
    rintro ⟨j, hj, -⟩
    rw [hmember] at hj
    cases hj
  | some j =>
    simp only [ProperUpload, hmember, Option.some.injEq, exists_eq_left']
    rcases isType_or j with ⟨filetype, hcode⟩ | hnone
    · rw [ends_plan h hlib ⟨j, hmember, hcode⟩]
      refine ⟨fun hr filetype' hcode' => ?_, fun hall => hall filetype hcode⟩
      rw [← filetype_inj hcode hcode']
      exact hr
    · have hplan : ReceiveFileControl.plan lib .boost jsonMsg =
          Program.ret { filepath := "", command := .empty, videoId := "" } := by
        simp only [ReceiveFileControl.plan, ReceiveFileControl.isType, hmember, Option.map_some,
          Program.ofOption_some, Program.ret_bind, hnone]
        rfl
      rw [hplan, Program.ret_bind]
      refine iff_of_true ?_ fun filetype hcode => ?_
      · rw [store, ends_perform_bind, ends_execute_bind, ReceiveFileControl.isType, hmember,
          Option.map_some, Program.ofOption_some, Program.ret_bind, hnone]
        trivial
      · rw [hnone] at hcode
        cases hcode

/-! ### Files that are asked for -/

section Download

open SendFileControl

theorem returns_sendNoFile (h : Attending answer delivers) :
    Ends answer (fun _ _ => True) s (sendNoFile .boost) ↔ delivers = true := by
  rw [sendNoFile, ends_perform_bind, (h.delivery s).2.2, ends_sent_bind, Program.pure_eq,
    Program.ends_ret, and_true]

theorem returns_sendPacket (h : Attending answer delivers) {file_size : UInt32} {fileInfo : Json} :
    Ends answer (fun _ _ => True) s (sendPacket lib .boost file_size fileInfo fileData) ↔
      room lib file_size fileInfo fileData ∧ delivers = true := by
  unfold sendPacket
  split
  · rename_i hroom
    rw [ends_perform_bind, (h.delivery s).2.1, ends_sent_bind, Program.pure_eq, Program.ends_ret,
      and_true, and_iff_right hroom]
  · rename_i hroom
    exact iff_of_false id fun hno => hroom hno.1

theorem returns_sendFile (h : Attending answer delivers) {path : String} {fileInfo : Json} :
    Ends answer (fun _ _ => True) s (sendFile lib .boost path fileInfo) ↔
      Goes lib answer delivers s path fileInfo := by
  have hsize : Ends answer (fun _ _ => True) s (sendFile lib .boost path fileInfo) ↔
      Ends answer (fun _ _ => True) (answer s (.stat path)).1
        (sendSized lib .boost path fileInfo (UInt32.ofNat ((answer s (.stat path)).2.getD 0))) := by
    show Ends answer _ s (Program.call _ _) ↔ _
    rw [Program.ends_call]
    cases (answer s (.stat path)).2 <;> rfl
  rw [hsize]
  simp only [Goes, sendSized]
  split
  · exact returns_sendNoFile h
  · rw [ends_perform_bind]
    cases (answer (answer s (.stat path)).1 (.readFile path _)).2 with
    | none => exact iff_of_true trivial (by rintro _ ⟨⟩)
    | some fileData =>
      simp only [Option.some.injEq, forall_eq']
      exact returns_sendPacket h

/-- What it takes for the file of a request to be sent. -/
theorem returns_download (h : Attending answer delivers) {r : GetFile} (hr : r.Of jsonMsg) :
    Ends answer (fun _ _ => True) s (SendFileControl.answer lib .boost jsonMsg) ↔
      Goes lib answer delivers (r.after answer s) (r.dir ++ r.name (r.found answer s).1)
        (r.fileInfo (r.found answer s).1 (r.found answer s).2) := by
  rw [(comes_answer hr (finds_found h.toTabular)).ends_iff, ends_bind]
  exact returns_sendFile h

/-- A file that is sent has been asked for. -/
theorem download_of {filetype : FileType}
    (htype : ∃ j, jsonMsg.member "filetype" = some j ∧ j.eqCode filetype.code = true)
    (hends : Ends answer (fun _ _ => True) s (SendFileControl.answer lib .boost jsonMsg)) :
    ∃ r : GetFile, r.filetype = filetype ∧ r.Of jsonMsg := by
  simp only [SendFileControl.answer, ReceiveFileControl.isType_eq htype, Program.ret_bind] at hends
  cases filetype with
  | ProfilePicture =>
    change Ends answer _ s (sendPicture lib .boost jsonMsg >>= _) at hends
    rw [ends_bind, sendPicture, ends_str_bind] at hends
    obtain ⟨id, hid, -⟩ := hends
    exact ⟨.picture id, rfl, htype, hid⟩
  | ChatImg =>
    change Ends answer _ s (sendChatImg lib .boost jsonMsg >>= _) at hends
    rw [ends_bind, sendChatImg, ends_str_bind] at hends
    obtain ⟨imgName, himgName, hends⟩ := hends
    rw [ends_str_bind] at hends
    obtain ⟨id, hid, -⟩ := hends
    exact ⟨.chatImg id imgName, rfl, htype, hid, himgName⟩
  | VideoPreviewImg =>
    change Ends answer _ s (sendPreview lib .boost jsonMsg >>= _) at hends
    rw [ends_bind, sendPreview, ends_str_bind] at hends
    obtain ⟨videoId, hvideoId, hends⟩ := hends
    rw [ends_query_bind, ends_bind] at hends
    obtain ⟨suffix, t, hends⟩ := exists_of_ends hends
    rw [ends_str_bind] at hends
    obtain ⟨id, hid, -⟩ := hends
    exact ⟨.preview id videoId, rfl, htype, hid, hvideoId⟩
  | Video =>
    change Ends answer _ s (sendVideo lib .boost jsonMsg >>= _) at hends
    rw [ends_bind, sendVideo, ends_str_bind] at hends
    obtain ⟨id, hid, -⟩ := hends
    exact ⟨.video id, rfl, htype, hid⟩

/-- **When a file is sent.** -/
theorem returns_send_file (h : Attending answer delivers) :
    Ends answer (fun _ _ => True) s (send_file lib .boost buf) ↔
      ∃ jsonMsg, lib.parse buf = some jsonMsg ∧ ProperDownload lib answer delivers s jsonMsg := by
  rw [send_file, ends_ofOption_bind]
  refine exists_congr fun jsonMsg => and_congr_right fun hparse => ?_
  cases hmember : jsonMsg.member "filetype" with
  | none =>
    have hanswer : SendFileControl.answer lib .boost jsonMsg = Program.fail := by
      rw [SendFileControl.answer, ReceiveFileControl.isType, hmember]
      rfl
    rw [hanswer]
    refine ⟨fun hfail => hfail.elim, ?_⟩
    rintro ⟨j, hj, -⟩
    rw [hmember] at hj
    cases hj
  | some j =>
    simp only [ProperDownload, hmember, Option.some.injEq, exists_eq_left']
    rcases isType_or j with ⟨filetype, hcode⟩ | hnone
    · have htype : ∃ j, jsonMsg.member "filetype" = some j ∧ j.eqCode filetype.code = true :=
        ⟨j, hmember, hcode⟩
      constructor
      · intro hends filetype' hcode'
        obtain ⟨r, hr, hof⟩ := download_of htype hends
        exact ⟨r, hr.trans (filetype_inj hcode hcode'), hof, (returns_download h hof).mp hends⟩
      · intro hall
        obtain ⟨r, -, hof, hgoes⟩ := hall filetype hcode
        exact (returns_download h hof).mpr hgoes
    · have hanswer : SendFileControl.answer lib .boost jsonMsg = Program.ret () := by
        simp only [SendFileControl.answer, ReceiveFileControl.isType, hmember, Option.map_some,
          Program.ofOption_some, Program.ret_bind, hnone]
        rfl
      rw [hanswer]
      refine iff_of_true trivial fun filetype hcode => ?_
      rw [hnone] at hcode
      cases hcode

end Download

/-! ### Information -/

section Question

open SendInfoControl

/-- What it takes for a request for information to end. -/
theorem returns_question (h : Attending answer delivers) (hlib : lib.Writes) {r : GetInfo}
    (hr : r.Of jsonMsg) :
    Ends answer (fun _ _ => True) s (SendInfoControl.answer lib .boost jsonMsg r.infotype) ↔
      (r.Succeeds answer s → r.lengthOf .boost answer s < BUF_SIZE ∧ delivers = true) := by
  by_cases hsucceeds : r.Succeeds answer s
  · obtain ⟨message, hcomes, hlength, -⟩ := comes_reply lib .boost h.toTabular hr hsucceeds
    rw [hcomes.ends_iff fun t => (h.delivery t).1, fits_iff hlib hlength]
    simp [hsucceeds]
  · obtain ⟨command, columns, hquery, hnone⟩ := GetInfo.not_succeeds hsucceeds
    rw [(silent_answer hr hquery hnone).ends_iff]
    exact iff_of_true trivial fun hyes => absurd hyes hsucceeds

/-- A request that ends has its members. -/
theorem question_of {r₀ : GetInfo} (henum : jsonMsg.enum "infotype" = some r₀.infotype.code)
    (hends : Ends answer (fun _ _ => True) s
      (SendInfoControl.answer lib .boost jsonMsg r₀.infotype)) :
    ∃ r : GetInfo, r.infotype = r₀.infotype ∧ r.Of jsonMsg := by
  cases r₀ with
  | comments =>
    obtain ⟨videoId, hid, -⟩ := ends_str_bind.mp hends
    exact ⟨.comments videoId, rfl, henum, hid⟩
  | vodList =>
    obtain ⟨offset, hoffset, hends⟩ := ends_ofOption_bind.mp hends
    obtain ⟨num, hnum, -⟩ := ends_ofOption_bind.mp hends
    exact ⟨.vodList offset num, rfl, henum, hoffset, hnum⟩
  | videoLike =>
    obtain ⟨videoId, hvideoId, hends⟩ := ends_str_bind.mp hends
    obtain ⟨userId, huserId, -⟩ := ends_str_bind.mp hends
    exact ⟨.videoLike videoId userId, rfl, henum, hvideoId, huserId⟩
  | follow =>
    obtain ⟨userId, hid, -⟩ := ends_str_bind.mp hends
    exact ⟨.follow userId, rfl, henum, hid⟩
  | fans =>
    obtain ⟨userId, hid, -⟩ := ends_str_bind.mp hends
    exact ⟨.fans userId, rfl, henum, hid⟩
  | liveList => exact ⟨.liveList, rfl, henum, trivial⟩
  | nickName =>
    obtain ⟨userId, hid, -⟩ := ends_str_bind.mp hends
    exact ⟨.nickName userId, rfl, henum, hid⟩
  | userVideo =>
    obtain ⟨userId, hid, -⟩ := ends_str_bind.mp hends
    exact ⟨.userVideo userId, rfl, henum, hid⟩
  | userVideoLike =>
    obtain ⟨userId, hid, -⟩ := ends_str_bind.mp hends
    exact ⟨.userVideoLike userId, rfl, henum, hid⟩
  | messages =>
    obtain ⟨userId1, hid1, hends⟩ := ends_str_bind.mp hends
    obtain ⟨userId2, hid2, -⟩ := ends_str_bind.mp hends
    exact ⟨.messages userId1 userId2, rfl, henum, hid1, hid2⟩
  | videoPush =>
    obtain ⟨userId, hid, -⟩ := ends_str_bind.mp hends
    exact ⟨.videoPush userId, rfl, henum, hid⟩

/-- **When information is sent.** -/
theorem returns_send_info (h : Attending answer delivers) (hlib : lib.Writes) :
    Ends answer (fun _ _ => True) s (send_info lib .boost buf) ↔
      ∃ jsonMsg, lib.parse buf = some jsonMsg ∧ ProperQuestion answer delivers s jsonMsg := by
  rw [send_info, ends_ofOption_bind]
  refine exists_congr fun jsonMsg => and_congr_right fun hparse => ?_
  rw [ends_ofOption_bind, ProperQuestion]
  refine exists_congr fun code => and_congr_right fun henum => ?_
  cases hcode : InfoType.ofCode code with
  | none =>
    refine iff_of_true trivial ?_
    rintro r₀ rfl
    rw [InfoType.ofCode_code] at hcode
    cases hcode
  | some infotype =>
    obtain rfl := InfoType.ofCode_eq hcode
    by_cases hasked : ∃ r₀ : GetInfo, r₀.infotype = infotype
    · obtain ⟨r₀, rfl⟩ := hasked
      constructor
      · intro hends r₁ hr₁
        obtain ⟨r, hr, hof⟩ := question_of henum hends
        rw [← hr] at hends
        refine ⟨r, ?_, hof, (returns_question h hlib hof).mp hends⟩
        rw [hr, ← Option.some.injEq, ← InfoType.ofCode_code, hr₁, InfoType.ofCode_code]
      · intro hall
        obtain ⟨r, hr, hof, hreply⟩ := hall r₀ rfl
        show Ends answer _ s (SendInfoControl.answer lib .boost jsonMsg r₀.infotype)
        rw [← hr]
        exact (returns_question h hlib hof).mpr hreply
    · refine iff_of_true ?_ fun r₀ hr₀ => ?_
      · cases infotype with
        | CommentLike | Video | VideoProfile => trivial
        | Comment => exact absurd ⟨.comments "", rfl⟩ hasked
        | VideoLike => exact absurd ⟨.videoLike "" "", rfl⟩ hasked
        | Follow => exact absurd ⟨.follow "", rfl⟩ hasked
        | Fans => exact absurd ⟨.fans "", rfl⟩ hasked
        | VodList => exact absurd ⟨.vodList 0 0, rfl⟩ hasked
        | LiveList => exact absurd ⟨.liveList, rfl⟩ hasked
        | NickName => exact absurd ⟨.nickName "", rfl⟩ hasked
        | UserVideo => exact absurd ⟨.userVideo "", rfl⟩ hasked
        | UserVideoLike => exact absurd ⟨.userVideoLike "", rfl⟩ hasked
        | Message => exact absurd ⟨.messages "" "", rfl⟩ hasked
        | VideoPush => exact absurd ⟨.videoPush "", rfl⟩ hasked
      · rw [hr₀, InfoType.ofCode_code, Option.some.injEq] at hcode
        exact absurd ⟨r₀, hcode⟩ hasked

end Question

/-! ### Changes and chats -/

section Changes

open ModifyInfoControl

/-- A statement is the last thing a handler does. -/
theorem ends_execute {command : Command} :
    Ends answer (fun _ _ => True) s (query_execute command >>= fun _ => Program.ret ()) ↔ True :=
  Iff.rfl

theorem returns_relation {key key' flagKey : String} {enter takeBack : String → String → Command} :
    Ends answer (fun _ _ => True) s (modifyRelation jsonMsg key key' flagKey enter takeBack) ↔
      Texts jsonMsg [key, key'] ∧ jsonMsg.boolean flagKey ≠ none := by
  have hif : ∀ (ifEnter : Bool) (p q : Handler Unit),
      Ends answer (fun _ _ => True) s (if ifEnter = true then p else q) ↔
        if ifEnter = true then Ends answer (fun _ _ => True) s p
        else Ends answer (fun _ _ => True) s q := by
    intro ifEnter p q
    split <;> rfl
  simp only [modifyRelation, Program.pure_eq, ends_str_bind, ends_flag_bind, hif, ends_execute,
    ite_self, and_true, texts_cons, texts_nil, Option.ne_none_iff_exists', exists_and_right,
    and_assoc]

theorem returns_modifyComment : Ends answer (fun _ _ => True) s (modifyComment jsonMsg) ↔
    (answer s .nextId).2 ≠ none ∧
      Texts jsonMsg ["replyCommentId", "publisherId", "videoId", "content"] := by
  simp only [modifyComment, Program.pure_eq, ends_nextId_bind, ends_str_bind, ends_execute,
    and_true, texts_cons, texts_nil, Option.ne_none_iff_exists', exists_and_right]

theorem returns_removeVideo (h : Attending answer delivers) :
    Ends answer (fun _ _ => True) s (removeVideo jsonMsg) ↔ Texts jsonMsg ["videoId"] := by
  rw [removeVideo, ends_str_bind, texts_cons]
  simp only [texts_nil, and_true]
  refine exists_congr fun videoId => and_iff_left ?_
  rw [ends_query_bind]
  exact ends_firstCell_zero h fun suffix => trivial

theorem returns_modifyLive (h : Attending answer delivers) (hlib : lib.Writes) :
    Ends answer (fun _ _ => True) s (modifyLive lib .boost jsonMsg) ↔
      ∃ userId ifStart, jsonMsg.string "userId" = some userId ∧
        jsonMsg.boolean "ifStart" = some ifStart ∧
          (ifStart = true →
            63 + (Json.dump_escaped userId).length < BUF_SIZE ∧ delivers = true) := by
  rw [modifyLive, ends_str_bind]
  refine exists_congr fun userId => ?_
  rw [exists_and_left, ends_flag_bind]
  refine and_congr_right fun huserId => exists_congr fun ifStart => and_congr_right fun hstart => ?_
  split
  · rename_i hif
    show Ends answer _ _
      (NetPacketGenerator.packet lib .ModifyInfo (liveReply userId) >>= fun p => send .boost p) ↔ _
    rw [ends_packet_bind, fits_liveReply hlib, returns_send h]
    simp [hif]
  · rename_i hif
    exact iff_of_true trivial fun hyes => absurd hyes hif

theorem returns_modifyNickName : Ends answer (fun _ _ => True) s (modifyNickName jsonMsg) ↔
    Texts jsonMsg ["userId", "newNickName"] := by
  simp only [modifyNickName, Program.pure_eq, ends_str_bind, ends_execute, and_true, texts_cons,
    texts_nil, exists_and_right]

theorem returns_modifyProfile : Ends answer (fun _ _ => True) s (modifyProfile jsonMsg) ↔
    Texts jsonMsg ["videoId", "newProfile"] := by
  simp only [modifyProfile, Program.pure_eq, ends_str_bind, ends_execute, and_true, texts_cons,
    texts_nil, exists_and_right]

/-- **When a change ends.** -/
theorem returns_modify (h : Attending answer delivers) (hlib : lib.Writes) (infotype : InfoType) :
    Ends answer (fun _ _ => True) s (modify lib .boost jsonMsg infotype) ↔
      ProperChange answer delivers s jsonMsg infotype := by
  cases infotype with
  | Comment => exact returns_modifyComment
  | Video => exact returns_removeVideo h
  | VideoLike => exact returns_relation
  | CommentLike => exact returns_relation
  | Follow => exact returns_relation
  | LiveList => exact returns_modifyLive h hlib
  | NickName => exact returns_modifyNickName
  | VideoProfile => exact returns_modifyProfile
  | _ => exact Iff.rfl

theorem returns_modify_info (h : Attending answer delivers) (hlib : lib.Writes) :
    Ends answer (fun _ _ => True) s (modify_info lib .boost buf) ↔
      ∃ jsonMsg, lib.parse buf = some jsonMsg ∧ ∃ code, jsonMsg.enum "infotype" = some code ∧
        ∀ infotype, InfoType.ofCode code = some infotype →
          ProperChange answer delivers s jsonMsg infotype := by
  rw [modify_info, ends_ofOption_bind]
  refine exists_congr fun jsonMsg => and_congr_right fun hparse => ?_
  rw [ends_ofOption_bind]
  refine exists_congr fun code => and_congr_right fun henum => ?_
  cases InfoType.ofCode code with
  | none => exact iff_of_true trivial (by rintro _ ⟨⟩)
  | some infotype =>
    simp only [Option.some.injEq, forall_eq']
    exact returns_modify h hlib infotype

theorem returns_insertChat {messagetype : MessageType} {key : String} :
    Ends answer (fun _ _ => True) s (insertChat jsonMsg messagetype key) ↔
      Texts jsonMsg ["sendId", "receiveId", key] := by
  simp only [insertChat, Program.pure_eq, ends_str_bind, ends_execute, and_true, texts_cons,
    texts_nil, exists_and_right]

/-- **When a message of a chat is received.** -/
theorem returns_chat : Ends answer (fun _ _ => True) s (chat lib buf) ↔
    ∃ jsonMsg, lib.parse buf = some jsonMsg ∧ ProperChat jsonMsg := by
  rw [chat, ends_ofOption_bind]
  refine exists_congr fun jsonMsg => and_congr_right fun hparse => ?_
  rw [ends_ofOption_bind, ProperChat]
  refine exists_congr fun code => and_congr_right fun henum => ?_
  split
  · rename_i hcode
    have hne : code ≠ MessageType.VideoPreviewImg.code := by rw [hcode]; decide
    rw [returns_insertChat]
    exact ⟨fun htexts => ⟨fun _ => htexts, fun hother => absurd hother hne⟩,
      fun hall => hall.1 hcode⟩
  · rename_i hne
    split
    · rename_i hcode
      rw [returns_insertChat]
      exact ⟨fun htexts => ⟨fun hother => absurd hother hne, fun _ => htexts⟩,
        fun hall => hall.2 hcode⟩
    · rename_i hne'
      exact iff_of_true trivial ⟨fun hother => absurd hother hne, fun hother => absurd hother hne'⟩

end Changes

/-- **A handler returns exactly if its request is proper.** -/
theorem returns_dispatch_iff (h : Attending answer delivers) (hlib : lib.Writes) (call : Call) :
    Ends answer (fun _ _ => True) s (dispatch lib .boost call) ↔
      Proper lib answer delivers s call := by
  have hread : ∀ (text : Option (List UInt8)) (f : List UInt8 → Handler Unit) (P : Json → Prop),
      (∀ buf, Ends answer (fun _ _ => True) s (f buf) ↔ ∃ jsonMsg, lib.parse buf = some jsonMsg ∧
        P jsonMsg) →
        (Ends answer (fun _ _ => True) s (Program.ofOption text >>= f) ↔ Reads lib text P) := by
    intro text f P hf
    simp only [Reads, ends_ofOption_bind, hf, exists_and_left]
  unfold dispatch Proper
  generalize Purpose.ofCode call.header.purpose = purpose
  cases purpose with
  | none => exact iff_of_true trivial trivial
  | some purpose =>
    cases purpose with
    | Heart =>
      refine iff_of_true ?_ trivial
      show Ends answer _ _ (found (answer s .set_0).2)
      rw [(h.listed s).1]
      trivial
    | Register => exact hread _ _ _ fun buf => returns_register h hlib
    | Login => exact hread _ _ _ fun buf => returns_login h hlib
    | SendFile => exact hread _ _ _ fun buf => returns_receive_file h hlib
    | GetFile => exact hread _ _ _ fun buf => returns_send_file h
    | GetInfo => exact hread _ _ _ fun buf => returns_send_info h hlib
    | ModifyInfo => exact hread _ _ _ fun buf => returns_modify_info h hlib
    | Chat =>
      simp only [Reads, Option.some.injEq, exists_and_left, exists_eq_left']
      exact returns_chat

end Handlers

end PickUpLight.Boost
