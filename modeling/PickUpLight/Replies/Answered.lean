import PickUpLight.Replies.Sizes

/-!
# Requests that are answered

A client waits for a reply of its own kind to every request for information or for a file. It gets
one unless something fails: when the query of a request for information fails, or a file that is
there cannot be opened, the server says so on its own screen only. A failed query for a suffix and a
file that is not there are no such failures: these are answered (`answered_iff`).
-/

namespace PickUpLight.Replies

open PickUpLight.Theory PickUpLight.Wire PickUpLight.Control Handler SendInfoControl SendFileControl

variable {σ : Type}

/-- The purpose in the header of what is sent. -/
def purposeOf : Effect → Option Purpose
  | .send p => some p.purpose
  | .sendFile _ | .sendNoFile => some .GetFile
  | _ => none

/-- **The answers of the database are tables**: rows have the columns of their queries, and counts
are numbers of an `int`. -/
structure Tabular (answer : σ → (e : Effect) → σ × e.Answer) : Prop where
  info : ∀ s (r : GetInfo) command columns rows, r.query = some (command, columns) →
    (answer s (.query_store command)).2 = some rows → ∀ row ∈ rows, row.cells.length = columns
  counted : ∀ s videoId userId rows, (answer s (.query_store (.countVideoLikes videoId userId))).2 =
    some rows →
    ∀ row ∈ rows, ∀ cell ∈ row.cells, IsCount cell
  published : Published answer
  file : ∀ s (r : GetFile) command columns rows, r.query = some (command, columns) →
    (answer s (.query_store command)).2 = some rows → ∀ row ∈ rows, row.cells.length = columns

namespace GetInfo

/-- **Exactly one reply of the request's own kind** is sent. -/
def Answered (r : GetInfo) (sent : List Effect) : Prop :=
  ∃ p, sent = [.send p] ∧ p.purpose = .GetInfo ∧ p.message.enum "infotype" = some r.infotype.code

/-- The query of the request succeeds. -/
def Succeeds (answer : σ → (e : Effect) → σ × e.Answer) (s : σ) (r : GetInfo) : Prop :=
  ∀ command columns, r.query = some (command, columns) → (answer s (.query_store command)).2 ≠ none

theorem not_succeeds {answer : σ → (e : Effect) → σ × e.Answer} {s : σ} {r : GetInfo}
    (h : ¬ r.Succeeds answer s) :
    ∃ command columns, r.query = some (command, columns) ∧
      (answer s (.query_store command)).2 = none := by
  simpa only [Succeeds, not_forall, exists_prop, not_not, ne_eq] using h

/-- The length of the reply, from what the database answers. -/
def lengthOf (server : Server) (answer : σ → (e : Effect) → σ × e.Answer) (s : σ) (r : GetInfo) :
    ℕ :=
  match r with
  | videoPush userId =>
    let (t, found) := answer s (.query_store (.selectVideoPush userId))
    infoLength .VideoPush "videos"
      (listLength
      ((pushesOf none (lookups answer t (found.getD []))).map fun push => pushLength push.1 push.2))
  | r => r.replyLength server
      { rows := fun command => (answer s (.query_store command)).2
        lives := (answer s .getLiveList).2 }

end GetInfo

namespace GetFile

/-- **Exactly one reply of the request's own kind** is sent. -/
def Answered (sent : List Effect) : Prop := ∃ e, sent = [e] ∧ purposeOf e = some .GetFile

/-- The suffix of the file and its publisher, as the database has them; empty where it has none. -/
def found (answer : σ → (e : Effect) → σ × e.Answer) (s : σ) (r : GetFile) : String × String :=
  match r.query with
  | some (command, _) =>
    match (answer s (.query_store command)).2 with
    | some (row :: _) => (cellOf row 0, cellOf row 1)
    | _ => ("", "")
  | none => ("", "")

end GetFile

/-- A file that is there can be opened, and the packet has room for it. -/
def Sendable (lib : Nlohmann) (answer : σ → (e : Effect) → σ × e.Answer) (s : σ) (path : String)
    (fileInfo : Json) :
    Prop :=
  let (t, size) := answer s (.stat path)
  let file_size := UInt32.ofNat (size.getD 0)
  file_size = 0 ∨
    ∃ data, (answer t (.readFile path file_size.toNat)).2 = some data ∧
      room lib file_size fileInfo data

section Info

variable {answer : σ → (e : Effect) → σ × e.Answer} {lib : Nlohmann} {server : Server}
  {buf : List UInt8}
  {jsonMsg : Json} {r : GetInfo} {s : σ}

theorem enum_info (infotype : InfoType) {key : String} (value : Json) (hkey : key ≠ "infotype") :
    (NetPacketGenerator.info infotype key value).enum "infotype" = some infotype.code := by
  have hcode : Json.wrap infotype.code = infotype.code := by cases infotype <;> decide
  simp [NetPacketGenerator.info, Json.set, Json.assign, hkey.symm, Json.enum, Json.member,
    Json.toEnum, hcode]

theorem enum_infoOf (infotype : InfoType) {key : String} (userId : String) (value : Json)
    (hkey : key ≠ "infotype" ∧ key ≠ "userId") :
    (NetPacketGenerator.infoOf infotype userId key value).enum "infotype" = some infotype.code := by
  have hcode : Json.wrap infotype.code = infotype.code := by cases infotype <;> decide
  simp [NetPacketGenerator.infoOf, Json.set, Json.assign, hkey.1.symm, hkey.2.symm, Json.enum,
    Json.member, Json.toEnum, hcode]

/-- A reply says what it is about. -/
theorem enum_message (server : Server) (c : Content) (r : GetInfo) :
    (r.message server c).enum "infotype" = some r.infotype.code := by
  cases r with
  | userVideo userId | userVideoLike userId => exact enum_infoOf _ userId _ (by decide)
  | _ => exact enum_info _ _ (by decide)

/-- A query that fails, where that is the end of it. -/
theorem comes_failed {command : Command} {f : Option (List Row) → Handler Unit}
    (hnone : (answer s (.query_store command)).2 = none) (hf : f none = Program.ret ()) :
    Program.Comes answer (fun e => isPacket e = false) s (query_store command >>= f)
      (answer s (.query_store command)).1
      (Program.ret ()) := by
  refine .call rfl ?_
  show Program.Comes answer _ _ (f (answer s (.query_store command)).2) _ _
  rw [hnone, hf]
  exact .refl _ _

/-- **A request whose query fails is not answered**: its handler ends. -/
theorem silent_answer (hr : r.Of jsonMsg) {command : Command} {columns : ℕ}
    (hquery : r.query = some (command, columns))
    (hnone : (answer s (.query_store command)).2 = none) :
    Program.Comes answer (fun e => isPacket e = false) s
      (SendInfoControl.answer lib server jsonMsg r.infotype)
      (answer s (.query_store command)).1 (Program.ret ()) := by
  have hmembers := hr.2
  cases r with
  | comments videoId =>
    cases hquery
    show Program.Comes answer _ s (str jsonMsg "id" >>= _) _ _
    rw [str_eq hmembers, Program.ret_bind]
    exact comes_failed hnone rfl
  | vodList offset num =>
    cases hquery
    show Program.Comes answer _ s (Program.ofOption (jsonMsg.integer "offset") >>= _) _ _
    rw [hmembers.1, Program.ofOption_some, Program.ret_bind, hmembers.2, Program.ofOption_some,
      Program.ret_bind]
    exact comes_failed hnone rfl
  | videoLike videoId userId =>
    cases hquery
    show Program.Comes answer _ s (str jsonMsg "id" >>= _) _ _
    rw [str_eq hmembers.1, Program.ret_bind, str_eq hmembers.2, Program.ret_bind]
    exact comes_failed hnone rfl
  | liveList => cases hquery
  | messages userId1 userId2 =>
    cases hquery
    show Program.Comes answer _ s (str jsonMsg "userId1" >>= _) _ _
    rw [str_eq hmembers.1, Program.ret_bind, str_eq hmembers.2, Program.ret_bind]
    exact comes_failed hnone rfl
  | follow userId | fans userId | nickName userId | userVideo userId | userVideoLike userId
    | videoPush userId =>
    cases hquery
    show Program.Comes answer _ s (str jsonMsg "userId" >>= _) _ _
    rw [str_eq hmembers, Program.ret_bind]
    exact comes_failed hnone rfl

/-- **What a request comes to whose query succeeds**: one reply of its own kind. -/
theorem comes_reply (lib : Nlohmann) (server : Server) (htab : Tabular answer) (hr : r.Of jsonMsg)
    (hsucceeds : r.Succeeds answer s) :
    ∃ message, ComesToReply answer lib server message s
      (SendInfoControl.answer lib server jsonMsg r.infotype) ∧
      HasLength message (r.lengthOf server answer s) ∧
      message.enum "infotype" = some r.infotype.code := by
  by_cases hpush : ∀ userId, r ≠ .videoPush userId
  · let c : Content :=
      { rows := fun command => (answer s (.query_store command)).2
        lives := (answer s .getLiveList).2 }
    have hallowed : c.Allowed r := by
      refine ⟨fun command columns hquery => ?_, htab.counted s, htab.published s⟩
      obtain ⟨rows, hrows⟩ := Option.ne_none_iff_exists'.mp (hsucceeds command columns hquery)
      exact ⟨rows, hrows, htab.info s r command columns rows hquery hrows⟩
    have hlength : r.lengthOf server answer s = r.replyLength server c := by
      cases r with
      | videoPush userId => exact absurd rfl (hpush userId)
      | _ => rfl
    refine ⟨r.message server c, comes_once ⟨fun _ => rfl, rfl⟩ hallowed hr hpush, ?_,
      enum_message server c r⟩
    rw [hlength]
    exact hasLength_message server hallowed
  · obtain ⟨userId, hpush⟩ := not_forall.mp hpush
    obtain rfl : r = .videoPush userId := not_not.mp hpush
    obtain ⟨rows, hrows⟩ := Option.ne_none_iff_exists'.mp (hsucceeds _ _ rfl)
    have hcomes : ComesToReply answer lib server _ s (sendVideoPush lib server userId) :=
      comes_videoPush htab.published hrows (htab.info s (.videoPush userId) _ _ rows rfl hrows)
    refine ⟨pushMessage
      (pushesOf none (lookups answer (answer s (.query_store (.selectVideoPush userId))).1 rows)),
      ?_, ?_, enum_info _ _ (by decide)⟩
    · show ComesToReply answer lib server _ s (str jsonMsg "userId" >>= _)
      rw [str_eq hr.2, Program.ret_bind]
      exact hcomes
    · have hlength : (GetInfo.videoPush userId).lengthOf server answer s =
        infoLength .VideoPush "videos"
          (listLength
          ((pushesOf none (lookups answer (answer s (.query_store (.selectVideoPush userId))).1
            ((answer s (.query_store (.selectVideoPush userId))).2.getD []))).map
              fun push => pushLength push.1 push.2)) := rfl
      rw [hlength, hrows]
      exact hasLength_pushMessage _

/-- **When a request for information is answered**: when its query succeeds and the reply fits. -/
theorem answered_info_iff (hlib : lib.Writes) (htab : Tabular answer)
    (hparse : lib.parse buf = some jsonMsg)
    (hr : r.Of jsonMsg) : r.Answered (packetsOf answer s (send_info lib server buf)) ↔
      r.Succeeds answer s ∧ r.lengthOf server answer s < BUF_SIZE := by
  have hcode : InfoType.ofCode r.infotype.code = some r.infotype := by cases r <;> rfl
  have hsend : send_info lib server buf = SendInfoControl.answer lib server jsonMsg r.infotype := by
    rw [send_info, hparse, Program.ofOption_some, Program.ret_bind, hr.1, Program.ofOption_some,
      Program.ret_bind]
    simp only [hcode]
  rw [hsend]
  by_cases hsucceeds : r.Succeeds answer s
  · obtain ⟨message, hcomes, hlength, henum⟩ := comes_reply lib server htab hr hsucceeds
    have hsends := hcomes.sends
    rw [← fits_iff hlib hlength]
    rw [Sends] at hsends
    constructor
    · rintro ⟨p, hp, -⟩
      refine ⟨hsucceeds, ?_⟩
      by_contra hno
      rw [if_neg hno, hp] at hsends
      cases hsends
    · rintro ⟨-, hyes⟩
      rw [if_pos hyes] at hsends
      exact ⟨_, hsends, rfl, henum⟩
  · refine ⟨?_, fun h => absurd h.1 hsucceeds⟩
    rintro ⟨p, hp, -⟩
    obtain ⟨command, columns, hquery, hnone⟩ := GetInfo.not_succeeds hsucceeds
    rw [packetsOf_comes (fun _ => id) (silent_answer hr hquery hnone)] at hp
    cases hp

end Info

section File

variable {answer : σ → (e : Effect) → σ × e.Answer} {lib : Nlohmann} {server : Server}
  {buf : List UInt8}
  {jsonMsg : Json} {r : GetFile} {s : σ}

theorem finds_found (htab : Tabular answer) :
    r.Finds answer s (r.found answer s).1 (r.found answer s).2 := by
  intro command columns hquery
  rw [GetFile.found, hquery]
  simp only
  have hcolumns : columns ≤ 2 := by
    cases r with
    | chatImg id imgName => cases hquery
    | _ =>
      cases hquery
      decide
  rcases hrows : (answer s (.query_store command)).2 with _ | _ | ⟨row, rows⟩
  · intro cell hcell
    simpa using List.mem_of_mem_take hcell
  · intro cell hcell
    simpa using List.mem_of_mem_take hcell
  · have hlength := htab.file s r command columns (row :: rows) hquery hrows row List.mem_cons_self
    obtain ⟨number, cells⟩ := row
    rcases cells with _ | ⟨a, _ | ⟨b, _ | ⟨c, cells⟩⟩⟩
    · obtain rfl : columns = 0 := hlength.symm
      exact List.nil_prefix
    · obtain rfl : columns = 1 := hlength.symm
      exact List.prefix_rfl
    · obtain rfl : columns = 2 := hlength.symm
      exact List.prefix_rfl
    · simp only [List.length_cons] at hlength
      omega

/-- The size is asked for first. -/
theorem packetsOf_stat (path : String) (fileInfo : Json) (t : σ) :
    packetsOf answer t (sendFile lib server path fileInfo) =
      packetsOf answer (answer t (.stat path)).1
      (sendSized lib server path fileInfo (UInt32.ofNat ((answer t (.stat path)).2.getD 0))) := by
  show packetsOf answer t (Program.call _ _) = _
  rw [packetsOf_call]
  cases (answer t (.stat path)).2 <;> rfl

/-- **When a file is answered for**: when there is none, or it can be opened and there is room for
it. -/
theorem answered_sendFile_iff {path : String} {fileInfo : Json} {t : σ} :
    GetFile.Answered (packetsOf answer t (sendFile lib server path fileInfo)) ↔
      Sendable lib answer t path fileInfo := by
  rw [packetsOf_stat]
  simp only [Sendable]
  generalize UInt32.ofNat ((answer t (.stat path)).2.getD 0) = file_size
  generalize (answer t (.stat path)).1 = u
  by_cases h0 : file_size = 0
  · rw [sendSized, if_pos h0, packetsOf_sendNoFile]
    exact ⟨fun _ => .inl h0, fun _ => ⟨_, rfl, rfl⟩⟩
  · rw [sendSized, if_neg h0, or_iff_right h0]
    have hread : ∀ next : Option (List UInt8) → Handler Bool,
        packetsOf answer u (perform (.readFile path file_size.toNat) >>= next) =
          packetsOf answer (answer u (.readFile path file_size.toNat)).1
            (next (answer u (.readFile path file_size.toNat)).2) := by
      intro next
      show packetsOf answer u (Program.call _ _) = _
      rw [packetsOf_call]
      rfl
    rw [hread]
    cases (answer u (.readFile path file_size.toNat)).2 with
    | none =>
      constructor
      · rintro ⟨e, he, -⟩
        cases he
      · rintro ⟨data, hdata, -⟩
        cases hdata
    | some data =>
      simp only [Option.some.injEq, exists_eq_left']
      by_cases hroom : room lib file_size fileInfo data
      · rw [packetsOf_sendPacket hroom]
        exact ⟨fun _ => hroom, fun _ => ⟨_, rfl, rfl⟩⟩
      · rw [sendPacket, if_neg hroom]
        refine ⟨?_, fun h => absurd h hroom⟩
        rintro ⟨e, he, -⟩
        cases he

theorem answered_file_iff (htab : Tabular answer) (hparse : lib.parse buf = some jsonMsg)
    (hr : r.Of jsonMsg) :
    GetFile.Answered (packetsOf answer s (send_file lib server buf)) ↔
      Sendable lib answer (r.after answer s) (r.dir ++ r.name (r.found answer s).1)
        (r.fileInfo (r.found answer s).1 (r.found answer s).2) := by
  rw [send_file, hparse, Program.ofOption_some, Program.ret_bind, packetsOf_answer hr
    (finds_found htab), answered_sendFile_iff]

end File

/-- **Which requests are answered** with exactly one reply of their own kind: a request for
information when its query succeeds and the reply fits, and a request for a file when there is none,
or it can be opened and there is room for it. -/
theorem answered_iff (lib : Nlohmann) (server : Server) (answer : σ → (e : Effect) → σ × e.Answer)
    (s : σ) (buf : List UInt8) (jsonMsg : Json) (hlib : lib.Writes) (htab : Tabular answer)
    (hparse : lib.parse buf = some jsonMsg) :
    (∀ r : GetInfo, r.Of jsonMsg → (r.Answered (packetsOf answer s (send_info lib server buf)) ↔
      r.Succeeds answer s ∧ r.lengthOf server answer s < BUF_SIZE)) ∧
    (∀ r : GetFile, r.Of jsonMsg →
      (GetFile.Answered (packetsOf answer s (send_file lib server buf)) ↔
      Sendable lib answer (r.after answer s) (r.dir ++ r.name (r.found answer s).1)
        (r.fileInfo (r.found answer s).1 (r.found answer s).2))) :=
  ⟨fun _ hr => answered_info_iff hlib htab hparse hr, fun _ hr => answered_file_iff htab hparse hr⟩

/-! ### Requests that are not answered -/

/-- Surroundings in which all queries fail, and files of one byte cannot be opened. -/
def failing (_ : Unit) : (e : Effect) → Unit × e.Answer
  | .stat _ => ((), some 1)
  | .readFile _ _ => ((), none)
  | e => sameFiles [] () e

/-- A parser that knows the two requests. -/
def knowingRequests : Nlohmann := knowing [commentsRequest, pictureRequest]

theorem parse_requests : knowingRequests.parse commentsRequest.text = some commentsRequest ∧
    knowingRequests.parse pictureRequest.text = some pictureRequest := by
  have hne : commentsRequest.text ≠ pictureRequest.text := by decide
  exact parse_knowing hne

theorem pictureRequest_of : (GetFile.picture "1").Of pictureRequest := ⟨⟨_, rfl, rfl⟩, rfl⟩

/-- **A request for comments is not answered when the query fails**, nor one for a picture when it
cannot be opened. -/
theorem not_answered : (GetInfo.comments "1").Of commentsRequest ∧
      (GetFile.picture "1").Of pictureRequest ∧
    packetsOf failing () (send_info knowingRequests .boost commentsRequest.text) = [] ∧
    packetsOf failing () (send_file knowingRequests .boost pictureRequest.text) = [] ∧
    ¬ (GetInfo.comments "1").Answered
      (packetsOf failing () (send_info knowingRequests .boost commentsRequest.text)) ∧
      ¬ GetFile.Answered
      (packetsOf failing () (send_file knowingRequests .boost pictureRequest.text)) := by
  have hinfo : packetsOf failing () (send_info knowingRequests .boost commentsRequest.text) =
      [] := by
    rw [send_info, parse_requests.1]
    rfl
  have hfile : packetsOf failing () (send_file knowingRequests .boost pictureRequest.text) =
      [] := by
    rw [send_file, parse_requests.2]
    rfl
  refine ⟨commentsRequest_of, pictureRequest_of, hinfo, hfile, ?_, ?_⟩
  · rintro ⟨p, hp, -⟩
    rw [hinfo] at hp
    cases hp
  · rintro ⟨e, he, -⟩
    rw [hfile] at he
    cases he

/-- When all queries fail, a request for comments is not answered, and one for a picture is. -/
theorem answered_iff_failed :
    ¬ (GetInfo.comments "1").Answered
      (packetsOf (sameFiles [7]) () (send_info knowingRequests .boost commentsRequest.text)) ∧
    GetFile.Answered
      (packetsOf (sameFiles [7]) () (send_file knowingRequests .boost pictureRequest.text)) := by
  have htab : Tabular (sameFiles [7]) := by
    refine ⟨?_, ?_, ?_, ?_⟩
    · intro _ _ _ _ _ _ h
      cases h
    · intro _ _ _ _ h
      cases h
    · intro _ _ _ _ h
      cases h
    · intro _ _ _ _ _ _ h
      cases h
  have hwrites : knowingRequests.Writes := writes_knowing _
  refine ⟨?_, ?_⟩
  · rw [(answered_iff knowingRequests .boost (sameFiles [7]) () commentsRequest.text
      commentsRequest hwrites htab
      parse_requests.1).1 (.comments "1") commentsRequest_of]
    exact fun h => absurd rfl (h.1 _ _ rfl)
  · rw [(answered_iff knowingRequests .boost (sameFiles [7]) () pictureRequest.text
      pictureRequest hwrites htab
      parse_requests.2).2 (.picture "1") pictureRequest_of]
    exact .inr ⟨[7], rfl, by decide⟩

end PickUpLight.Replies
