import PickUpLight.Replies.Descriptions
import PickUpLight.Replies.ReadBack
import PickUpLight.Requests.Repertoire
import PickUpLight.Theory.Frames

/-!
# Streams of replies

A client sees the replies to its requests as one stream of bytes. Every header says how many bytes
are behind it, with a description before a file, and a reply to a request for a file has that
purpose and no other has. So the stream is cut into the replies again, and each reply has the text
and the file that were sent (`stream_read_back`). This is so while the descriptions fit: a longer
one is copied past the end of its block.
-/

namespace PickUpLight.Replies

open PickUpLight.Theory PickUpLight.Wire PickUpLight.Control PickUpLight.Library
  PickUpLight.Requests Handler
open Program (Meets MeetsGiven run)

/-! ### Replies -/

/-- A reply: a header, and the bytes behind it. -/
structure Incoming where
  /-- The header. -/
  header : NetPacketHeader
  /-- The bytes behind it. -/
  body : List UInt8
  deriving DecidableEq, Repr

/-- The bytes of a reply. -/
def Incoming.bytes (r : Incoming) : List UInt8 := r.header.bytes ++ r.body

/-- How many bytes are behind a header: a file has a description before it, and no file has
nothing. -/
def replyLength (h : NetPacketHeader) : ℕ :=
  if h.purpose = Purpose.GetFile.code ∧
    h.data_size ≠ 0 then BUF_SIZE + h.data_size.toNat else h.data_size.toNat

/-- The text of a reply, with what is behind it in the description of a file. -/
def Incoming.text (r : Incoming) : List UInt8 :=
  if r.header.purpose = Purpose.GetFile.code then r.body.take BUF_SIZE else r.body

/-- The first reply of a stream, and what is behind it. -/
def readReply (stream : List UInt8) : Option (Incoming × List UInt8) :=
  let header := NetPacketHeader.ofBytes (stream.take headerSize)
  let rest := stream.drop headerSize
  if headerSize ≤ stream.length ∧ replyLength header ≤ rest.length then
    some (⟨header, rest.take (replyLength header)⟩, rest.drop (replyLength header))
  else none

/-- The replies of a stream. -/
def readReplies (stream : List UInt8) : List Incoming := readAll readReply stream.length stream

/-- A reply that is as long as its header says is taken off a stream. -/
theorem readReply_append {r : Incoming} (h : r.body.length = replyLength r.header)
    (rest : List UInt8) :
    readReply (r.bytes ++ rest) = some (r, rest) := by
  have htake : (r.bytes ++ rest).take headerSize = r.header.bytes := by
    rw [Incoming.bytes, List.append_assoc, List.take_left' r.header.length_bytes]
  have hdrop : (r.bytes ++ rest).drop headerSize = r.body ++ rest := by
    rw [Incoming.bytes, List.append_assoc, List.drop_left' r.header.length_bytes]
  have hroom : headerSize ≤ (r.bytes ++ rest).length ∧
      replyLength r.header ≤ (r.body ++ rest).length := by
    rw [Incoming.bytes, List.length_append, List.length_append, List.length_append,
      NetPacketHeader.length_bytes, h]
    omega
  simp only [readReply, htake, hdrop, NetPacketHeader.ofBytes_bytes, if_pos hroom,
    List.take_left' h, List.drop_left' h]

/-! ### What a packet comes as -/

/-- What a packet comes to a client as, when all of it is sent: the text is in front of what else is
in the description of a file, and so much of the file as has been read is in front of what else is
sent. -/
def ComesAs (lib : Nlohmann) : Effect → Incoming → Prop
  | .send p, r =>
    r = ⟨⟨p.purpose.code, UInt32.ofNat (lib.dump p.message).length⟩, lib.dump p.message⟩
  | .sendFile p, r => r.header = ⟨Purpose.GetFile.code, UInt32.ofNat p.data_size⟩ ∧
    headerSize + (r.body.length : ℤ) = p.length ∧
      (∃ garbage, r.body.take BUF_SIZE = lib.dump p.fileInfo ++ 0 :: garbage) ∧
        p.fileData <+: r.body.drop BUF_SIZE
  | .sendNoFile, r => r = ⟨⟨Purpose.GetFile.code, 0⟩, []⟩
  | _, _ => False

/-- Only replies to requests for files have their purpose. -/
def NamesFiles (e : Effect) : Prop := ∀ p, e = .send p → p.purpose ≠ .GetFile

theorem code_ne_getFile {purpose : Purpose} (h : purpose ≠ .GetFile) :
    purpose.code ≠ Purpose.GetFile.code := by
  intro heq
  have hcodes : some purpose = some Purpose.GetFile := by
    rw [← Purpose.ofCode_code purpose, heq, Purpose.ofCode_code]
  exact h (Option.some.inj hcodes)

variable {lib : Nlohmann} {e : Effect} {r : Incoming}

/-- A reply is as long as its header says. -/
theorem ComesAs.length_body (h : ComesAs lib e r) (hsound : Sound lib e) (hnames : NamesFiles e) :
    r.body.length = replyLength r.header := by
  have hsize : BUF_SIZE = 10240 := rfl
  cases e with
  | send p =>
    have hfits : (lib.dump p.message).length < BUF_SIZE := of_decide_eq_true hsound.2
    have hcode := code_ne_getFile (hnames p rfl)
    rw [h, replyLength, if_neg fun hfile => hcode hfile.1, UInt32.toNat_ofNat',
      Nat.mod_eq_of_lt (by omega)]
  | sendFile p =>
    obtain ⟨hheader, hlength, -, -⟩ := h
    obtain ⟨-, -, hpos, hle, -, hp⟩ := hsound
    have hdata : (UInt32.ofNat p.data_size).toNat = p.data_size := toNat_size hle
    have hne : UInt32.ofNat p.data_size ≠ 0 := by
      intro hzero
      rw [hzero] at hdata
      exact absurd hdata.symm (Nat.ne_of_gt hpos)
    rw [hheader, replyLength, if_pos ⟨rfl, hne⟩, hdata]
    omega
  | sendNoFile =>
    rw [h]
    rfl
  | _ => exact h.elim

/-- The text of a reply is the one of its message, and has ended. -/
theorem ComesAs.text_eq {j : Json} (h : ComesAs lib e r) (hnames : NamesFiles e)
    (hj : messageOf e = some j) :
    ∃ behind, Behind behind ∧ r.text = lib.dump j ++ behind := by
  cases e with
  | send p =>
    cases hj
    refine ⟨[], .inl rfl, ?_⟩
    rw [h, Incoming.text, if_neg (code_ne_getFile (hnames p rfl)), List.append_nil]
  | sendFile p =>
    cases hj
    obtain ⟨hheader, -, ⟨garbage, hinfo⟩, -⟩ := h
    refine ⟨0 :: garbage, .inr ⟨garbage, rfl⟩, ?_⟩
    rw [Incoming.text, hheader, if_pos rfl, hinfo]
  | _ => cases hj

/-! ### Connections -/

/-- The requests of a connection are handled one after another. -/
def connection (lib : Nlohmann) (server : Server) (calls : List Call) : Handler Unit :=
  Program.loop (fun _ call => dispatch lib server call) () calls

variable {σ : Type} {answer : σ → (e : Effect) → σ × e.Answer} {server : Server}

/-- What is sent in a connection. -/
theorem sends_connection (hpromised : ∀ s e, Promised e (answer s e).2) (calls : List Call)
    (s : σ) :
    ∀ e ∈ packetsOf answer s (connection lib server calls), Sound lib e ∧ NamesFiles e := by
  have hsound : Tells lib (connection lib server calls) fun _ => True :=
    MeetsGiven.loop calls (fun _ call _ _ => tells_dispatch call) trivial
  have hnames : (connection lib server calls).Meets NamesFiles fun _ => True := by
    refine Meets.loop (fun _ call _ => Meets.mono (fun e hmay p hp => ?_) (keeps_dispatch call))
      calls trivial
    obtain ⟨purpose, -, hmay⟩ := hmay
    subst hp
    exact hmay.1 ▸ hmay.2.2.1
  intro e he
  obtain ⟨x, hx, rfl⟩ := List.mem_map.mp (List.mem_of_mem_filter he)
  exact ⟨hsound.run hpromised s x hx, hnames.run s x hx⟩

/-- A request for a file gets a description that fits, whatever is found for it. -/
def Described (lib : Nlohmann) (answer : σ → (e : Effect) → σ × e.Answer) (call : Call) : Prop :=
  Purpose.ofCode call.header.purpose = some .GetFile → ∀ text jsonMsg, ∀ r : GetFile,
    cString (buffer call.payload) = some text → lib.parse text = some jsonMsg → r.Of jsonMsg →
      ∀ s suffix publisherId, r.Finds answer s suffix publisherId →
        NetPacketGenerator.fits lib (r.fileInfo suffix publisherId) = true

/-- What the replies of a connection rest on. -/
structure Orderly (lib : Nlohmann) (answer : σ → (e : Effect) → σ × e.Answer) (calls : List Call) :
    Prop where
  /-- The promises of the surroundings. -/
  promised : ∀ s e, Promised e (answer s e).2
  /-- No description overruns its block. -/
  described : ∀ call ∈ calls, Described lib answer call

/-- **The stream of a connection is read back**: when the descriptions fit and all packets are sent
in full, a client that cuts the stream by the headers has the replies, in order and no others, and
reads the message of each. -/
theorem stream_read_back (strtod : List UInt8 → Option ℚ) (dump_float : ℚ → List UInt8)
    (server : Server) (calls : List Call)
    (horderly : Orderly (nlohmann strtod dump_float) answer calls) (s : σ) {replies : List Incoming}
    (hreplies : List.Forall₂ (ComesAs (nlohmann strtod dump_float))
      (packetsOf answer s (connection (nlohmann strtod dump_float) server calls)) replies) :
    readReplies (replies.flatMap Incoming.bytes) = replies ∧
      List.Forall₂ (fun e r => ∀ j, messageOf e = some j →
      (nlohmann strtod dump_float).parse r.text = some (ordered j))
        (packetsOf answer s (connection (nlohmann strtod dump_float) server calls)) replies := by
  have hsends :=
    @sends_connection (nlohmann strtod dump_float) σ answer server horderly.promised calls s
  have hboth := (List.forall₂_and_left _ _).mpr ⟨hsends, hreplies⟩
  have hlength : ∀ r ∈ replies, r.body.length = replyLength r.header := by
    have hflip :=
      List.Forall₂.imp (S := fun e r => r.body.length = replyLength r.header ∧ ComesAs _ e r)
      (fun e r h => ⟨h.2.length_body h.1.1 h.1.2, h.2⟩) hboth
    exact ((List.forall₂_and_left _ _).mp hflip.flip).1
  constructor
  · refine readAll_flatMap rfl (fun r hr => readReply_append (hlength r hr))
      (length_le_flatMap (fun r => ?_) replies)
    rw [Incoming.bytes, List.length_append, NetPacketHeader.length_bytes]
    exact Nat.add_pos_left (by decide) _
  · refine List.Forall₂.imp (fun e r h j hj => ?_) hboth
    obtain ⟨⟨hsound, hnames⟩, hcomes⟩ := h
    obtain ⟨behind, hbehind, htext⟩ := hcomes.text_eq hnames hj
    obtain ⟨hstorable, hplain⟩ := hsound.written hj
    rw [htext]
    exact nlohmann_read_back hstorable hplain hbehind

/-- A request for a picture that nobody has. -/
def pictureCall : Call where
  header := { purpose := Purpose.GetFile.code, data_size := 23 }
  payload := utf8 "\x7b\"filetype\":0,\"id\":\"1\"\x7d"

theorem parse_pictureCall : cString (buffer pictureCall.payload) = some pictureCall.payload ∧
    (nlohmann (fun _ => none) fun _ => []).parse pictureCall.payload = some pictureRequest :=
  ⟨(cString_buffer (by decide)).mpr (by decide), rfl⟩

/-- The only thing it asks for is the picture. -/
theorem of_pictureRequest {r : GetFile} (h : r.Of pictureRequest) : r = .picture "1" := by
  obtain ⟨⟨j, hj, hcode⟩, hmembers⟩ := h
  obtain rfl : Json.int 0 = j := Option.some.inj hj
  cases r with
  | picture id =>
    obtain rfl : "1" = id := Option.some.inj hmembers
    rfl
  | video id | chatImg id imgName | preview id videoId => cases hcode

theorem orderly_streaming :
    Orderly (nlohmann (fun _ => none) fun _ => []) streaming [listRequest, pictureCall] where
  promised := promised_streaming
  described := by
    intro call hcall hpurpose text jsonMsg r htext hparse hr s suffix publisherId hfinds
    rcases List.mem_cons.mp hcall with rfl | hcall
    · cases hpurpose
    · obtain rfl := List.mem_singleton.mp hcall
      obtain rfl := Option.some.inj (parse_pictureCall.1.symm.trans htext)
      obtain rfl := Option.some.inj (parse_pictureCall.2.symm.trans hparse)
      obtain rfl := of_pictureRequest hr
      have hsuffix : suffix = "" := hfinds _ _ rfl suffix List.mem_cons_self
      rw [hsuffix, GetFile.fileInfo, fits_PFileInfo (nlohmann_adequate _ _).2.1]
      decide

/-- The reply to a request for the list. -/
def listReply : Incoming where
  header := ⟨Purpose.GetInfo.code, UInt32.ofNat listing.text.length⟩
  body := listing.text

/-- The reply to a request for the picture. -/
def noFileReply : Incoming where
  header := ⟨Purpose.GetFile.code, 0⟩
  body := []

theorem packetsOf_requests :
    packetsOf streaming ()
      (connection (nlohmann (fun _ => none) fun _ => []) .epoll [listRequest, pictureCall]) =
      [.send ⟨.GetInfo, listing⟩, .sendNoFile] := by
  have hpicture : dispatch (nlohmann (fun _ => none) fun _ => []) .epoll pictureCall =
      SendFileControl.answer (nlohmann (fun _ => none) fun _ => []) .epoll pictureRequest := by
    show packetText pictureCall >>= _ = _
    rw [packetText_eq (by decide) (by decide), Program.ret_bind, SendFileControl.send_file,
      parse_pictureCall.2, Program.ofOption_some, Program.ret_bind]
  rw [connection, Program.loop_cons, packetsOf, Program.run_bind dispatch_listRequest,
    Program.loop_cons]
  simp only [Program.loop_nil, hpicture]
  rfl

/-- The stream of a client that asks for the list, and for the picture. -/
theorem stream_read_back_requests : readReplies ([listReply, noFileReply].flatMap Incoming.bytes) =
      [listReply, noFileReply] ∧
    List.Forall₂ (fun e r => ∀ j, messageOf e = some j →
      (nlohmann (fun _ => none) fun _ => []).parse r.text = some (ordered j))
      (packetsOf streaming ()
      (connection (nlohmann (fun _ => none) fun _ => []) .epoll [listRequest, pictureCall]))
      [listReply, noFileReply] := by
  refine stream_read_back (fun _ => none) (fun _ => []) .epoll [listRequest, pictureCall]
    orderly_streaming () ?_
  rw [packetsOf_requests]
  refine .cons ?_ (.cons ?_ .nil)
  · rfl
  · rfl

end PickUpLight.Replies
