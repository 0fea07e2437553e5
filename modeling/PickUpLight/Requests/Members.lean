import PickUpLight.Control.Dispatch
import PickUpLight.Library.Nlohmann

/-!
# Requests are their members

A client may write the members of a request in any order, with any spacing, and with any escapes: a
handler looks at the values of the members only, so that two texts with the same members are one
request (`dispatch_same`).
-/

namespace PickUpLight.Requests

open PickUpLight.Theory PickUpLight.Wire PickUpLight.Control PickUpLight.Library Handler
open ReceiveFileControl (isType)

/-! ### Members -/

/-- Two values with the same members, but for the order within them. -/
def SameMembers (j j' : Json) : Prop :=
  ∀ key, (j.member key).map ordered = (j'.member key).map ordered

/-- The members of an ordered value. -/
theorem member_ordered {j : Json} (h : Storable j) (key : String) :
    (ordered j).member key = (j.member key).map ordered := by
  cases h with
  | obj hnodup _ =>
    rw [ordered, Json.member, Json.member, lookup_ordered hnodup, Option.map_some,
      Option.some.injEq]
    cases List.lookup key _ <;> rfl
  | _ => rfl

theorem sameMembers_of_ordered {j j' : Json} (hj : Storable j) (hj' : Storable j')
    (h : ordered j = ordered j') :
    SameMembers j j' := by
  intro key
  rw [← member_ordered hj, ← member_ordered hj', h]

section Same

variable {j j' : Json}

/-- What is made of a member, where it does not depend on an order. -/
theorem SameMembers.bind_eq {α : Type} (h : SameMembers j j') (key : String) {f : Json → Option α}
    (hf : ∀ v, f (ordered v) = f v) : (j.member key).bind f = (j'.member key).bind f := by
  have hbind : ∀ o : Option Json, o.bind f = (o.map ordered).bind f := by
    intro o
    cases o with
    | none => rfl
    | some v => exact (hf v).symm
  rw [hbind (j.member key), hbind (j'.member key), h key]

theorem SameMembers.string_eq (h : SameMembers j j') (key : String) :
    j.string key = j'.string key :=
  h.bind_eq key fun v => by cases v <;> rfl

theorem SameMembers.enum_eq (h : SameMembers j j') (key : String) : j.enum key = j'.enum key :=
  h.bind_eq key fun v => by cases v <;> rfl

theorem SameMembers.integer_eq (h : SameMembers j j') (key : String) :
    j.integer key = j'.integer key :=
  h.bind_eq key fun v => by cases v <;> rfl

theorem SameMembers.boolean_eq (h : SameMembers j j') (key : String) :
    j.boolean key = j'.boolean key :=
  h.bind_eq key fun v => by cases v <;> rfl

theorem SameMembers.str_eq (h : SameMembers j j') (key : String) : str j key = str j' key := by
  rw [str, str, h.string_eq]

theorem SameMembers.isType_eq (h : SameMembers j j') (filetype : FileType) :
    isType j filetype = isType j' filetype := by
  have hbind :=
    h.bind_eq "filetype" (f := fun v => some (v.eqCode filetype.code)) fun v => by cases v <;> rfl
  rw [isType, isType, Option.map_eq_bind, Option.map_eq_bind]
  exact congrArg Program.ofOption hbind

end Same

/-! ### Handlers -/

section Handlers

variable {lib : Nlohmann} {server : Server} {j j' : Json}

theorem answer_same (h : SameMembers j j') (infotype : InfoType) :
    SendInfoControl.answer lib server j infotype = SendInfoControl.answer lib server j'
      infotype := by
  cases infotype <;> simp only [SendInfoControl.answer, h.str_eq, h.integer_eq]

theorem modify_same (h : SameMembers j j') (infotype : InfoType) :
    ModifyInfoControl.modify lib server j infotype = ModifyInfoControl.modify lib server j'
      infotype := by
  cases infotype <;>
    simp only [ModifyInfoControl.modify, ModifyInfoControl.modifyComment,
    ModifyInfoControl.removeVideo,
    ModifyInfoControl.modifyVideoLike, ModifyInfoControl.modifyCommentLike,
      ModifyInfoControl.modifyFollow,
    ModifyInfoControl.modifyRelation, ModifyInfoControl.modifyLive,
      ModifyInfoControl.modifyNickName,
    ModifyInfoControl.modifyProfile, ModifyInfoControl.flag, h.str_eq, h.boolean_eq]

theorem send_file_same (h : SameMembers j j') :
    SendFileControl.answer lib server j = SendFileControl.answer lib server j' := by
  simp only [SendFileControl.answer, SendFileControl.sendPicture, SendFileControl.sendVideo,
    SendFileControl.sendChatImg, SendFileControl.sendPreview, h.isType_eq, h.str_eq]

theorem plan_same (h : SameMembers j j') :
    ReceiveFileControl.plan lib server j = ReceiveFileControl.plan lib server j' := by
  simp only [ReceiveFileControl.plan, ReceiveFileControl.planPicture,
    ReceiveFileControl.planChatImg,
    ReceiveFileControl.planPreview, ReceiveFileControl.planVideo, h.isType_eq, h.str_eq]

theorem insertChat_same (h : SameMembers j j') (messagetype : MessageType) (key : String) :
    insertChat j messagetype key = insertChat j' messagetype key := by
  simp only [insertChat, h.str_eq]

theorem account_same {text text' : List UInt8} (h : SameMembers j j') (hj : lib.parse text = some j)
    (hj' : lib.parse text' = some j') :
    InitControl.account lib text = InitControl.account lib text' := by
  simp only [InitControl.account, hj, hj', Option.bind_some, h.string_eq]

theorem chat_same {text text' : List UInt8} (h : SameMembers j j') (hj : lib.parse text = some j)
    (hj' : lib.parse text' = some j') : chat lib text = chat lib text' := by
  simp only [chat, hj, hj', Program.ofOption_some, Program.ret_bind, h.enum_eq, insertChat_same h]

theorem receive_file_same {text text' : List UInt8} (h : SameMembers j j')
    (hj : lib.parse text = some j) (hj' : lib.parse text' = some j') (fileData : List UInt8) :
    ReceiveFileControl.receive_file lib server text fileData = ReceiveFileControl.receive_file lib
      server text' fileData := by
  simp only [ReceiveFileControl.receive_file, hj, hj', Program.ofOption_some, Program.ret_bind,
    plan_same h, h.isType_eq, h.str_eq]

theorem send_info_same {text text' : List UInt8} (h : SameMembers j j')
    (hj : lib.parse text = some j) (hj' : lib.parse text' = some j') :
    SendInfoControl.send_info lib server text = SendInfoControl.send_info lib server text' := by
  simp only [SendInfoControl.send_info, hj, hj', Program.ofOption_some, Program.ret_bind, h.enum_eq,
    answer_same h]

theorem modify_info_same {text text' : List UInt8} (h : SameMembers j j')
    (hj : lib.parse text = some j) (hj' : lib.parse text' = some j') :
    ModifyInfoControl.modify_info lib server text =
      ModifyInfoControl.modify_info lib server text' := by
  simp only [ModifyInfoControl.modify_info, hj, hj', Program.ofOption_some, Program.ret_bind,
    h.enum_eq, modify_same h]

end Handlers

/-! ### Requests -/

/-- The text of a request. -/
def requestText (call : Call) : Handler (List UInt8) :=
  match Purpose.ofCode call.header.purpose with
  | some .SendFile => Program.ofOption (cString (call.payload.take BUF_SIZE))
  | some .Chat => Program.ret (chatText call)
  | _ => packetText call

variable {strtod : List UInt8 → Option ℚ} {dump_float : ℚ → List UInt8} {server : Server}
  {call call' : Call}
  {text text' : List UInt8} {j j' : Json}

/-- **A request is its members**: of two texts with the same members the handler is the same. -/
theorem dispatch_same (hpurpose : call.header.purpose = call'.header.purpose)
    (hfile : Purpose.ofCode call.header.purpose = some .SendFile →
      call.payload.drop BUF_SIZE = call'.payload.drop BUF_SIZE)
    (htext : requestText call = Program.ret text) (htext' : requestText call' = Program.ret text')
    (hj : parse strtod text = .ok j) (hj' : parse strtod text' = .ok j')
    (hsame : ordered j = ordered j') :
    dispatch (nlohmann strtod dump_float) server call =
      dispatch (nlohmann strtod dump_float) server call' := by
  have h := sameMembers_of_ordered (parse_bound hj).1 (parse_bound hj').1 hsame
  replace hj : (nlohmann strtod dump_float).parse text = some j := nlohmann_parse_iff.mpr hj
  replace hj' : (nlohmann strtod dump_float).parse text' = some j' := nlohmann_parse_iff.mpr hj'
  unfold requestText at htext htext'
  unfold dispatch
  rw [← hpurpose] at htext' ⊢
  cases hcode : Purpose.ofCode call.header.purpose with
  | none => rfl
  | some purpose =>
    simp only [hcode] at htext htext'
    cases purpose with
    | Heart => rfl
    | Register =>
      simp only [htext, htext', Program.ret_bind, InitControl.register, InitControl.do_register,
        account_same h hj hj']
    | Login =>
      simp only [htext, htext', Program.ret_bind, InitControl.login, InitControl.do_login,
      account_same h hj hj']
    | SendFile =>
      simp only [htext, htext', Program.ret_bind, receive_file_same h hj hj', hfile hcode]
    | GetFile =>
      simp only [htext, htext', Program.ret_bind, SendFileControl.send_file, hj, hj',
        Program.ofOption_some, send_file_same h]
    | GetInfo => simp only [htext, htext', Program.ret_bind, send_info_same h hj hj']
    | ModifyInfo => simp only [htext, htext', Program.ret_bind, modify_info_same h hj hj']
    | Chat =>
      have hchat : chatText call = text := Program.ret.inj htext
      have hchat' : chatText call' = text' := Program.ret.inj htext'
      simp only [hchat, hchat', chat_same h hj hj']

/-- A login. -/
def loginPlain : Call where
  header := { purpose := Purpose.Login.code, data_size := 19 }
  payload := utf8 "\x7b\"id\":\"1\",\"pw\":\"2\"\x7d"

/-- The same, with blanks, with an escape, and the other way around. -/
def loginSpaced : Call where
  header := { purpose := Purpose.Login.code, data_size := 28 }
  payload := utf8 "\x7b \"pw\": \"\\u0032\",\n\"id\": \"1\"\x7d"

theorem requestText_plain : requestText loginPlain = Program.ret loginPlain.payload :=
  packetText_eq (by decide) (by decide)

theorem requestText_spaced : requestText loginSpaced = Program.ret loginSpaced.payload :=
  packetText_eq (by decide) (by decide)

theorem dispatch_same_login : dispatch (nlohmann (fun _ => none) fun _ => []) .boost loginPlain =
    dispatch (nlohmann (fun _ => none) fun _ => []) .boost loginSpaced :=
  dispatch_same rfl (fun _ => rfl) requestText_plain requestText_spaced
    (show parse (fun _ => none) loginPlain.payload =
      .ok (.obj [("id", .str "1"), ("pw", .str "2")]) by rfl)
    (show parse (fun _ => none) loginSpaced.payload =
      .ok (.obj [("pw", .str "2"), ("id", .str "1")]) by rfl) (by rfl)

end PickUpLight.Requests
