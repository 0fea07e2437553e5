import PickUpLight.Control.InitControl
import PickUpLight.Control.ModifyInfoControl
import PickUpLight.Control.ReceiveFileControl
import PickUpLight.Control.SendFileControl
import PickUpLight.Control.SendInfoControl
import PickUpLight.Wire.Buffer

/-!
# The handler of a request

What `processSingleRequest` calls, once it has read a request, in `session.cpp` and in
`myserver.cpp`.
-/

namespace PickUpLight.Control

open PickUpLight.Theory PickUpLight.Wire Handler

variable (lib : Nlohmann) (server : Server)

/-- A message of a chat, with the member its text is in. -/
def insertChat (jsonMsg : Json) (messagetype : MessageType) (key : String) : Handler Unit := do
  let sendId ← str jsonMsg "sendId"
  let receiveId ← str jsonMsg "receiveId"
  let message ← str jsonMsg key
  let _ ← query_execute (.insertMessage sendId receiveId (toString messagetype.code) message)
  pure ()

/-- The branch for `Chat`. -/
def chat (buf : List UInt8) : Handler Unit := do
  let jsonMsg ← Program.ofOption (lib.parse buf)
  let messagetype ← Program.ofOption (jsonMsg.enum "messagetype")
  if messagetype = MessageType.Characters.code then
    /- 文字聊天 -/
    insertChat jsonMsg .Characters "content"
  else if messagetype = MessageType.VideoPreviewImg.code then
    /- 分享视频 -/
    insertChat jsonMsg .VideoPreviewImg "videoId"

/-- The text in the buffer of an ordinary packet. -/
def packetText (call : Call) : Handler (List UInt8) :=
  Program.ofOption (cString (buffer call.payload))

/-- A text without zeros that leaves room for its end. -/
theorem packetText_eq {call : Call} (hzero : 0 ∉ call.payload)
    (hroom : call.payload.length < BUF_SIZE) :
    packetText call = Program.ret call.payload := by
  rw [packetText, (cString_buffer hzero).mpr hroom, Program.ofOption_some]

/-- The text `Chat` parses: `parse` is given the array, which need not end with a zero. -/
def chatText (call : Call) : List UInt8 := arrayText (buffer call.payload)

/-- The handler of a request. -/
def dispatch (call : Call) : Handler Unit := do
  match Purpose.ofCode call.header.purpose with
  | none => pure ()
  | some .Heart => set_0
  | some .Register => InitControl.register lib server (← packetText call)
  | some .Login => InitControl.login lib server (← packetText call)
  | some .SendFile =>
    let fileInfo ← Program.ofOption (cString (call.payload.take BUF_SIZE))
    ReceiveFileControl.receive_file lib server fileInfo (call.payload.drop BUF_SIZE)
  | some .GetFile => SendFileControl.send_file lib server (← packetText call)
  | some .GetInfo => SendInfoControl.send_info lib server (← packetText call)
  | some .ModifyInfo => ModifyInfoControl.modify_info lib server (← packetText call)
  | some .Chat => chat lib (chatText call)

end PickUpLight.Control
