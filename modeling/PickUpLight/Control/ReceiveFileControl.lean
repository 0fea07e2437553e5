import PickUpLight.Control.NetPacketGenerator

/-!
# Receiving files

`ReceiveFileControl` (`receivefilecontrol.cpp`): a file is stored and entered into the
database, and a video is pushed to the publisher's followers.
-/

namespace PickUpLight.Control

open PickUpLight.Theory PickUpLight.Wire Handler

namespace ReceiveFileControl

variable (lib : Nlohmann) (server : Server)

/-- What `receive_file` is to do with a file. -/
structure Plan where
  /-- Where it is stored. -/
  filepath : String
  /-- The statement that enters it. -/
  command : Command
  /-- The id of a video. -/
  videoId : String

/-- The type of a file, as a member of its description. -/
def isType (jsonMsg : Json) (filetype : FileType) : Handler Bool :=
  Program.ofOption ((jsonMsg.member "filetype").map fun j => j.eqCode filetype.code)

/-- The type of a request's file is one type only. -/
theorem isType_eq {jsonMsg : Json} {filetype : FileType}
    (htype : ∃ j, jsonMsg.member "filetype" = some j ∧ j.eqCode filetype.code = true)
    (filetype' : FileType) :
    isType jsonMsg filetype' = Program.ret (decide (filetype = filetype')) := by
  obtain ⟨j, hj, hcode⟩ := htype
  simp only [isType, hj, Option.map_some, Program.ofOption_some, Json.eqCode_eq hcode,
    FileType.code_inj]

/-- A video's id goes back to the client before the file is stored. -/
def planVideo (jsonMsg : Json) : Handler Plan := do
  let videoId := toString (← nextId)
  let suffix ← str jsonMsg "suffix"
  let id ← str jsonMsg "id"
  let profile ← str jsonMsg "profile"
  let p ← NetPacketGenerator.sendVideoId_P lib videoId
  send server p
  pure {
    filepath := VIDEO_URL ++ videoId ++ suffix
    command := .insertVideo videoId id suffix profile
    videoId := videoId }

def planPicture (jsonMsg : Json) : Handler Plan := do
  let id ← str jsonMsg "id"
  let suffix ← str jsonMsg "suffix"
  pure {
    filepath := PROFILE_PICTURE_URL ++ id ++ suffix
    command := .updatePictureSuffix server suffix id
    videoId := "" }

def planChatImg (jsonMsg : Json) : Handler Plan := do
  let chatImgId := toString (← nextId)
  let suffix ← str jsonMsg "suffix"
  let sendId ← str jsonMsg "sendId"
  let receiveId ← str jsonMsg "receiveId"
  pure {
    filepath := CHAT_PICTURE_URL ++ chatImgId ++ suffix
    command :=
      .insertMessage sendId receiveId (toString MessageType.ChatImg.code) (chatImgId ++ suffix)
    videoId := "" }

def planPreview (jsonMsg : Json) : Handler Plan := do
  let id ← str jsonMsg "id"
  let suffix ← str jsonMsg "suffix"
  pure {
    filepath := PREVIEW_PICTURE_URL ++ id ++ suffix
    command := .updatePreviewSuffix suffix id
    videoId := "" }

/-- What is to be done, by the type; for any other type nothing is, and the rest runs with
empty texts. -/
def plan (jsonMsg : Json) : Handler Plan := do
  if ← isType jsonMsg .ProfilePicture then planPicture server jsonMsg
  else if ← isType jsonMsg .ChatImg then planChatImg jsonMsg
  else if ← isType jsonMsg .VideoPreviewImg then planPreview jsonMsg
  else if ← isType jsonMsg .Video then planVideo lib server jsonMsg
  else pure { filepath := "", command := .empty, videoId := "" }

/-- A push of a video to each follower. -/
def pushTo (videoId : String) (followers : List Row) : Handler Unit :=
  Program.loop (fun _ row => do
    let follower ← cell row 0
    let _ ← query_execute (.insertVideoPush follower videoId)
    pure ()) () followers

/-- The pushes of a new video. -/
def push (videoId id : String) : Handler Unit := do
  match ← query_store (.selectFollowers id) with
  | some followers => pushTo videoId followers
  | none => pure ()

def receive_file (fileInfo fileData : List UInt8) : Handler Unit := do
  let jsonMsg ← Program.ofOption (lib.parse fileInfo)
  let plan ← plan lib server jsonMsg
  let _ ← perform (.writeFile plan.filepath fileData)
  let _ ← query_execute plan.command
  if ← isType jsonMsg .Video then
    push plan.videoId (← str jsonMsg "id")

end ReceiveFileControl

end PickUpLight.Control
