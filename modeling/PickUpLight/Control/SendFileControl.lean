import PickUpLight.Control.ReceiveFileControl

/-!
# Sending files

`SendFileControl` (`sendfilecontrol.cpp`): the file a request names, where the database knows
its suffix, goes back with a description of it. `send_pfile` and `send_vfile` differ in the
description only, so `sendFile` is both. The size of the file becomes an `unsigned int` and is
compared with nothing; the packet has room for a description of `BUF_SIZE` bytes, with its end, and
for `FILE_BUF_SIZE` bytes of the file.
-/

namespace PickUpLight.Control

open PickUpLight.Theory PickUpLight.Wire Handler
open ReceiveFileControl (isType)

namespace SendFileControl

variable (lib : Nlohmann) (server : Server)

/-- `getFileSize`: none for a file there is not. -/
def getFileSize (fileName : String) : Handler ℕ := do
  match ← perform (.stat fileName) with
  | some filesize => pure filesize
  | none => pure 0

def toJson_PFileInfo (filetype : FileType) (id suffix : String) : Json :=
  ((Json.null.set "filetype" (.int filetype.code)).set "id" (.str id)).set "suffix" (.str suffix)

def toJson_VFileInfo (filetype : FileType) (videoId publisherId suffix : String) : Json :=
  (((Json.null.set "filetype" (.int filetype.code)).set "videoId" (.str videoId)).set "publisherId"
    (.str publisherId)).set "suffix" (.str suffix)

/-- The length to send: `my_send` takes an `int`, `boost::asio::buffer` a `size_t`. -/
def sendLength (file_size : UInt32) : ℤ :=
  let length := headerSize + BUF_SIZE + file_size.toNat
  match server with
  | .epoll => (Int32.ofNat length).toInt
  | .boost => length

/-- There is no such file. -/
def sendNoFile : Handler Bool := do
  let ok ← perform .sendNoFile
  sent server ok
  pure false

/-- The packet has room for what is copied and read into it, and for what is sent of it. -/
def room (file_size : UInt32) (fileInfo : Json) (fileData : List UInt8) : Prop :=
  NetPacketGenerator.fits lib fileInfo ∧ fileData.length ≤ FILE_BUF_SIZE ∧
    file_size.toNat ≤ FILE_BUF_SIZE

instance (file_size : UInt32) (fileInfo : Json) (fileData : List UInt8) :
    Decidable (room lib file_size fileInfo fileData) :=
  inferInstanceAs (Decidable (_ ∧ _ ∧ _))

/-- The packet is made and sent; neither `strcpy` nor `ifstream::read` nor the send asks whether
there is room. -/
def sendPacket (file_size : UInt32) (fileInfo : Json) (fileData : List UInt8) : Handler Bool :=
  if room lib file_size fileInfo fileData then do
    let ok ← perform (.sendFile {
      data_size := file_size.toNat
      fileInfo := fileInfo
      fileData := fileData
      length := sendLength server file_size })
    sent server ok
    pure ok
  else Program.fail

/-- The file is read and sent, once its size is known. -/
def sendSized (filepath : String) (fileInfo : Json) (file_size : UInt32) : Handler Bool :=
  if file_size = 0 then sendNoFile server
  else do
    match ← perform (.readFile filepath file_size.toNat) with
    | some fileData => sendPacket lib server file_size fileInfo fileData
    | none => pure false

/-- What `send_pfile` and `send_vfile` do. -/
def sendFile (filepath : String) (fileInfo : Json) : Handler Bool := do
  /- 检测大小 -/
  let file_size ← getFileSize filepath
  sendSized lib server filepath fileInfo (UInt32.ofNat file_size)

def send_pfile (filetype : FileType) (filepath id suffix : String) : Handler Bool :=
  sendFile lib server filepath (toJson_PFileInfo filetype id suffix)

def send_vfile (filetype : FileType) (filepath videoId publisherId suffix : String) :
    Handler Bool :=
  sendFile lib server filepath (toJson_VFileInfo filetype videoId publisherId suffix)

/-- 头像文件. -/
def sendPicture (jsonMsg : Json) : Handler Bool := do
  let id ← str jsonMsg "id"
  let pictureSuffix ← firstCell (← query_store (.selectPictureSuffix id)) 0
  send_pfile lib server .ProfilePicture (PROFILE_PICTURE_URL ++ id ++ pictureSuffix) id
    pictureSuffix

/-- 点播视频文件. -/
def sendVideo (jsonMsg : Json) : Handler Bool := do
  let id ← str jsonMsg "id"
  let res ← query_store (.selectVideoFile id)
  let videoSuffix ← firstCell res 0
  let publisherId ← firstCell res 1
  send_vfile lib server .Video (VIDEO_URL ++ id ++ videoSuffix) id publisherId videoSuffix

/-- 聊天图像. -/
def sendChatImg (jsonMsg : Json) : Handler Bool := do
  let imgName ← str jsonMsg "imgName"
  let id ← str jsonMsg "id"
  send_pfile lib server .ChatImg (CHAT_PICTURE_URL ++ imgName) id imgName

/-- 视频预览图. -/
def sendPreview (jsonMsg : Json) : Handler Bool := do
  let videoId ← str jsonMsg "videoId"
  let previewSuffix ← firstCell (← query_store (.selectPreviewSuffix videoId)) 0
  let id ← str jsonMsg "id"
  send_pfile lib server .VideoPreviewImg (PREVIEW_PICTURE_URL ++ videoId ++ previewSuffix) id
    (videoId ++ previewSuffix)

/-- `send_file`, for a request that has been parsed. -/
def answer (jsonMsg : Json) : Handler Unit := do
  if ← isType jsonMsg .ProfilePicture then
    let _ ← sendPicture lib server jsonMsg
  else if ← isType jsonMsg .Video then
    let _ ← sendVideo lib server jsonMsg
  else if ← isType jsonMsg .ChatImg then
    let _ ← sendChatImg lib server jsonMsg
  else if ← isType jsonMsg .VideoPreviewImg then
    let _ ← sendPreview lib server jsonMsg

def send_file (buf : List UInt8) : Handler Unit := do
  let jsonMsg ← Program.ofOption (lib.parse buf)
  answer lib server jsonMsg

end SendFileControl

end PickUpLight.Control
