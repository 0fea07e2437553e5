import PickUpLight.Control.NetPacketGenerator

/-!
# Changing information

`ModifyInfoControl` (`modifyinfocontrol.cpp`). A client that starts a stream is told where to send
it; nothing else is answered.
-/

namespace PickUpLight.Control

open PickUpLight.Theory PickUpLight.Wire Handler

namespace ModifyInfoControl

variable (lib : Nlohmann) (server : Server)

/-- A member of a message, as a `bool`. -/
def flag (jsonMsg : Json) (key : String) : Handler Bool := Program.ofOption (jsonMsg.boolean key)

/-- 评论. -/
def modifyComment (jsonMsg : Json) : Handler Unit := do
  let id := toString (← nextId)
  let replyCommentId ← str jsonMsg "replyCommentId"
  let publisherId ← str jsonMsg "publisherId"
  let videoId ← str jsonMsg "videoId"
  let content ← str jsonMsg "content"
  /- 存入数据库 -/
  let _ ← query_execute (.insertComment id replyCommentId publisherId videoId content)
  pure ()

/-- 删除视频. -/
def removeVideo (jsonMsg : Json) : Handler Unit := do
  let videoId ← str jsonMsg "videoId"
  /- 删除视频文件 -/
  let videoSuffix ← firstCell (← query_store (.selectVideoSuffix videoId)) 0
  let _ ← perform (.removeFile (VIDEO_URL ++ videoId ++ videoSuffix))
  /- 删除视频相关信息（视频信息+视频点赞信息） -/
  let _ ← query_execute (.deleteVideo videoId)
  let _ ← query_execute (.deleteVideoLikes videoId)
  pure ()

/-- A relation of two ids that is entered or taken back. -/
def modifyRelation (jsonMsg : Json) (key key' flagKey : String)
    (enter takeBack : String → String → Command) :
    Handler Unit := do
  let id ← str jsonMsg key
  let id' ← str jsonMsg key'
  if ← flag jsonMsg flagKey then
    let _ ← query_execute (enter id id')
  else
    let _ ← query_execute (takeBack id id')

/-- 点赞(或取消点赞)视频. -/
def modifyVideoLike (jsonMsg : Json) : Handler Unit :=
  modifyRelation jsonMsg "id" "userId" "ifLike" .insertVideoLike .deleteVideoLike

/-- 点赞(或取消点赞)评论. -/
def modifyCommentLike (jsonMsg : Json) : Handler Unit :=
  modifyRelation jsonMsg "id" "userId" "ifLike" .insertCommentLike .deleteCommentLike

/-- 关注(或取消关注)某人. -/
def modifyFollow (jsonMsg : Json) : Handler Unit :=
  modifyRelation jsonMsg "userId" "followerId" "ifFollow" .insertFollow .deleteFollow

/-- Where a user sends a stream. -/
def liveUrl (userId : String) : String := "rtmp://127.0.0.1:1935/live/" ++ userId

/-- 开启(或结束)直播. -/
def modifyLive (jsonMsg : Json) : Handler Unit := do
  let userId ← str jsonMsg "userId"
  if ← flag jsonMsg "ifStart" then
    /- 开启直播 -/
    let _ ← perform (.addLive userId (liveUrl userId))
    let p ← NetPacketGenerator.sendLiveInfo_P lib (Json.null.set "url" (.str (liveUrl userId)))
    send server p
  else
    /- 结束直播 -/
    let _ ← perform (.removeLive userId)

/-- 更改昵称. -/
def modifyNickName (jsonMsg : Json) : Handler Unit := do
  let userId ← str jsonMsg "userId"
  let newNickName ← str jsonMsg "newNickName"
  let _ ← query_execute (.updateNickName newNickName userId)
  pure ()

/-- 更改视频简介. -/
def modifyProfile (jsonMsg : Json) : Handler Unit := do
  let videoId ← str jsonMsg "videoId"
  let newProfile ← str jsonMsg "newProfile"
  let _ ← query_execute (.updateProfile newProfile videoId)
  pure ()

/-- The branches of `modify_info`. -/
def modify (jsonMsg : Json) : InfoType → Handler Unit
  | .Comment => modifyComment jsonMsg
  | .Video => removeVideo jsonMsg
  | .VideoLike => modifyVideoLike jsonMsg
  | .CommentLike => modifyCommentLike jsonMsg
  | .Follow => modifyFollow jsonMsg
  | .LiveList => modifyLive lib server jsonMsg
  | .NickName => modifyNickName jsonMsg
  | .VideoProfile => modifyProfile jsonMsg
  | _ => pure ()

def modify_info (buf : List UInt8) : Handler Unit := do
  let jsonMsg ← Program.ofOption (lib.parse buf)
  let infotype ← Program.ofOption (jsonMsg.enum "infotype")
  match InfoType.ofCode infotype with
  | some infotype => modify lib server jsonMsg infotype
  | none => pure ()

end ModifyInfoControl

end PickUpLight.Control
