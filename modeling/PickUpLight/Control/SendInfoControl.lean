import PickUpLight.Control.NetPacketGenerator

/-!
# Sending information

`SendInfoControl` (`sendinfocontrol.cpp`). Most answers are one query, the rows of which
are made into a list of objects; with no rows the list is null, and when the query fails
there is no answer.
-/

namespace PickUpLight.Control

open PickUpLight.Theory PickUpLight.Wire Handler

namespace SendInfoControl

/-! ### Rows as objects -/

/-- An object with the cells of a row, by key and column. -/
def toJson (columns : List (String × ℕ)) (row : Row) : Handler Json :=
  Program.loop (fun info column => do
    let text ← cell row column.2
    pure (info.set column.1 (.str text))) .null columns

def toJson_CommentInfo : Row → Handler Json :=
  toJson [("id", 0), ("replyCommentId", 1), ("publisherId", 2), ("videoId", 3), ("content", 4),
    ("time", 5)]

/-- A video, with the address it is played from. -/
def toJson_VodListInfo (server : Server) (row : Row) : Handler Json := do
  let videoId ← cell row 0
  let videoSuffix ← cell row 2
  let publisherId ← cell row 1
  let profile ← cell row 3
  let time ← cell row 5
  pure (((((Json.null.set "videoId" (.str videoId)).set "publisherId" (.str publisherId)).set "url"
    (.str (NET_VIDEO_URL server ++ videoId ++ videoSuffix))).set "profile" (.str profile)).set
      "time"
    (.str time))

def toJson_FollowInfo : Row → Handler Json := toJson [("userId", 0)]

def toJson_FansInfo : Row → Handler Json := toJson [("followerId", 0)]

def toJson_UserVideoInfo : Row → Handler Json := toJson [("videoId", 0)]

def toJson_MessageInfo : Row → Handler Json :=
  toJson [("sendId", 0), ("receiveId", 1), ("messageType", 2), ("content", 3), ("time", 4)]

def toJson_LiveListInfo (publisherId url : String) : Json :=
  (Json.null.set "publisherId" (.str publisherId)).set "url" (.str url)

def toJson_NickNameInfo (userId nickName : String) : Json :=
  (Json.null.set "userId" (.str userId)).set "nickName" (.str nickName)

def toJson_LikeInfo (likeCount : ℤ) (ifLike : Bool) : Json :=
  (Json.null.set "likeCount" (.int likeCount)).set "ifLike" (.bool ifLike)

variable (lib : Nlohmann) (server : Server)

/-- The answer to a query that is a list of objects. -/
def sendList (command : Command) (item : Row → Handler Json) (packet : Json → Handler NetPacket) :
    Handler Unit := do
  match ← query_store command with
  | some rows =>
    let items ← Program.loop (fun items row => do
      let info ← item row
      pure (items.push_back info)) Json.null rows
    let p ← packet items
    send server p
  | none => pure ()

/-- The answer to a query that is about its first row, null if there is none. -/
def sendFirst (command : Command) (item : Row → Handler Json) (packet : Json → Handler NetPacket) :
    Handler Unit := do
  match ← query_store command with
  | some (row :: _) =>
    let info ← item row
    let p ← packet info
    send server p
  | some [] =>
    let p ← packet .null
    send server p
  | none => pure ()

/-- The numbers of likes are converted from text, which throws where they are none. -/
def likeInfo (row : Row) : Handler Json := do
  let likeCount ← Program.ofOption (← cell row 0).toInt?
  let ifLike ← Program.ofOption (← cell row 1).toInt?
  pure (toJson_LikeInfo likeCount (ifLike ≠ 0))

def sendLiveList : Handler Unit := do
  let liveList ← perform .getLiveList
  let items := List.foldl (fun items (id, url) => Json.push_back items (toJson_LiveListInfo id url))
    Json.null liveList
  let p ← NetPacketGenerator.sendLiveList_P lib items
  send server p

/-! ### Pushed videos -/

/-- A pushed video, once its publisher has been looked for, goes to the end of the list. -/
def withPublisher (video videos : Json) : Option (List Row) → Handler (Json × Json)
  | some (row :: _) => do
    let publisherId ← cell row 0
    let video := video.set "publisherId" (.str publisherId)
    pure (video, videos.push_back video)
  | _ => pure (video, videos.push_back video)

/-- One pushed video: `video` is one variable for all of them, so a video without a publisher
keeps the publisher of the one before. -/
def pushedVideo (acc : Json × Json) (row : Row) : Handler (Json × Json) := do
  let videoId ← cell row 0
  /- 为每个视频查找对应的publisherId -/
  let publishers ← query_store (.selectPublisher videoId)
  withPublisher (acc.1.set "videoId" (.str videoId)) acc.2 publishers

/-- The pushes of a user are sent and then deleted. -/
def sendPushes (userId : String) (videos : Json) : Handler Unit := do
  let p ← NetPacketGenerator.sendVideoPushInfo_P lib videos
  send server p
  /- 删除 -/
  let _ ← query_execute (.deleteVideoPush userId)
  pure ()

/-- 获取视频推送数据，用完即删. -/
def sendVideoPush (userId : String) : Handler Unit := do
  match ← query_store (.selectVideoPush userId) with
  | some [] =>
    let p ← NetPacketGenerator.sendVideoPushInfo_P lib .null
    send server p
  | some rows =>
    let acc ← Program.loop pushedVideo (.null, .null) rows
    sendPushes lib server userId acc.2
  | none => pure ()

/-! ### All information -/

/-- The branches of `send_info`. -/
def answer (jsonMsg : Json) : InfoType → Handler Unit
  | .Comment => do
    let videoId ← str jsonMsg "id"
    sendList server (.selectComments videoId) toJson_CommentInfo
      (NetPacketGenerator.sendComments_P lib)
  | .VodList => do
    let offset ← Program.ofOption (jsonMsg.integer "offset")
    let num ← Program.ofOption (jsonMsg.integer "num")
    sendList server (.selectVideos offset num) (toJson_VodListInfo server)
      (NetPacketGenerator.sendVodList_P lib)
  | .VideoLike => do
    let videoId ← str jsonMsg "id"
    let userId ← str jsonMsg "userId"
    sendFirst server (.countVideoLikes videoId userId) likeInfo
      (NetPacketGenerator.sendLikeInfo_P lib)
  | .Follow => do
    let userId ← str jsonMsg "userId"
    sendList server (.selectFollows userId) toJson_FollowInfo
      (NetPacketGenerator.sendFollowInfo_P lib)
  | .Fans => do
    let userId ← str jsonMsg "userId"
    sendList server (.selectFans userId) toJson_FansInfo (NetPacketGenerator.sendFansInfo_P lib)
  | .LiveList => sendLiveList lib server
  | .NickName => do
    let userId ← str jsonMsg "userId"
    sendFirst server (.selectNickName userId)
      (fun row => do pure (toJson_NickNameInfo userId (← cell row 0)))
      (NetPacketGenerator.sendNickNameInfo_P lib)
  | .UserVideo => do
    let userId ← str jsonMsg "userId"
    sendList server (.selectUserVideos userId) toJson_UserVideoInfo
      (NetPacketGenerator.sendUserVideoInfo_P lib userId)
  | .UserVideoLike => do
    let userId ← str jsonMsg "userId"
    sendList server (.selectUserVideoLikes userId) toJson_UserVideoInfo
      (NetPacketGenerator.sendUserVideoLikeInfo_P lib userId)
  | .Message => do
    let userId1 ← str jsonMsg "userId1"
    let userId2 ← str jsonMsg "userId2"
    sendList server (.selectMessages userId1 userId2) toJson_MessageInfo
      (NetPacketGenerator.sendMessageInfo_P lib)
  | .VideoPush => do
    let userId ← str jsonMsg "userId"
    sendVideoPush lib server userId
  | _ => pure ()

def send_info (buf : List UInt8) : Handler Unit := do
  let jsonMsg ← Program.ofOption (lib.parse buf)
  let infotype ← Program.ofOption (jsonMsg.enum "infotype")
  match InfoType.ofCode infotype with
  | some infotype => answer lib server jsonMsg infotype
  | none => pure ()

end SendInfoControl

end PickUpLight.Control
