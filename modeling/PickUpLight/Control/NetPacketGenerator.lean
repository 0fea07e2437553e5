import PickUpLight.Control.Effects

/-!
# Packets

`NetPacketGenerator` (`netpacketgenerator.cpp`). Each function builds a message, writes its
text into the packet with `strcpy` and says in the header what it is for and how long it
is. They differ in purpose and message only, so `packet` is all of them. `strcpy` does not
ask whether the text and its end fit into `BUF_SIZE` bytes.
-/

namespace PickUpLight.Control

open PickUpLight.Theory PickUpLight.Wire

namespace NetPacketGenerator

variable (lib : Nlohmann)

/-- The text of a message fits into a packet, with its end. -/
def fits (message : Json) : Bool := (lib.dump message).length < BUF_SIZE

/-- A packet, for a purpose and with a message. -/
def packet (purpose : Purpose) (message : Json) : Handler NetPacket :=
  if fits lib message then Program.ret { purpose := purpose, message := message } else Program.fail

/-- A packet and what is done with it. -/
theorem packet_bind {α : Type} (purpose : Purpose) (message : Json) (f : NetPacket → Handler α) :
    packet lib purpose message >>= f = if fits lib message then f ⟨purpose, message⟩
      else Program.fail := by
  unfold packet
  split <;> rfl

/-- The message of `register_P` and `login_P`. -/
def success (ok : Bool) : Json := Json.null.set "success" (.str (if ok then "true" else "false"))

@[simp] theorem success_inj {ok ok' : Bool} : success ok = success ok' ↔ ok = ok' := by
  cases ok <;> cases ok' <;> simp [success, Json.set]

def register_P (ok : Bool) : Handler NetPacket := packet lib .Register (success ok)

def login_P (ok : Bool) : Handler NetPacket := packet lib .Login (success ok)

def sendVideoId_P (videoId : String) : Handler NetPacket :=
  packet lib .SendFile (Json.null.set "videoId" (.str videoId))

/-- The message of an answer to `GetInfo`: what it is about, and the info. -/
def info (infotype : InfoType) (key : String) (value : Json) : Json :=
  (Json.null.set "infotype" (.int infotype.code)).set key value

def sendComments_P (comments : Json) : Handler NetPacket :=
  packet lib .GetInfo (info .Comment "comments" comments)

def sendVodList_P (vodList : Json) : Handler NetPacket :=
  packet lib .GetInfo (info .VodList "vodList" vodList)

def sendLikeInfo_P (likeInfo : Json) : Handler NetPacket :=
  packet lib .GetInfo (info .VideoLike "likeInfo" likeInfo)

def sendFollowInfo_P (followInfo : Json) : Handler NetPacket :=
  packet lib .GetInfo (info .Follow "followInfo" followInfo)

def sendFansInfo_P (fansInfo : Json) : Handler NetPacket :=
  packet lib .GetInfo (info .Fans "fansInfo" fansInfo)

/-- The one answer to `ModifyInfo`. -/
def sendLiveInfo_P (liveInfo : Json) : Handler NetPacket :=
  packet lib .ModifyInfo (info .LiveList "liveInfo" liveInfo)

def sendLiveList_P (liveList : Json) : Handler NetPacket :=
  packet lib .GetInfo (info .LiveList "liveList" liveList)

def sendNickNameInfo_P (nickNameInfo : Json) : Handler NetPacket :=
  packet lib .GetInfo (info .NickName "nickNameInfo" nickNameInfo)

/-- The message of `sendUserVideoInfo_P` and `sendUserVideoLikeInfo_P`: whose videos. -/
def infoOf (infotype : InfoType) (userId key : String) (value : Json) : Json :=
  ((Json.null.set "infotype" (.int infotype.code)).set "userId" (.str userId)).set key value

def sendUserVideoInfo_P (userId : String) (userVideoList : Json) : Handler NetPacket :=
  packet lib .GetInfo (infoOf .UserVideo userId "userVideoList" userVideoList)

def sendUserVideoLikeInfo_P (userId : String) (userVideoLikeList : Json) : Handler NetPacket :=
  packet lib .GetInfo (infoOf .UserVideoLike userId "userVideoLikeList" userVideoLikeList)

def sendMessageInfo_P (messages : Json) : Handler NetPacket :=
  packet lib .GetInfo (info .Message "messages" messages)

def sendVideoPushInfo_P (videos : Json) : Handler NetPacket :=
  packet lib .GetInfo (info .VideoPush "videos" videos)

end NetPacketGenerator

end PickUpLight.Control
