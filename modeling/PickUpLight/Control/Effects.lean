import PickUpLight.Control.Json
import PickUpLight.Theory.Program
import PickUpLight.Wire.Config

/-!
# What the handlers do to their surroundings

A handler is a program whose effects are the statements it gives to `DbBroker`, the packets
it sends, the ids it takes from `IdWorker`, and what it does to the evaluator's maps, the
live list and the files. `Command` lists the statements by what the source puts in their
texts; the texts are what the database sees.
-/

namespace PickUpLight.Control

open PickUpLight.Theory PickUpLight.Wire

/-- Which of the two servers a handler works for. -/
inductive Server where
  /-- `MyServer`: the overloads with a file descriptor. -/
  | epoll
  /-- `BoostServer`: the overloads with a socket. -/
  | boost
  deriving DecidableEq, Repr

/-! ### Enumerations -/

/-- `FileType`. -/
inductive FileType where
  | ProfilePicture
  | VideoPreviewImg
  | ChatImg
  | Video
  deriving DecidableEq, Repr

/-- The value of a `FileType`. -/
def FileType.code : FileType → ℤ
  | ProfilePicture => 0
  | VideoPreviewImg => 1
  | ChatImg => 2
  | Video => 3

theorem FileType.code_inj {t t' : FileType} : t.code = t'.code ↔ t = t' := by
  cases t <;> cases t' <;> decide

/-- `InfoType`. -/
inductive InfoType where
  | Comment
  | VideoLike
  | CommentLike
  | Follow
  | Fans
  | VodList
  | LiveList
  | Video
  | NickName
  | VideoProfile
  | UserVideo
  | UserVideoLike
  | Message
  | VideoPush
  deriving DecidableEq, Repr

namespace InfoType

/-- The value of an `InfoType`. -/
def code : InfoType → ℤ
  | Comment => 0
  | VideoLike => 1
  | CommentLike => 2
  | Follow => 3
  | Fans => 4
  | VodList => 5
  | LiveList => 6
  | Video => 7
  | NickName => 8
  | VideoProfile => 9
  | UserVideo => 10
  | UserVideoLike => 11
  | Message => 12
  | VideoPush => 13

/-- The `InfoType` with a given value; a `switch` ignores all other values. -/
def ofCode (code : ℤ) : Option InfoType :=
  match code with
  | 0 => some Comment
  | 1 => some VideoLike
  | 2 => some CommentLike
  | 3 => some Follow
  | 4 => some Fans
  | 5 => some VodList
  | 6 => some LiveList
  | 7 => some Video
  | 8 => some NickName
  | 9 => some VideoProfile
  | 10 => some UserVideo
  | 11 => some UserVideoLike
  | 12 => some Message
  | 13 => some VideoPush
  | _ => none

theorem ofCode_eq {code : ℤ} {infotype : InfoType} (h : ofCode code = some infotype) :
    code = infotype.code := by
  unfold ofCode at h
  split at h <;> cases h <;> rfl

@[simp] theorem ofCode_code (infotype : InfoType) : ofCode infotype.code = some infotype := by
  cases infotype <;> rfl

end InfoType

/-- `MessageType`. -/
inductive MessageType where
  | VideoPreviewImg
  | ChatImg
  | Characters
  deriving DecidableEq, Repr

/-- The value of a `MessageType`. -/
def MessageType.code : MessageType → ℤ
  | VideoPreviewImg => 0
  | ChatImg => 1
  | Characters => 2

/-! ### Statements -/

/-- The tables `initDataBase` creates. All their columns are plain: no table has a key. -/
inductive Table where
  | Video
  | User
  | Message
  | Comment
  | VideoLike
  | CommentLike
  | Follow
  | VideoPush
  deriving DecidableEq, Repr

/-- A row of a table or of an answer. The number is the one the storage engine gives a row of
a table without a key; no statement and no handler reads it. -/
structure Row where
  /-- Which row it is. -/
  number : ℕ
  /-- The cells, as text; the text of a null is `NULL`. -/
  cells : List String
  deriving DecidableEq, Repr

/-- The statements the handlers make. -/
inductive Command where
  /-- None: the text is empty. -/
  | empty
  | selectUserId (id : String)
  | insertUser (id pw : String)
  | selectPw (id : String)
  /-- Only `MyServer`'s puts the id in quotes. -/
  | updatePictureSuffix (server : Server) (suffix id : String)
  | insertMessage (sendId receiveId messageType message : String)
  | updatePreviewSuffix (suffix id : String)
  | insertVideo (id publisherId videoSuffix profile : String)
  | selectFollowers (userId : String)
  | insertVideoPush (userId videoId : String)
  | selectComments (videoId : String)
  | selectVideos (offset num : ℤ)
  | countVideoLikes (videoId userId : String)
  | selectFollows (followerId : String)
  | selectFans (userId : String)
  | selectNickName (id : String)
  | selectUserVideos (publisherId : String)
  | selectUserVideoLikes (userId : String)
  | selectMessages (userId1 userId2 : String)
  | selectVideoPush (userId : String)
  | selectPublisher (id : String)
  | deleteVideoPush (userId : String)
  | selectPictureSuffix (id : String)
  | selectVideoFile (id : String)
  | selectPreviewSuffix (id : String)
  | insertComment (id replyCommentId publisherId videoId content : String)
  | selectVideoSuffix (id : String)
  | deleteVideo (id : String)
  | deleteVideoLikes (videoId : String)
  | insertVideoLike (videoId userId : String)
  | deleteVideoLike (videoId userId : String)
  | insertCommentLike (commentId userId : String)
  | deleteCommentLike (commentId userId : String)
  | insertFollow (userId followerId : String)
  | deleteFollow (userId followerId : String)
  | updateNickName (nickName id : String)
  | updateProfile (profile id : String)
  deriving DecidableEq, Repr

namespace Command

/-- The text of a statement. -/
def text : Command → String
  | empty => ""
  | selectUserId id => "select id from User where id = " ++ id
  | insertUser id pw => "insert into User(id, pw) values('" ++ id ++ "','" ++ pw ++ "')"
  | selectPw id => "select pw from User where id = " ++ id
  | updatePictureSuffix .epoll suffix id =>
    "update User set pictureSuffix='" ++ suffix ++ "' where id='" ++ id ++ "'"
  | updatePictureSuffix .boost suffix id =>
    "update User set pictureSuffix='" ++ suffix ++ "' where id=" ++ id
  | insertMessage sendId receiveId messageType message =>
    "insert into Message(sendId, receiveId, messageType, message, time) values('" ++ sendId ++
      "', '" ++ receiveId ++ "', '" ++ messageType ++ "', '" ++ message ++ "', (select now()))"
  | updatePreviewSuffix suffix id =>
    "update Video set previewSuffix = '" ++ suffix ++ "' where id = '" ++ id ++ "'"
  | insertVideo id publisherId videoSuffix profile =>
    "insert into Video(id, publisherId, videoSuffix, profile, time) values('" ++ id ++ "', '" ++
      publisherId ++ "', '" ++ videoSuffix ++ "', '" ++ profile ++ "',(select now()))"
  | selectFollowers userId => "select followerId from Follow where userId = " ++ userId
  | insertVideoPush userId videoId =>
    "insert into VideoPush Values('" ++ userId ++ "', '" ++ videoId ++ "')"
  | selectComments videoId =>
    "select * from Comment where videoId=" ++ videoId ++ " order by time desc"
  | selectVideos offset num =>
    "select * from Video limit " ++ toString offset ++ "," ++ toString num
  | countVideoLikes videoId userId =>
    "select count(distinct userId),(select if(count(*)=1,true,false) from VideoLike where videoId=" ++
      videoId ++ " and userId=" ++ userId ++ ") from VideoLike where videoId=" ++ videoId
  | selectFollows followerId => "select userId from Follow where followerId=" ++ followerId
  | selectFans userId => "select followerId from Follow where userId=" ++ userId
  | selectNickName id => "select nickName from User where id=" ++ id
  | selectUserVideos publisherId => "select id from Video where publisherId=" ++ publisherId
  | selectUserVideoLikes userId => "select videoId from VideoLike where userId=" ++ userId
  | selectMessages userId1 userId2 =>
    "select * from (select * from Message where sendId = " ++ userId1 ++ " and receiveId = " ++
      userId2 ++ " union select * from Message where sendId = " ++ userId2 ++
      " and receiveId = " ++ userId1 ++ ") as t order by time desc"
  | selectVideoPush userId => "select videoId from VideoPush where userId = " ++ userId
  | selectPublisher id => "select publisherId from Video where id = " ++ id
  | deleteVideoPush userId => "delete from VideoPush where userId = " ++ userId
  | selectPictureSuffix id => "select pictureSuffix from User where id=" ++ id
  | selectVideoFile id => "select videoSuffix,publisherId from Video where id=" ++ id
  | selectPreviewSuffix id => "select previewSuffix from Video where id=" ++ id
  | insertComment id replyCommentId publisherId videoId content =>
    "insert into Comment(id, replyCommentId, publisherId, videoId, content, time) values('" ++ id ++
      "', '" ++ replyCommentId ++ "', '" ++ publisherId ++ "','" ++ videoId ++ "','" ++ content ++
      "',(select now()))"
  | selectVideoSuffix id => "select videoSuffix from Video where id=" ++ id
  | deleteVideo id => "delete from Video where id = " ++ id
  | deleteVideoLikes videoId => "delete from VideoLike where videoId = " ++ videoId
  | insertVideoLike videoId userId =>
    "insert into VideoLike values('" ++ videoId ++ "','" ++ userId ++ "')"
  | deleteVideoLike videoId userId =>
    "delete from VideoLike where videoId=" ++ videoId ++ " and userId=" ++ userId
  | insertCommentLike commentId userId =>
    "insert into CommentLike values('" ++ commentId ++ "','" ++ userId ++ "')"
  | deleteCommentLike commentId userId =>
    "delete from CommentLike where videoId=" ++ commentId ++ " and userId=" ++ userId
  | insertFollow userId followerId =>
    "insert into Follow values('" ++ userId ++ "','" ++ followerId ++ "')"
  | deleteFollow userId followerId =>
    "delete from Follow where userId=" ++ userId ++ " and followerId=" ++ followerId
  | updateNickName nickName id => "update User set nickName = '" ++ nickName ++ "' where id =" ++ id
  | updateProfile profile id => "update Video set profile = '" ++ profile ++ "' where id =" ++ id

/-- The table a statement changes, if it is one that changes a table. -/
def changes : Command → Option Table
  | insertUser .. | updatePictureSuffix .. | updateNickName .. => some .User
  | insertVideo .. | updatePreviewSuffix .. | deleteVideo .. | updateProfile .. => some .Video
  | insertMessage .. => some .Message
  | insertComment .. => some .Comment
  | insertVideoLike .. | deleteVideoLike .. | deleteVideoLikes .. => some .VideoLike
  | insertCommentLike .. | deleteCommentLike .. => some .CommentLike
  | insertFollow .. | deleteFollow .. => some .Follow
  | insertVideoPush .. | deleteVideoPush .. => some .VideoPush
  | _ => none

end Command

/-! ### Packets -/

/-- `NetPacket`: a header with its purpose and the length of its message, and the message. -/
structure NetPacket where
  /-- `packetHeader.purpose`. -/
  purpose : Purpose
  /-- What `dataPacket.data` is the text of. -/
  message : Json

/-- `FileNetPacket`, and how many bytes of it are to be sent. -/
structure FileNetPacket where
  /-- `packetHeader.data_size`. -/
  data_size : ℕ
  /-- What `fileInfo` is the text of. -/
  fileInfo : Json
  /-- `fileData`. -/
  fileData : List UInt8
  /-- The length given to `my_send` or `boost::asio::write`. -/
  length : ℤ

/-- `FILE_BUF_SIZE`. -/
def FILE_BUF_SIZE : ℕ := 1024 * 1024 * 1024

/-- `PROFILE_PICTURE_URL`. -/
def PROFILE_PICTURE_URL : String := "/root/my_test/MyServer/cache/profilePicture/"

/-- `CHAT_PICTURE_URL`. -/
def CHAT_PICTURE_URL : String := "/root/my_test/MyServer/cache/chatPicture/"

/-- `PREVIEW_PICTURE_URL`. -/
def PREVIEW_PICTURE_URL : String := "/root/my_test/MyServer/cache/previewPicture/"

/-- `VIDEO_URL`. -/
def VIDEO_URL : String := "/opt/nginx-video/"

/-- `NET_VIDEO_URL`, which only `MyServer`'s overload uses. -/
def NET_VIDEO_URL (server : Server) : String :=
  match server with
  | .epoll => "http://192.168.156.74/"
  | .boost => "http://127.0.0.1/"

/-! ### Effects -/

/-- An effect of a handler. -/
inductive Effect where
  /-- `DbBroker::query_store`. -/
  | query_store (command : Command)
  /-- `DbBroker::query_execute`. -/
  | query_execute (command : Command)
  /-- `my_send` or `boost::asio::write`. -/
  | send (p : NetPacket)
  /-- The same, of a file. -/
  | sendFile (p : FileNetPacket)
  /-- A header on its own: there is no such file. -/
  | sendNoFile
  /-- `IdWorker::nextId`. -/
  | nextId
  /-- `UserStatusEvaluator::set_0`. -/
  | set_0
  /-- `UserStatusEvaluator::add_userId`. -/
  | add_userId (userId : String)
  /-- `stat`, for the size of a file. -/
  | stat (path : String)
  /-- An `ifstream`, for the first bytes of a file. -/
  | readFile (path : String) (size : ℕ)
  /-- An `ofstream`. -/
  | writeFile (path : String) (data : List UInt8)
  /-- `remove`, of a file. -/
  | removeFile (path : String)
  /-- `LiveListMonitor::add`. -/
  | addLive (id url : String)
  /-- `LiveListMonitor::remove`. -/
  | removeLive (id : String)
  /-- `LiveListMonitor::getLiveList`. -/
  | getLiveList

/-- The answer to an effect. -/
@[reducible] def Effect.Answer : Effect → Type
  | query_store _ => Option (List Row)
  | query_execute _ => Bool
  | send _ | sendFile _ | sendNoFile => Bool
  | nextId => Option ℕ
  | set_0 | add_userId _ => Bool
  | stat _ => Option ℕ
  | readFile _ _ => Option (List UInt8)
  | writeFile _ _ => Unit
  | removeFile _ => Bool
  | addLive _ _ | removeLive _ => Unit
  | getLiveList => List (String × String)

/-- A handler. It fails where an exception leaves it, or where it writes past the end of a
buffer. -/
abbrev Handler (α : Type) := Program Effect Effect.Answer α

namespace Handler

/-- An effect, for its answer. -/
def perform (e : Effect) : Handler e.Answer := Program.call e Program.ret

@[simp] theorem perform_bind {α : Type} (e : Effect) (f : e.Answer → Handler α) :
    perform e >>= f = Program.call e f := rfl

/-- `query_store`: the rows, nothing where the query fails. -/
def query_store (command : Command) : Handler (Option (List Row)) := perform (.query_store command)

/-- `query_execute`. -/
def query_execute (command : Command) : Handler Bool := perform (.query_execute command)

/-- `nextId`, which throws where the clock has gone back. -/
def nextId : Handler ℕ := perform .nextId >>= Program.ofOption

/-- `at` throws where the connection has no entry. -/
def found (ok : Bool) : Handler Unit := if ok then Program.ret () else Program.fail

/-- `set_0`. -/
def set_0 : Handler Unit := perform .set_0 >>= found

/-- `add_userId`. -/
def add_userId (userId : String) : Handler Unit := perform (.add_userId userId) >>= found

/-- The member of a message, as a `string`. -/
def str (jsonMsg : Json) (key : String) : Handler String := Program.ofOption (jsonMsg.string key)

theorem str_eq {jsonMsg : Json} {key value : String} (h : jsonMsg.string key = some value) :
    str jsonMsg key = Program.ret value := by
  rw [str, h, Program.ofOption_some]

/-- A cell of a row; `Row::at` throws where there is none. -/
def cell (row : Row) (i : ℕ) : Handler String := Program.ofOption row.cells[i]?

/-- A cell of the first row of an answer; empty if there is no row, or the query fails. -/
def firstCell (res : Option (List Row)) (i : ℕ) : Handler String :=
  match res with
  | some (row :: _) => cell row i
  | _ => pure ""

/-- What a handler does with the outcome of a send: `boost::asio::write` throws where
`my_send` returns -1, which no handler looks at. -/
def sent (server : Server) (ok : Bool) : Handler Unit :=
  if server = .boost ∧ ok = false then Program.fail else Program.ret ()

/-- Sends a packet. -/
def send (server : Server) (p : NetPacket) : Handler Unit :=
  perform (.send p) >>= sent server

theorem meets_perform {allowed : Effect → Prop} {e : Effect} (h : allowed e) :
    (perform e).Meets allowed fun _ => True :=
  ⟨h, fun _ => trivial⟩

/-- The outcome of a send has no effect. -/
theorem meets_sent {allowed : Effect → Prop} (server : Server) (ok : Bool) :
    (sent server ok).Meets allowed fun _ => True := by
  unfold sent
  split <;> trivial

end Handler

end PickUpLight.Control
