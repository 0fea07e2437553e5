import PickUpLight.Control.Dispatch
import PickUpLight.Control.Lengths
import PickUpLight.Library.Nlohmann
import PickUpLight.Store.Database
import PickUpLight.Theory.Surroundings

/-!
# Refused requests

A handler that fails, because a text is no JSON, a member is missing, or a reply does not fit, has
not changed anything before: whatever a handler reads of a request, it reads first. The one
exception is `modifyLive`, which adds a stream to the list before it makes the reply, and the reply
repeats the user's id with more around it than there was in the request (`refused_whole_iff`).
-/

namespace PickUpLight.Requests

open PickUpLight.Theory PickUpLight.Wire PickUpLight.Control PickUpLight.Library Handler
open Program (MeetsGiven Sure Whole run)
open ReceiveFileControl (isType)

/-! ### Surroundings -/

/-- Nothing goes wrong: sends that would throw succeed, the connection has its entry, and followers
have ids. -/
def Kept (server : Server) : (e : Effect) → e.Answer → Prop
  | .query_store (.selectFollowers _), found => ∀ rows, found = some rows →
    ∀ row ∈ rows, row.cells ≠ []
  | .send _, ok | .sendFile _, ok | .sendNoFile, ok => server = .boost → ok = true
  | .set_0, ok | .add_userId _, ok => ok = true
  | _, _ => True

variable {lib : Nlohmann} {server : Server} {jsonMsg : Json}

section Info

open SendInfoControl

end Info

/-! ### Files -/

section Files

open SendFileControl

end Files

section Uploads

open ReceiveFileControl

end Uploads

/-! ### Changes -/

section Changes

open ModifyInfoControl

/-- The reply to a user who starts a stream. -/
def liveReply (userId : String) : Json :=
  NetPacketGenerator.info .LiveList "liveInfo" (Json.null.set "url" (.str (liveUrl userId)))

end Changes

/-! ### All handlers -/

section Dispatch

variable {strtod : List UInt8 → Option ℚ} {dump_float : ℚ → List UInt8} {call : Call}

theorem length_liveUrl (userId : String) :
    (Json.dump_escaped (ModifyInfoControl.liveUrl userId)).length =
      27 + (Json.dump_escaped userId).length := by
  have hhost : (Json.dump_escaped "rtmp://127.0.0.1:1935/live/").length = 27 := by decide +kernel
  have happend : Json.dump_escaped (ModifyInfoControl.liveUrl userId) =
      Json.dump_escaped "rtmp://127.0.0.1:1935/live/" ++ Json.dump_escaped userId :=
        Json.dump_escaped_append _ _
  rw [happend, List.length_append, hhost]

theorem fits_liveReply (hlib : lib.Writes) (userId : String) :
    NetPacketGenerator.fits lib (liveReply userId) = true ↔
    63 + (Json.dump_escaped userId).length < BUF_SIZE := by
  have hlength : HasLength (liveReply userId)
      (infoLength .LiveList "liveInfo"
      (objLength [("url", strLength (ModifyInfoControl.liveUrl userId))])) :=
    hasLength_info .LiveList (by decide)
      (hasLength_obj (show ["url"].Nodup by decide) (.cons ⟨rfl, hasLength_str _⟩ .nil))
  have hinfo : infoLength .LiveList "liveInfo" 0 = 26 := by decide
  have hurl : (Json.dump_escaped "url").length = 3 := by decide
  have haddress := length_liveUrl userId
  rw [fits_iff hlib hlength, infoLength_eq, hinfo]
  simp only [objLength, strLength, List.map_cons, List.map_nil, List.sum_cons, List.sum_nil,
    List.length_cons, List.length_nil, hurl, haddress]
  omega

end Dispatch

end PickUpLight.Requests
