import PickUpLight.Control.NetPacketGenerator

/-!
# Registration and login

`InitControl` (`initcontrol.cpp`) and the branches of `processSingleRequest` that call it.
-/

namespace PickUpLight.Control

open PickUpLight.Theory PickUpLight.Wire Handler

namespace InitControl

variable (lib : Nlohmann) (server : Server)

/-- The id and the password of a message; `parse` and the conversions throw. -/
def account (strMsg : List UInt8) : Option (String × String) :=
  (lib.parse strMsg).bind fun jsonMsg => (jsonMsg.string "id").bind fun id =>
    (jsonMsg.string "pw").map fun pw => (id, pw)

/-- `do_register`, with the id and the password. -/
def registerAccount (id pw : String) : Handler Bool := do
  /- 检测账号是否重复 -/
  match ← query_store (.selectUserId id) with
  | some [] => query_execute (.insertUser id pw)
  | _ => pure false

def do_register (strMsg : List UInt8) : Handler Bool := do
  let (id, pw) ← Program.ofOption (account lib strMsg)
  registerAccount id pw

/-- `do_login`, with the id and the password. -/
def loginAccount (id pw : String) : Handler Bool := do
  /- 检测密码是否正确 -/
  match ← query_store (.selectPw id) with
  | some (row :: _) =>
    if pw = (← cell row 0) then
      add_userId id
      pure true
    else pure false
  | _ => pure false

def do_login (strMsg : List UInt8) : Handler Bool := do
  let (id, pw) ← Program.ofOption (account lib strMsg)
  loginAccount id pw

/-- The branch for `Register`. -/
def register (strMsg : List UInt8) : Handler Unit := do
  let p ← NetPacketGenerator.register_P lib (← do_register lib strMsg)
  send server p

/-- The branch for `Login`. -/
def login (strMsg : List UInt8) : Handler Unit := do
  let p ← NetPacketGenerator.login_P lib (← do_login lib strMsg)
  send server p

end InitControl

end PickUpLight.Control
