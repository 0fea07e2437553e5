import PickUpLight.Heartbeat.Evaluator
import PickUpLight.Theory.Machine
import PickUpLight.Wire.Config
import PickUpLight.Wire.Transfer

/-!
# A connection of the epoll server

`MyServer` (`myserver.cpp`) watches its connections with epoll. When one becomes readable,
the event loop stops watching it and puts a task `processClientRequest(fd)` into the pool.
The task reads a header without blocking, then what the header announces, blocking,
calls the handler of the purpose, and starts over, until `my_recv` finds nothing to read
and reports an error: then it has epoll watch the connection again, and returns. The next
task starts afresh, with a header of its own.

## The model

The state is the connection, its registration with epoll, its entry in the evaluator's map,
and the point its task has come to; every system call `recv` is a step of its own. The
environment decides how many bytes arrive when, how many of them a `recv` returns, whether
a signal interrupts it, when epoll reports the connection, and what the handlers meet. As
with a session, the handlers are a parameter, an exception ends the process, and so does,
at best, a packet longer than its buffer on the stack.
-/

namespace PickUpLight.Epoll

open PickUpLight.Theory PickUpLight.Wire PickUpLight.Heartbeat

/-- What follows the last byte of a client. -/
inductive Fault where
  /-- The connection is closed in order. -/
  | eof
  /-- An error. -/
  | error
  deriving DecidableEq, Repr

/-- What a `my_recv` is for. -/
inductive Dest where
  /-- A header. -/
  | header
  /-- An ordinary packet. -/
  | body
  /-- The description of a file. -/
  | fileInfo
  /-- A file, with its description. -/
  | fileData (info : List UInt8)
  deriving DecidableEq, Repr

/-- Where a connection is. -/
inductive Phase where
  /-- Watched by epoll. -/
  | watched
  /-- Its task is in a `my_recv`. -/
  | receiving (dest : Dest) (t : Transfer)
  /-- Its task runs a handler. -/
  | handling (call : Call)
  /-- Closed by its task. -/
  | closed
  /-- Its task has returned, and nothing watches it. -/
  | dropped
  /-- An exception has left its task. -/
  | escaped
  /-- A packet has been written past the end of its buffer. -/
  | smashed
  deriving DecidableEq

/-- A connection and its task. -/
structure Conn where
  /-- The bytes on their way. -/
  incoming : List UInt8
  /-- The bytes that have arrived and have not been read. -/
  avail : List UInt8
  /-- What follows the last byte, if anything. -/
  fault : Option Fault
  /-- The connection's entry in `m_map`. -/
  entry : Option Info
  /-- The header of the request in hand. -/
  pheader : NetPacketHeader
  /-- Where the connection is. -/
  phase : Phase
  /-- History: what the handlers were given. -/
  calls : List Call
  /-- History: the users that were taken off the live list. -/
  livesRemoved : List String
  deriving DecidableEq

/-- What happens next. -/
inductive Event (H : Type) where
  /-- `n` bytes arrive. -/
  | arrive (n : ℕ)
  /-- Epoll reports the connection, and its task starts. -/
  | wake
  /-- A `recv` returns `n` bytes. -/
  | recv (n : ℕ)
  /-- A `recv` finds that the connection has ended, in order or with an error that has been
  reported before. -/
  | recvEof
  /-- A signal interrupts a `recv`. -/
  | recvInterrupted
  /-- A `recv` that must not block finds nothing: `EAGAIN`. -/
  | recvAgain
  /-- A `recv` fails. -/
  | recvError
  /-- The handler runs, and meets `h`. -/
  | handle (h : H)
  deriving DecidableEq, Repr

/-- The handlers: from what they are given, the connection's entry and what they meet, the
entry afterwards, or nothing if they throw. -/
def Handlers (H : Type) := Call → Option Info → H → Option (Option Info)

/-- A connection that has just been accepted: the client sends `bytes`, and then `fault`. -/
def Conn.start (ip : String) (bytes : List UInt8) (fault : Option Fault) : Conn where
  incoming := bytes
  avail := []
  fault := fault
  entry := some { ip := ip, userId := "", num := 0 }
  pheader := { purpose := 0, data_size := 0 }
  phase := .watched
  calls := []
  livesRemoved := []

/-- An unsigned length passed as an `int`. -/
def asInt (data_size : UInt32) : ℤ := data_size.toInt32.toInt

namespace Conn

/-- The task is at the head of its loop: it calls `my_recv` for a header. -/
def nextHeader (s : Conn) : Conn :=
  { s with phase := .receiving .header { length := headerSize, done := [] } }

/-- The handler is called with what has been read. -/
def hand (s : Conn) (payload : List UInt8) : Conn :=
  let call : Call := { header := s.pheader, payload := payload }
  { s with phase := .handling call, calls := s.calls ++ [call] }

/-- After `my_recv` of what is handed over: it has to have returned the length wanted. -/
def afterPayload (s : Conn) (ret : ℤ) (payload : List UInt8) : Conn :=
  if refused (Int32.ofInt ret) s.pheader.data_size then s.nextHeader else s.hand payload

/-- `my_recv` is called for the bytes to hand over, behind those in `front`. -/
def startPayload (s : Conn) (dest : Dest) (front : List UInt8) : Conn :=
  match Transfer.loop { length := asInt s.pheader.data_size, done := [] } with
  | .more t => { s with phase := .receiving dest t }
  | .returned ret done => s.afterPayload ret (front ++ done)

/-- `processSingleRequest`, up to its first `recv`. -/
def processSingleRequest (s : Conn) : Conn :=
  match Purpose.ofCode s.pheader.purpose with
  | none => s.nextHeader
  | some .Heart => s.hand []
  | some .SendFile => { s with phase := .receiving .fileInfo { length := BUF_SIZE, done := [] } }
  | some _ => s.startPayload .body []

/-- `processClientRequest`, after `my_recv` of a header. -/
def afterHeader (s : Conn) (ret : ℤ) (done : List UInt8) : Conn :=
  if ret > 0 then
    if ret ≠ headerSize then { s with phase := .dropped }
    else { s with pheader := NetPacketHeader.ofBytes done }.processSingleRequest
  else if ret = -1 then { s with phase := .watched }
  else
    match s.entry with
    | some info =>
      { s with entry := none, livesRemoved := s.livesRemoved ++ [info.userId], phase := .closed }
    | none => { s with phase := .escaped }

/-- What the task does after `my_recv`. -/
def afterRecv (s : Conn) (dest : Dest) (ret : ℤ) (done : List UInt8) : Conn :=
  match dest with
  | .header => s.afterHeader ret done
  | .body => s.afterPayload ret done
  | .fileInfo =>
    if ret = -1 ∨ ret = 0 ∨ ret ≠ BUF_SIZE then s.nextHeader
      else s.startPayload (.fileData done) done
  | .fileData info => s.afterPayload ret (info ++ done)

/-- The task after one `recv`. -/
def turn (s : Conn) (dest : Dest) : Transfer.Turn → Conn
  | .more t =>
    if dest = .body ∧ t.done.length > BUF_SIZE then { s with phase := .smashed }
    else { s with phase := .receiving dest t }
  | .returned ret done =>
    if dest = .body ∧ done.length > BUF_SIZE then { s with phase := .smashed }
    else s.afterRecv dest ret done

/-- The client has sent everything and it has been read; what follows is `fault`. -/
def atFault (s : Conn) (fault : Fault) : Prop :=
  s.avail = [] ∧ s.incoming = [] ∧ s.fault = some fault

instance (s : Conn) (fault : Fault) : Decidable (s.atFault fault) :=
  inferInstanceAs (Decidable (s.avail = [] ∧ s.incoming = [] ∧ s.fault = some fault))

end Conn

/-- **A connection as a machine.** -/
def conn {H : Type} (run : Handlers H) : Machine Conn (Event H) := fun s event =>
  match event with
  | .arrive n =>
    if 0 < n ∧ n ≤ s.incoming.length then
      some { s with avail := s.avail ++ s.incoming.take n, incoming := s.incoming.drop n }
    else none
  | .wake =>
    if s.phase = .watched ∧
      (s.avail ≠ [] ∨ s.atFault .eof ∨ s.atFault .error) then some s.nextHeader
    else none
  | .recv n =>
    match s.phase with
    | .receiving dest t =>
      if 0 < n ∧ n ≤ t.bytes_left ∧ n ≤ s.avail.length then
        some ({ s with avail := s.avail.drop n }.turn dest (t.after (.bytes (s.avail.take n))))
      else none
    | _ => none
  | .recvEof =>
    match s.phase with
    | .receiving dest t =>
      if s.atFault .eof ∨ s.atFault .error then some (s.turn dest (t.after .zero)) else none
    | _ => none
  | .recvInterrupted =>
    match s.phase with
    | .receiving dest t => some (s.turn dest (t.after .interrupted))
    | _ => none
  | .recvAgain =>
    match s.phase with
    | .receiving .header t =>
      if s.avail = [] ∧ ¬ s.atFault .eof ∧ ¬ s.atFault .error then
        some (s.turn .header (t.after (.failed true)))
      else none
    | _ => none
  | .recvError =>
    match s.phase with
    | .receiving dest t =>
      if s.atFault .error then some (s.turn dest (t.after (.failed false))) else none
    | _ => none
  | .handle h =>
    match s.phase with
    | .handling call =>
      match run call s.entry h with
      | some entry => some { s with entry := entry }.nextHeader
      | none => some { s with phase := .escaped }
    | _ => none

end PickUpLight.Epoll
