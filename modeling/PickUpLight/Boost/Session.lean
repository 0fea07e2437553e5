import PickUpLight.Heartbeat.Evaluator
import PickUpLight.Theory.Machine
import PickUpLight.Wire.Config

/-!
# A session

`Session` (`session.cpp`) serves one connection of the Boost server. `processClientRequest`
starts an `async_receive` of a header; its completion handler calls `processSingleRequest`,
which reads what the header announces with the blocking `boost::asio::read` and calls the
handler of the purpose, and then starts the next `async_receive`.

## The model

The state is the connection (bytes on their way, bytes that have arrived, what follows the
last of them), the socket, its entry in the evaluator's map, and the session: its header,
which is one piece of memory for all requests and is not initialised, and the point it
has come to. The environment decides how many bytes arrive when, with how many of
them an `async_receive` completes (any number up to the eight asked for: it is not
`async_read`), what the handlers meet, and when the evaluator evicts the connection.

The handlers are a parameter: what a handler does to the entry, or that it throws. An
exception that leaves a completion handler ends the process, and so does, at best, a write
past the end of a heap block. That `new char[...]` finds the memory asked for is assumed.
-/

namespace PickUpLight.Boost

open PickUpLight.Theory PickUpLight.Wire PickUpLight.Heartbeat

/-- What follows the last byte of a client. -/
inductive Fault where
  /-- The connection is closed in order. -/
  | eof
  /-- Any other error, by its number; `operation_aborted` is what the server's own `close`
  causes, and no client. -/
  | other (value : ℕ)
  deriving DecidableEq, Repr

/-- Where a session is. -/
inductive Phase where
  /-- An `async_receive` of a header is under way. -/
  | receiving
  /-- It reads an ordinary packet. -/
  | body
  /-- It reads the description of a file. -/
  | fileInfo
  /-- It has the description and reads the file. -/
  | fileData (info : List UInt8)
  /-- A handler runs. -/
  | handling (call : Call)
  /-- No operation is under way: the chain of callbacks has ended. -/
  | ended
  /-- An exception has left a completion handler. -/
  | escaped
  /-- A read has written past the end of its heap block. -/
  | overrun
  deriving DecidableEq

/-- A session and its connection. -/
structure Session where
  /-- The bytes on their way. -/
  incoming : List UInt8
  /-- The bytes that have arrived and have not been read. -/
  avail : List UInt8
  /-- What follows the last byte, if anything. -/
  fault : Option Fault
  /-- The socket is open. -/
  isOpen : Bool
  /-- The socket's entry in `m_map_boost`. -/
  entry : Option Info
  /-- The memory of the header. -/
  m_pheader : RawHeader
  /-- Where the session is. -/
  phase : Phase
  /-- History: what the handlers were given. -/
  calls : List Call
  deriving DecidableEq

/-- What happens next. -/
inductive Event (H : Type) where
  /-- `n` bytes arrive. -/
  | arrive (n : ℕ)
  /-- The `async_receive` completes with `n` bytes. -/
  | receive (n : ℕ)
  /-- The `async_receive` completes with an error. -/
  | receiveError
  /-- The `read` completes. -/
  | read
  /-- The `read` throws. -/
  | readError
  /-- The handler runs, and meets `h`. -/
  | handle (h : H)
  /-- The evaluator evicts the connection. -/
  | evict
  deriving DecidableEq, Repr

/-- The handlers: from what they are given, whether the socket is open, its entry, and what
they meet, the entry afterwards, or nothing if they throw. -/
def Handlers (H : Type) := Call → Bool → Option Info → H → Option (Option Info)

/-- A session that has just been started: the client sends `bytes`, and then `fault`. -/
def Session.start (raw : RawHeader) (bytes : List UInt8) (fault : Option Fault) : Session where
  incoming := bytes
  avail := []
  fault := fault
  isOpen := true
  entry := some { ip := "", userId := "", num := 0 }
  m_pheader := raw
  phase := .receiving
  calls := []

namespace Session

/-- `pheader`. -/
def header (s : Session) : NetPacketHeader := s.m_pheader.header

/-- The handler is called with what has been read. -/
def hand (s : Session) (payload : List UInt8) : Session :=
  let call : Call := { header := s.header, payload := payload }
  { s with phase := .handling call, calls := s.calls ++ [call] }

/-- `processSingleRequest`, up to its first `read`. -/
def processSingleRequest (s : Session) : Session :=
  match Purpose.ofCode s.header.purpose with
  | none => { s with phase := .receiving }
  | some .Heart => s.hand []
  | some .SendFile => { s with phase := .fileInfo }
  | some _ => { s with phase := .body }

/-- The number of bytes the `read` under way asks for: an ordinary packet is limited by its
buffer. -/
def wanted (s : Session) : ℕ :=
  match s.phase with
  | .body => min s.header.data_size.toNat BUF_SIZE
  | .fileInfo => BUF_SIZE
  | .fileData _ => s.header.data_size.toNat
  | _ => 0

/-- A `read` is under way. -/
def reading (s : Session) : Bool :=
  match s.phase with
  | .body | .fileInfo | .fileData _ => true
  | _ => false

theorem reading_iff {s : Session} : s.reading = true ↔
    s.phase = .body ∨ s.phase = .fileInfo ∨ ∃ info, s.phase = .fileData info := by
  unfold reading
  cases s.phase <;> simp

/-- The file's block, of `data_size + 1` bytes, has fewer than `data_size`: the sum is
unsigned. -/
def overflows (s : Session) : Bool :=
  match s.phase with
  | .fileData _ => (s.header.data_size + 1).toNat < s.header.data_size.toNat
  | _ => false

/-- `processSingleRequest`, after a `read` of `data`. -/
def afterRead (s : Session) (data : List UInt8) : Session :=
  match s.phase with
  | .body =>
    if refused (Int32.ofNat data.length) s.header.data_size then { s with phase := .receiving }
    else s.hand data
  | .fileInfo => { s with phase := .fileData data }
  | .fileData info =>
    if refused (Int32.ofNat data.length) s.header.data_size then { s with phase := .receiving }
    else s.hand (info ++ data)
  | _ => s

theorem afterRead_body {s : Session} {data : List UInt8} (hp : s.phase = .body)
    (hok : refused (Int32.ofNat data.length) s.header.data_size = false) :
    s.afterRead data = s.hand data := by
  simp only [afterRead, hp, hok, Bool.false_eq_true, if_false]

theorem afterRead_fileInfo {s : Session} (hp : s.phase = .fileInfo) (data : List UInt8) :
    s.afterRead data = { s with phase := .fileData data } := by
  simp only [afterRead, hp]

theorem afterRead_fileData {s : Session} {info data : List UInt8} (hp : s.phase = .fileData info)
    (hok : refused (Int32.ofNat data.length) s.header.data_size = false) :
    s.afterRead data = s.hand (info ++ data) := by
  simp only [afterRead, hp, hok, Bool.false_eq_true, if_false]

/-- The completion handler's branch for errors. -/
def receiveError (s : Session) : Option Session :=
  if s.isOpen then
    if s.avail = [] ∧ s.incoming = [] then
      match s.fault with
      | some .eof => some { s with entry := none, isOpen := false, phase := .ended }
      | some (.other _) => some { s with phase := .ended }
      | none => none
    else none
  -- `operation_aborted`, or the error of a receive on a closed socket
  else some { s with phase := .ended }

/-- The session has come to its end. -/
def done (s : Session) : Bool :=
  match s.phase with
  | .ended | .escaped | .overrun => true
  | _ => false

end Session

/-- **A session as a machine.** -/
def session {H : Type} (run : Handlers H) : Machine Session (Event H) := fun s event =>
  match event with
  | .arrive n =>
    if 0 < n ∧ n ≤ s.incoming.length then
      some { s with avail := s.avail ++ s.incoming.take n, incoming := s.incoming.drop n }
    else none
  | .receive n =>
    if s.phase = .receiving ∧ s.isOpen ∧ 0 < n ∧ n ≤ headerSize ∧ n ≤ s.avail.length then
      some { s with
        m_pheader := s.m_pheader.overwrite (s.avail.take n)
        avail := s.avail.drop n }.processSingleRequest
    else none
  | .receiveError => if s.phase = .receiving then s.receiveError else none
  | .read =>
    if s.reading then
      if s.overflows ∧ s.avail ≠ [] then some { s with phase := .overrun }
      else if (s.isOpen ∨ s.wanted = 0) ∧ s.wanted ≤ s.avail.length then
        some ({ s with avail := s.avail.drop s.wanted }.afterRead (s.avail.take s.wanted))
      else none
    else none
  | .readError =>
    if s.reading ∧ ¬ (s.overflows ∧ s.avail ≠ []) ∧ (s.isOpen = false ∧ s.wanted ≠ 0 ∨
        s.avail.length < s.wanted ∧ s.incoming = [] ∧ s.fault.isSome) then
      some { s with phase := .escaped }
    else none
  | .handle h =>
    match s.phase with
    | .handling call =>
      match run call s.isOpen s.entry h with
      | some entry => some { s with entry := entry, phase := .receiving }
      | none => some { s with phase := .escaped }
    | _ => none
  | .evict =>
    if s.entry.isSome ∧ !s.done then some { s with entry := none, isOpen := false } else none

end PickUpLight.Boost
