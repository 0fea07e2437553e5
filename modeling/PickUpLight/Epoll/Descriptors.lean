import PickUpLight.Control.Dispatch
import PickUpLight.Epoll.MyServer
import PickUpLight.Heartbeat.Sweep
import PickUpLight.Live.LiveListMonitor

/-!
# Descriptors

The event loop, the tasks and the heartbeat thread of `MyServer` know a connection by its file
descriptor, a number. The kernel gives a number that is not open to the next connection it
accepts, whoever may still remember it for an earlier one.

## The model

The event loop (`launch`, `processSingleConnect`) accepts connections and turns events into tasks;
a task (`processClientRequest`) reads requests, has their handlers run, and has epoll watch the
connection again or takes it down; the heartbeat thread (`start`) evicts. They take turns, one
system call or one operation on shared data at a time. A `recv` is two moves: it looks up its
descriptor, and later returns what has come on that connection, even if the descriptor has been
closed since. Which bytes come, and whether and how a `recv` fails, is up to the environment.
Between two `recv`s a task does what the connection of `MyServer` does (`Task.after`).
-/

namespace PickUpLight.Epoll

open PickUpLight.Theory PickUpLight.Wire PickUpLight.Control PickUpLight.Heartbeat PickUpLight.Live

/-! ### Tasks -/

/-- What a task does next. -/
inductive Stage where
  /-- It waits for a thread of the pool. -/
  | queued
  /-- It calls `recv`. -/
  | calling (dest : Dest) (t : Transfer)
  /-- It is in a `recv` on a connection. -/
  | reading (dest : Dest) (t : Transfer) (conn : ℕ)
  /-- It runs a handler. -/
  | handling (p : Handler Unit)
  /-- `EpollOperator::addFd`, and it returns. -/
  | addFd
  /-- `UserStatusEvaluator::get_ip`: the connection has ended. -/
  | get_ip
  /-- `UserStatusEvaluator::get_userId`. -/
  | get_userId
  /-- `LiveListMonitor::remove`. -/
  | removeLive (userId : String)
  /-- `UserStatusEvaluator::remove`. -/
  | remove
  /-- `EpollOperator::deleteFd`. -/
  | deleteFd
  /-- `close`, and it returns. -/
  | close
  /-- It has returned. -/
  | returned

/-- A task: `processClientRequest(fd)`. -/
structure Task where
  /-- The descriptor. -/
  fd : ℕ
  /-- The connection the task was started for; the task does not know it. -/
  conn : ℕ
  /-- The header of the request in hand. -/
  pheader : NetPacketHeader
  /-- What it does next. -/
  stage : Stage

/-- The task has not returned. -/
def Task.active (t : Task) : Bool :=
  match t.stage with
  | .returned => false
  | _ => true

/-- What a task does next, from where a connection is; nothing where it has brought the process
down. -/
def Stage.ofPhase (lib : Nlohmann) : Phase → Option Stage
  | .watched => some .addFd
  | .receiving dest t => some (.calling dest t)
  | .handling call => some (.handling (dispatch lib .epoll call))
  | .closed => some .get_ip
  | .dropped => some .returned
  | .escaped | .smashed => none

/-- The task after a piece of `processClientRequest` without system calls. -/
def Task.after (lib : Nlohmann) (t : Task) (piece : Conn → Conn) : Option Task :=
  let s := piece { Conn.start "" [] none with pheader := t.pheader }
  (Stage.ofPhase lib s.phase).map fun stage => { t with pheader := s.pheader, stage := stage }

/-! ### The system -/

/-- A connection. -/
structure Connection where
  /-- Its descriptor. -/
  fd : ℕ
  /-- The descriptor has not been closed. -/
  isOpen : Bool
  deriving DecidableEq, Repr

/-- What the event loop does next. -/
inductive Loop where
  /-- It takes the next event, or waits for some. -/
  | polling
  /-- `ThreadPool::add_task`, for an event of a connection. -/
  | add_task (fd conn : ℕ)
  /-- `UserStatusEvaluator::add`, of a connection just accepted. -/
  | add (fd : ℕ)
  /-- `EpollOperator::addFd`, of a connection just accepted. -/
  | addFd (fd : ℕ)
  deriving DecidableEq, Repr

/-- What the heartbeat thread does next. -/
inductive Beat where
  /-- It goes on with its sweep. -/
  | sweeping
  /-- `EpollOperator::deleteFd`, of a connection it evicts. -/
  | deleteFd (fd : ℕ)
  /-- `close`, of a connection it evicts. -/
  | close (fd : ℕ)
  deriving DecidableEq, Repr

/-- The server. -/
structure System where
  /-- The connections ever accepted. -/
  connections : List Connection
  /-- The descriptors epoll watches. -/
  interest : List ℕ
  /-- The events `epoll_wait` has returned and the loop has not come to: the descriptor, and the
  connection it was. -/
  evs : List (ℕ × ℕ)
  /-- The event loop. -/
  loop : Loop
  /-- The tasks ever started. -/
  tasks : List Task
  /-- `m_map`, and the sweep. -/
  evaluator : Evaluator ℕ
  /-- The heartbeat thread. -/
  beat : Beat
  /-- The live list. -/
  streams : Streams
  /-- History: a task started for the first connection has read bytes of, removed the entry of or
  closed the second. -/
  touched : List (ℕ × ℕ)

/-- `MAX_EPOLL_EVENTS`. -/
def MAX_EPOLL_EVENTS : ℕ := 10

/-- A move. -/
inductive Move where
  /-- `accept` returns a descriptor. -/
  | accept (fd : ℕ)
  /-- The loop adds the connection to the evaluator's map. -/
  | add (ip : String)
  /-- The loop has epoll watch it. -/
  | addFd
  /-- `epoll_wait` returns events. -/
  | wait (fds : List ℕ)
  /-- The loop takes the next event, and has epoll no longer watch the descriptor. -/
  | deleteFd
  /-- The loop puts the task into the pool. -/
  | add_task
  /-- A thread of the pool runs task `i`. -/
  | start (i : ℕ)
  /-- Task `i` calls `recv`. -/
  | recv (i : ℕ)
  /-- The `recv` of task `i` returns. -/
  | recvReturn (i : ℕ) (outcome : Outcome)
  /-- The handler task `i` runs goes on; its effect may be answered by `h`. -/
  | effect (i : ℕ) (h : (e : Effect) → e.Answer)
  /-- Task `i` has epoll watch the connection again, or goes on taking it down. -/
  | step (i : ℕ)
  /-- The sweep starts with a copy. -/
  | copy
  /-- The sweep comes to a descriptor of the copy. -/
  | visit (fd : ℕ)
  /-- The heartbeat thread goes on evicting. -/
  | evict
  /-- The sweep has come to the end of the copy. -/
  | done

/-- Before the first connection. -/
def System.initial : System where
  connections := []
  interest := []
  evs := []
  loop := .polling
  tasks := []
  evaluator := Evaluator.initial
  beat := .sweeping
  streams := Streams.initial
  touched := []

namespace System

/-- The connection that has a descriptor. -/
def holder (s : System) (fd : ℕ) : Option ℕ :=
  s.connections.findIdx? fun c => c.isOpen && c.fd == fd

/-- `m_map`. -/
def m_map (s : System) : Registry ℕ := s.evaluator.m_map_boost

/-- `EpollOperator::addFd`, which fails for a descriptor that is watched or is not open. -/
def addFd (s : System) (fd : ℕ) : System :=
  if (s.holder fd).isSome ∧ fd ∉ s.interest then { s with interest := s.interest ++ [fd] } else s

/-- `EpollOperator::deleteFd`. -/
def deleteFd (s : System) (fd : ℕ) : System := { s with interest := s.interest.filter (· ≠ fd) }

/-- `close`; what is closed is watched no longer. -/
def close (s : System) (fd : ℕ) : System :=
  { s.deleteFd fd with
    connections := s.connections.map fun c => if c.fd = fd then { c with isOpen := false } else c }

/-- An exception leaves a thread, or memory is overwritten. -/
def terminate (s : System) : System :=
  { s with evaluator := { s.evaluator with terminated := true } }

/-- Task `i` goes on. -/
def setTask (s : System) (i : ℕ) : Option Task → System
  | some t => { s with tasks := s.tasks.set i t }
  | none => s.terminate

/-- A task has touched a connection, if there was one to touch. -/
def touch (s : System) (t : Task) (conn : Option ℕ) : System :=
  { s with touched := s.touched ++ conn.toList.map fun c => (t.conn, c) }

/-- A task looks up its entry with `at`. -/
def lookupEntry (s : System) (i : ℕ) (t : Task) (next : Info → Stage) : System :=
  s.setTask i ((s.m_map.lookup t.fd).map fun info => { t with stage := next info })

/-- The steps of a task that are neither a `recv` nor a handler's. -/
def step (s : System) (i : ℕ) (t : Task) : Option System :=
  match t.stage with
  | .addFd => some ((s.addFd t.fd).setTask i (some { t with stage := .returned }))
  | .get_ip => some (s.lookupEntry i t fun _ => .get_userId)
  | .get_userId => some (s.lookupEntry i t fun info => .removeLive info.userId)
  | .removeLive userId =>
    some ({ s with streams := s.streams.stop userId }.setTask i (some { t with stage := .remove }))
  | .remove =>
    let owner := (s.m_map.lookup t.fd).bind fun _ => s.holder t.fd
    some (({ s with evaluator := { s.evaluator with m_map_boost := s.m_map.remove t.fd } }.touch t
      owner).setTask i
      (some { t with stage := .deleteFd }))
  | .deleteFd => some ((s.deleteFd t.fd).setTask i (some { t with stage := .close }))
  | .close =>
    some (((s.close t.fd).touch t (s.holder t.fd)).setTask i (some { t with stage := .returned }))
  | _ => none

/-- What a `recv` can return: no more than is asked for, and `EAGAIN` only where it must not
block. -/
def CanReturn (dest : Dest) (t : Transfer) : Outcome → Prop
  | .bytes data => 0 < data.length ∧ data.length ≤ t.bytes_left
  | .failed again => again = true → dest = .header
  | _ => True

instance (dest : Dest) (t : Transfer) (outcome : Outcome) :
    Decidable (CanReturn dest t outcome) := by
  unfold CanReturn
  split <;> infer_instance

/-- The connection a `recv` has read bytes of. -/
def readOf (conn : ℕ) : Outcome → Option ℕ
  | .bytes _ => some conn
  | _ => none

/-- A task calls `recv`: its descriptor is looked up. -/
def recv (lib : Nlohmann) (s : System) (i : ℕ) (t : Task) (dest : Dest) (transfer : Transfer) :
    System :=
  match s.holder t.fd with
  | some c => s.setTask i (some { t with stage := .reading dest transfer c })
  | none => s.setTask i (t.after lib fun conn => conn.turn dest (transfer.after (.failed false)))

/-- A handler goes on. -/
def effect (lib : Nlohmann) (s : System) (i : ℕ) (t : Task) (h : (e : Effect) → e.Answer) :
    Handler Unit → System
  | .ret _ => s.setTask i (t.after lib Conn.nextHeader)
  | .fail => s.terminate
  | .call e next =>
    let done := performFor t.fd t.conn s.m_map s.streams h e
    { s with
      evaluator := { s.evaluator with m_map_boost := done.1.1 }
      streams := done.1.2 }.setTask i (some { t with stage := .handling (next done.2) })

end System

/-- **The server as a machine.** -/
def serving (lib : Nlohmann) : Machine System Move := fun s move =>
  if s.evaluator.terminated then none
  else
    match move with
    | .accept fd =>
      if s.loop = .polling ∧ s.holder fd = none then
        some { s with
          connections := s.connections ++ [{ fd := fd, isOpen := true }]
          loop := .add fd }
      else none
    | .add ip =>
      match s.loop with
      | .add fd =>
        some { s with
          evaluator := { s.evaluator with m_map_boost := s.m_map.add fd ip }
          loop := .addFd fd }
      | _ => none
    | .addFd =>
      match s.loop with
      | .addFd fd => some { s.addFd fd with loop := .polling }
      | _ => none
    | .wait fds =>
      if s.loop = .polling ∧ s.evs = [] ∧ fds.Nodup ∧ (∀ fd ∈ fds, fd ∈ s.interest) ∧
          fds.length ≤ MAX_EPOLL_EVENTS then
        some { s with evs := fds.filterMap fun fd => (s.holder fd).map fun c => (fd, c) }
      else none
    | .deleteFd =>
      match s.loop, s.evs with
      | .polling, (fd, c) :: evs => some { s.deleteFd fd with evs := evs, loop := .add_task fd c }
      | _, _ => none
    | .add_task =>
      match s.loop with
      | .add_task fd c =>
        let t : Task :=
          { fd := fd, conn := c, pheader := { purpose := 0, data_size := 0 }, stage := .queued }
        some { s with tasks := s.tasks ++ [t], loop := .polling }
      | _ => none
    | .start i =>
      (s.tasks[i]?).bind fun t =>
        match t.stage with
        | .queued => some (s.setTask i (t.after lib Conn.nextHeader))
        | _ => none
    | .recv i =>
      (s.tasks[i]?).bind fun t =>
        match t.stage with
        | .calling dest transfer => some (s.recv lib i t dest transfer)
        | _ => none
    | .recvReturn i outcome =>
      (s.tasks[i]?).bind fun t =>
        match t.stage with
        | .reading dest transfer c =>
          if System.CanReturn dest transfer outcome then
            some ((s.touch t (System.readOf c outcome)).setTask i
              (t.after lib fun conn => conn.turn dest (transfer.after outcome)))
          else none
        | _ => none
    | .effect i h =>
      (s.tasks[i]?).bind fun t =>
        match t.stage with
        | .handling p => some (s.effect lib i t h p)
        | _ => none
    | .step i => (s.tasks[i]?).bind fun t => s.step i t
    | .copy =>
      if s.beat = .sweeping ∧ s.evaluator.map_copy.isNone then
        some { s with evaluator := { s.evaluator with map_copy := some s.m_map } }
      else none
    | .visit fd =>
      match s.beat, s.evaluator.map_copy with
      | .sweeping, some copy =>
        (copy.lookup fd).map fun (data : Info) =>
          { s with
            evaluator := { s.evaluator with map_copy := some (copy.erase fd) }.visit fd data
            beat := if data.num = 3 then .deleteFd fd else .sweeping }
      | _, _ => none
    | .evict =>
      match s.beat with
      | .sweeping => none
      | .deleteFd fd => some { s.deleteFd fd with beat := .close fd }
      | .close fd => some { s.close fd with beat := .sweeping }
    | .done =>
      if s.beat = .sweeping ∧ s.evaluator.map_copy.map AList.keys = some [] then
        some { s with evaluator := { s.evaluator with map_copy := none } }
      else none

end PickUpLight.Epoll
