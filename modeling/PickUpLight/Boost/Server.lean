import PickUpLight.Control.Dispatch
import PickUpLight.Heartbeat.Sweep
import PickUpLight.Live.LiveListMonitor

/-!
# The Boost server

`BoostServer` (`boostserver.cpp`) starts a session for each connection it accepts. The sessions run
on the threads of one `io_context`, each as a chain of callbacks, one at a time; the heartbeat
thread (`start_boost`) evicts. They take turns, one effect of a handler or one operation on shared
data at a time.

A session is known by its socket, an object of its own, so here sockets, sessions and connections
are one thing, the position in a list. How a session gets the bytes of its requests is in `Session`;
here a request comes as a whole.
-/

namespace PickUpLight.Boost

open PickUpLight.Theory PickUpLight.Wire PickUpLight.Control PickUpLight.Heartbeat PickUpLight.Live

/-- What the chain of callbacks does next. -/
inductive Chain where
  /-- An `async_receive` is under way. -/
  | receiving
  /-- It runs a handler. -/
  | handling (p : Handler Unit)
  /-- `UserStatusEvaluator::remove`: the client has closed the connection. -/
  | remove
  /-- `close`. -/
  | close
  /-- It has ended. -/
  | ended

/-- A connection and its session. -/
structure Client where
  /-- The socket is open. -/
  isOpen : Bool
  /-- The session. -/
  chain : Chain

/-- The server. -/
structure System where
  /-- The clients ever accepted. -/
  clients : List Client
  /-- `m_map_boost`, and the sweep. -/
  evaluator : Evaluator ℕ
  /-- The socket the heartbeat thread has taken off the map, and is about to close. -/
  closing : Option ℕ
  /-- The live list. -/
  streams : Streams

/-- A move. -/
inductive Move where
  /-- A connection is accepted, and its session started. -/
  | accept
  /-- A request has come from client `i`. -/
  | request (i : ℕ) (call : Call)
  /-- The handler for client `i` goes on; its effect may be answered by `h`. -/
  | effect (i : ℕ) (h : (e : Effect) → e.Answer)
  /-- An exception leaves the completion handler of client `i`: a `read` has thrown. -/
  | throw (i : ℕ)
  /-- The `async_receive` of client `i` completes with `eof`. -/
  | eof (i : ℕ)
  /-- The `async_receive` of client `i` completes with another error. -/
  | error (i : ℕ)
  /-- The session of client `i` goes on taking the connection down. -/
  | step (i : ℕ)
  /-- The sweep starts with a copy. -/
  | copy
  /-- The sweep comes to a socket of the copy. -/
  | visit (i : ℕ)
  /-- The heartbeat thread closes the socket it evicts. -/
  | evict
  /-- The sweep has come to the end of the copy. -/
  | done

/-- Before the first connection. -/
def System.initial : System where
  clients := []
  evaluator := Evaluator.initial
  closing := none
  streams := Streams.initial

namespace System

/-- An exception leaves a thread. -/
def terminate (s : System) : System :=
  { s with evaluator := { s.evaluator with terminated := true } }

/-- Client `i` goes on. -/
def setClient (s : System) (i : ℕ) (c : Client) : System := { s with clients := s.clients.set i c }

/-- `close`, of a socket. -/
def close (s : System) (i : ℕ) : System :=
  { s with clients := s.clients.modify i fun c => { c with isOpen := false } }

/-- A handler goes on. -/
def effect (s : System) (i : ℕ) (c : Client) (h : (e : Effect) → e.Answer) : Handler Unit → System
  | .ret _ => s.setClient i { c with chain := .receiving }
  | .fail => s.terminate
  | .call e next =>
    let done := performFor i i s.evaluator.m_map_boost s.streams h e
    { s with
      evaluator := { s.evaluator with m_map_boost := done.1.1 }
      streams := done.1.2 }.setClient i { c with chain := .handling (next done.2) }

/-- The steps of a session that takes its connection down. -/
def step (s : System) (i : ℕ) (c : Client) : Option System :=
  match c.chain with
  | .remove =>
    some ({ s with evaluator := { s.evaluator with
      m_map_boost := s.evaluator.m_map_boost.remove i } }.setClient i { c with chain := .close })
  | .close => some (s.setClient i { c with isOpen := false, chain := .ended })
  | _ => none

end System

/-- **The server as a machine.** -/
def serving (lib : Nlohmann) : Machine System Move := fun s move =>
  if s.evaluator.terminated then none
  else
    match move with
    | .accept =>
      some { s with
        evaluator :=
          { s.evaluator with m_map_boost := s.evaluator.m_map_boost.add s.clients.length "" }
        clients := s.clients ++ [{ isOpen := true, chain := .receiving }] }
    | .request i call =>
      (s.clients[i]?).bind fun c =>
        match c.chain with
        | .receiving =>
          if c.isOpen then some
          (s.setClient i { c with chain := .handling (dispatch lib .boost call) }) else none
        | _ => none
    | .effect i h =>
      (s.clients[i]?).bind fun c =>
        match c.chain with
        | .handling p => some (s.effect i c h p)
        | _ => none
    | .throw i =>
      (s.clients[i]?).bind fun c =>
        match c.chain with
        | .receiving => some s.terminate
        | _ => none
    | .eof i =>
      (s.clients[i]?).bind fun c =>
        match c.chain with
        | .receiving => if c.isOpen then some (s.setClient i { c with chain := .remove }) else none
        | _ => none
    | .error i =>
      (s.clients[i]?).bind fun c =>
        match c.chain with
        | .receiving => some (s.setClient i { c with chain := .ended })
        | _ => none
    | .step i => (s.clients[i]?).bind fun c => s.step i c
    | .copy =>
      if s.closing = none ∧ s.evaluator.map_copy.isNone then
        some { s with evaluator := { s.evaluator with map_copy := some s.evaluator.m_map_boost } }
      else none
    | .visit i =>
      match s.closing, s.evaluator.map_copy with
      | none, some copy =>
        (copy.lookup i).map fun (data : Info) =>
          { s with
            evaluator := { s.evaluator with map_copy := some (copy.erase i) }.visit i data
            closing := if data.num = 3 then some i else none }
      | _, _ => none
    | .evict =>
      match s.closing with
      | some i => some { s.close i with closing := none }
      | none => none
    | .done =>
      if s.closing = none ∧ s.evaluator.map_copy.map AList.keys = some [] then
        some { s with evaluator := { s.evaluator with map_copy := none } }
      else none

end PickUpLight.Boost
