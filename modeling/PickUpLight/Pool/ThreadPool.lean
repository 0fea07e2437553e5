import PickUpLight.Theory.Machine
import Mathlib.Data.Int.Order.Basic

/-!
# The thread pool

`ThreadPool` (`threadpool.h`, `threadpool.cpp`): worker threads take tasks from a
queue under one mutex, sleep on one condition variable while the queue is empty, and a
manager thread adds or retires workers every three seconds.

## The model

The state is the object's fields, the point every thread is at, and the history a
reader of the program would write in the margin (what was accepted, popped, run,
detached and joined). What a thread does while it holds the mutex is one move; so is
a task, and so is each step of the destructor outside the lock. Workers are
numbered in the order they are created; slot `i` of `worker_threads` holds the number
of its thread, or nothing if it is not joinable. `poll_cond.wait` puts a worker at
`waiting`; `notify_one` takes some waiting worker (the move says which) to
`notified`, `notify_all` takes all of them. A `notified` worker goes on when it has
the mutex again, and a `waiting` one may do so spuriously.

`add_task(Task&)`, the overload the server calls, is the one modelled.
-/

namespace PickUpLight.Pool

open PickUpLight.Theory

/-- `MIN_THREAD_NUMBER`: how many workers the pool starts with and keeps. -/
def MIN_THREAD_NUMBER : ℕ := 3

/-- `CHANGE_THREAD_NUMBER`: how many workers the manager adds or retires at once. -/
def CHANGE_THREAD_NUMBER : ℕ := 2

/-- Where a worker is in `worker_execute`. -/
inductive Point (τ : Type) where
  /-- At the head of the loop, about to take the mutex. -/
  | top
  /-- Asleep in `poll_cond.wait`. -/
  | waiting
  /-- Notified, about to take the mutex again. -/
  | notified
  /-- It has popped the `k`-th task, and runs it without the mutex. -/
  | running (k : ℕ) (task : τ)
  /-- The task has returned; it is about to take the mutex for `busy_num--`. -/
  | finished
  /-- It has left `worker_execute`. -/
  | exited
  deriving DecidableEq, Repr

namespace Point

variable {τ : Type}

/-- It has not left `worker_execute`. -/
def alive : Point τ → Bool
  | .exited => false
  | _ => true

/-- It is between the pop of a task and `busy_num--`. -/
def busy : Point τ → Bool
  | .running _ _ | .finished => true
  | _ => false

/-- It sleeps, and has not been notified. -/
def asleep : Point τ → Bool
  | .waiting => true
  | _ => false

/-- It runs a task, is about to take the mutex, or has been notified. -/
def active : Point τ → Bool
  | .waiting | .exited => false
  | _ => true

/-- It still has to run the `k`-th task popped. -/
def holds (k : ℕ) : Point τ → Bool
  | .running j _ => j == k
  | _ => false

/-- What `notify_all` does to a worker. -/
def notify : Point τ → Point τ
  | .waiting => .notified
  | p => p

end Point

/-- Where the destructor is. -/
inductive Destructor where
  /-- It has not been called. -/
  | notCalled
  /-- It has set `shutdown` and joins the manager. -/
  | joiningManager
  /-- The manager is joined; it is about to notify all workers. -/
  | notifying
  /-- It joins the workers, and is at slot `i`. -/
  | joining (i : ℕ)
  /-- It has returned. -/
  | returned
  deriving DecidableEq, Repr

/-- The pool: its fields, its threads, and its history. -/
structure ThreadPool (τ : Type) where
  /-- The least number of workers. -/
  min_num : ℤ
  /-- The greatest number of workers. -/
  max_num : ℤ
  /-- The number of live workers. -/
  live_num : ℤ
  /-- The number of busy workers. -/
  busy_num : ℤ
  /-- The number of workers to retire. -/
  destroy_num : ℤ
  /-- The pool is being destroyed. -/
  shutdown : Bool
  /-- The queue of tasks. -/
  taskQ : List τ
  /-- The slots; a joinable slot holds the number of its worker. -/
  worker_threads : List (Option ℕ)
  /-- Where each worker is, in the order they were created. -/
  workers : List (Point τ)
  /-- The manager is still in its loop. -/
  managing : Bool
  /-- Where the destructor is. -/
  destructor : Destructor
  /-- History: the tasks accepted, in order. -/
  accepted : List τ
  /-- History: the tasks popped, in order, each with the worker that popped it. -/
  popped : List (ℕ × τ)
  /-- History: which popped task was run by which worker. -/
  ran : List (ℕ × ℕ)
  /-- History: the workers that called `detach_cur_thread`. -/
  detached : List ℕ
  /-- History: the slots the destructor joined. -/
  joined : List ℕ
  deriving DecidableEq, Repr

/-- The constructor, on a machine with `max_num` cores: the manager is started, the
vector has `max_num` slots, and the first `MIN_THREAD_NUMBER` of them get a worker. -/
def construct (τ : Type) (max_num : ℕ) : ThreadPool τ where
  min_num := MIN_THREAD_NUMBER
  max_num := max_num
  live_num := MIN_THREAD_NUMBER
  busy_num := 0
  destroy_num := 0
  shutdown := false
  taskQ := []
  worker_threads := (List.range max_num).map fun i => if i < MIN_THREAD_NUMBER then some i else none
  workers := List.replicate MIN_THREAD_NUMBER .top
  managing := true
  destructor := .notCalled
  accepted := []
  popped := []
  ran := []
  detached := []
  joined := []

namespace ThreadPool

variable {τ : Type}

/-- Worker `w` goes to `p`. -/
def setPoint (s : ThreadPool τ) (w : ℕ) (p : Point τ) : ThreadPool τ :=
  { s with workers := s.workers.set w p }

/-- `poll_cond.notify_one()`, which wakes `woken`: some waiting worker, or none if none
waits. -/
def notify_one (s : ThreadPool τ) : Option ℕ → Option (ThreadPool τ)
  | some w =>
    match s.workers[w]? with
    | some .waiting => some (s.setPoint w .notified)
    | _ => none
  | none => if s.workers.any Point.asleep then none else some s

/-- `poll_cond.notify_all()`. -/
def notify_all (s : ThreadPool τ) : ThreadPool τ :=
  { s with workers := s.workers.map Point.notify }

/-- `add_task`: a task is accepted unless the pool is shutting down. -/
def add_task (s : ThreadPool τ) (task : τ) (woken : Option ℕ) : Option (ThreadPool τ) :=
  if s.shutdown then some s
  else { s with taskQ := s.taskQ ++ [task], accepted := s.accepted ++ [task] }.notify_one woken

/-- The slots after `detach_cur_thread` in worker `w`: the first slot that holds `w` is
no longer joinable. -/
def detach_cur_thread (w : ℕ) : List (Option ℕ) → List (Option ℕ)
  | [] => []
  | slot :: slots => if slot = some w then none :: slots else slot :: detach_cur_thread w slots

/-- Worker `w`, holding the mutex, at the condition of its inner loop: it sleeps if there
is no task and no shutdown, leaves on shutdown, and otherwise takes a task. -/
def loopHead (s : ThreadPool τ) (w : ℕ) : ThreadPool τ :=
  if s.shutdown then s.setPoint w .exited
  else
    match s.taskQ with
    | [] => s.setPoint w .waiting
    | task :: taskQ =>
      { s with
        taskQ := taskQ
        busy_num := s.busy_num + 1
        popped := s.popped ++ [(w, task)] }.setPoint w (.running s.popped.length task)

/-- Worker `w` retires: it gives up its slot and leaves. -/
def retire (s : ThreadPool τ) (w : ℕ) : ThreadPool τ :=
  { s with
    live_num := s.live_num - 1
    worker_threads := detach_cur_thread w s.worker_threads
    detached := s.detached ++ [w] }.setPoint w .exited

/-- Worker `w` comes back from `poll_cond.wait` with the mutex: it retires if workers are
to be retired and there are more than the least number, and is at the condition of its
inner loop again if not. -/
def afterWait (s : ThreadPool τ) (w : ℕ) : ThreadPool τ :=
  if s.destroy_num > 0 then
    let s := { s with destroy_num := s.destroy_num - 1 }
    if s.live_num > s.min_num then s.retire w else s.loopHead w
  else s.loopHead w

/-- The manager's loop over the slots, from some slot on: every slot that is not joinable
gets a new worker, numbered `next` and on, until `count` workers have been added
or there are enough. The slots after it, and the number of workers added. -/
def growSlots (max_num : ℤ) : ℕ → ℤ → ℕ → List (Option ℕ) → List (Option ℕ) × ℕ
  | _, _, _, [] => ([], 0)
  | count, live_num, next, slot :: slots =>
    if count < CHANGE_THREAD_NUMBER ∧ live_num < max_num then
      match slot with
      | none =>
        let (slots, n) := growSlots max_num (count + 1) (live_num + 1) (next + 1) slots
        (some next :: slots, n + 1)
      | some w =>
        let (slots, n) := growSlots max_num count live_num next slots
        (some w :: slots, n)
    else (slot :: slots, 0)

/-- There are more tasks than workers, and room for workers. -/
def shouldGrow (s : ThreadPool τ) : Bool :=
  s.taskQ.length > s.live_num && s.live_num < s.max_num

/-- The manager's loop that adds workers. -/
def grow (s : ThreadPool τ) : ThreadPool τ :=
  let (slots, n) := growSlots s.max_num 0 s.live_num s.workers.length s.worker_threads
  { s with
    worker_threads := slots
    workers := s.workers ++ List.replicate n .top
    live_num := s.live_num + n }

/-- Fewer than half of the workers are busy, and there are more than the least number. -/
def shouldShrink (s : ThreadPool τ) : Bool :=
  s.busy_num * 2 < s.live_num && s.live_num > s.min_num

/-- The manager asks for retirements and notifies all workers. -/
def shrink (s : ThreadPool τ) : ThreadPool τ :=
  { s with destroy_num := CHANGE_THREAD_NUMBER }.notify_all

/-- The manager's first `if`. -/
def growIfNeeded (s : ThreadPool τ) : ThreadPool τ := if s.shouldGrow then s.grow else s

/-- The manager's second `if`. -/
def shrinkIfIdle (s : ThreadPool τ) : ThreadPool τ := if s.shouldShrink then s.shrink else s

/-- One round of `manager_execute`, with the mutex. -/
def tick (s : ThreadPool τ) : ThreadPool τ :=
  if s.shutdown then { s with managing := false }
  else s.growIfNeeded.shrinkIfIdle

/-- The destructor's next join: it waits for the worker of a joinable slot to leave, and
passes over a slot that is not joinable. -/
def join_worker (s : ThreadPool τ) (i : ℕ) : Option (ThreadPool τ) :=
  match s.worker_threads[i]? with
  | none => some { s with destructor := .returned }
  | some none => some { s with destructor := .joining (i + 1) }
  | some (some w) =>
    if s.workers[w]?.any Point.alive then none
    else some { s with
      worker_threads := s.worker_threads.set i none
      joined := s.joined ++ [i]
      destructor := .joining (i + 1) }

end ThreadPool

/-- A move of the pool. -/
inductive Move (τ : Type) where
  /-- Some thread calls `add_task`; `notify_one` wakes `woken`. -/
  | add_task (task : τ) (woken : Option ℕ)
  /-- Worker `w` takes the mutex at the head of its loop. -/
  | lock (w : ℕ)
  /-- Worker `w`, notified, comes back from `wait`. -/
  | wake (w : ℕ)
  /-- Worker `w`, not notified, comes back from `wait`. -/
  | spurious (w : ℕ)
  /-- Worker `w` runs its task to the end. -/
  | task (w : ℕ)
  /-- Worker `w` does `busy_num--`. -/
  | finish (w : ℕ)
  /-- The manager makes a round. -/
  | tick
  /-- The destructor sets `shutdown`. -/
  | destroy
  /-- The destructor joins the manager. -/
  | join_manager
  /-- The destructor notifies all workers. -/
  | notify_all
  /-- The destructor joins the worker of its slot. -/
  | join_worker
  deriving DecidableEq, Repr

/-- **The pool as a machine.** -/
def pool (τ : Type) : Machine (ThreadPool τ) (Move τ) := fun s m =>
  match m with
  | .add_task task woken => s.add_task task woken
  | .lock w =>
    match s.workers[w]? with
    | some .top => some (s.loopHead w)
    | _ => none
  | .wake w =>
    match s.workers[w]? with
    | some .notified => some (s.afterWait w)
    | _ => none
  | .spurious w =>
    match s.workers[w]? with
    | some .waiting => some (s.afterWait w)
    | _ => none
  | .task w =>
    match s.workers[w]? with
    | some (.running k _) => some ({ s with ran := s.ran ++ [(k, w)] }.setPoint w .finished)
    | _ => none
  | .finish w =>
    match s.workers[w]? with
    | some .finished => some ({ s with busy_num := s.busy_num - 1 }.setPoint w .top)
    | _ => none
  | .tick => if s.managing then some s.tick else none
  | .destroy =>
    if s.destructor = .notCalled then
      some { s with shutdown := true, destroy_num := 0, destructor := .joiningManager }
    else none
  | .join_manager =>
    if s.destructor = .joiningManager ∧ !s.managing then some { s with destructor := .notifying }
    else none
  | .notify_all =>
    if s.destructor = .notifying then some { s.notify_all with destructor := .joining 0 }
    else none
  | .join_worker =>
    match s.destructor with
    | .joining i => s.join_worker i
    | _ => none

end PickUpLight.Pool
