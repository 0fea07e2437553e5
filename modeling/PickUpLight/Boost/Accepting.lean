import PickUpLight.Boost.Server

/-!
# Accepting connections

`BoostServer::start_accept` (`boostserver.cpp`) starts one `async_accept`, and the completion
handler calls it again as its last act: a chain that is to go on "until the program ends". Before
that the handler asks the new socket for its remote endpoint, enters the socket into the evaluator's
map, makes a `Session`, the constructor of which asks for the endpoint again, and starts it. A
socket whose peer has gone has no remote endpoint: `remote_endpoint` throws, nothing catches the
exception, and it leaves the thread.

The handlers run on the threads of the `io_context`, and other threads take sockets off the map in
between. `accepting_iff`: the chain holds, and every socket entered has its session, exactly as long
as every socket asked has an endpoint.
-/

namespace PickUpLight.Boost

open PickUpLight.Theory PickUpLight.Control PickUpLight.Heartbeat

/-- Where a completion handler is, with its socket. -/
inductive Point where
  /-- It prints the remote endpoint. -/
  | log (k : ℕ)
  /-- `UserStatusEvaluator::add`. -/
  | add (k : ℕ)
  /-- The constructor of `Session` asks for the remote endpoint. -/
  | session (k : ℕ)
  /-- `Session::start`. -/
  | start (k : ℕ)
  /-- `start_accept`. -/
  | start_accept
  deriving DecidableEq, Repr

namespace Point

/-- The handler asks for the remote endpoint. -/
def asks : Point → Bool
  | log _ | session _ => true
  | _ => false

/-- The handler has entered the socket, and its session is not started yet. -/
def Holds (p : Point) (k : ℕ) : Prop := p = session k ∨ p = start k

end Point

/-- The acceptor and its handlers. -/
structure Acceptor where
  /-- How many sockets have been made. -/
  made : ℕ
  /-- The sockets for which an `async_accept` is outstanding. -/
  outstanding : List ℕ
  /-- The completion handlers that run. -/
  handlers : List Point
  /-- `m_map_boost`. -/
  m_map_boost : Registry ℕ
  /-- History: the sockets entered into the map. -/
  entered : List ℕ
  /-- The sockets with a started session. -/
  sessions : List ℕ
  /-- An exception has left a thread. -/
  terminated : Bool

/-- What happens next. -/
inductive Accept where
  /-- An `async_accept` completes, in success or with an error. -/
  | complete (k : ℕ) (ok : Bool)
  /-- Handler `i` goes on; its socket may have a remote endpoint or not. -/
  | run (i : ℕ) (connected : Bool)
  /-- A session that ends, or the sweep, takes a socket off the map. -/
  | remove (k : ℕ)
  deriving DecidableEq, Repr

namespace Acceptor

/-- `start_accept`. -/
def start_accept (s : Acceptor) : Acceptor :=
  { s with made := s.made + 1, outstanding := s.outstanding ++ [s.made] }

/-- After `launch`. -/
def initial : Acceptor :=
  { made := 0, outstanding := [], handlers := [], m_map_boost := ∅, entered := [], sessions := [],
    terminated := false : Acceptor }.start_accept

/-- Handler `i` goes on. -/
def goTo (s : Acceptor) (i : ℕ) (p : Point) : Acceptor := { s with handlers := s.handlers.set i p }

/-- Handler `i` ends. -/
def leave (s : Acceptor) (i : ℕ) : Acceptor := { s with handlers := s.handlers.eraseIdx i }

/-- `remote_endpoint`, after which the handler goes on, or an exception leaves it. -/
def remote_endpoint (s : Acceptor) (i : ℕ) (connected : Bool) (p : Point) : Acceptor :=
  if connected then s.goTo i p else { s.leave i with terminated := true }

/-- The completion handler. -/
def run (s : Acceptor) (i : ℕ) (connected : Bool) : Point → Acceptor
  | .log k => s.remote_endpoint i connected (.add k)
  | .add k =>
    { s with m_map_boost := s.m_map_boost.add k "", entered := s.entered ++ [k] }.goTo i
      (.session k)
  | .session k => s.remote_endpoint i connected (.start k)
  | .start k => { s with sessions := s.sessions ++ [k] }.goTo i .start_accept
  | .start_accept => (s.leave i).start_accept

end Acceptor

/-- **The acceptor as a machine.** -/
def accepting : Machine Acceptor Accept := fun s move =>
  if s.terminated then none
  else
    match move with
    | .complete k ok =>
      if k ∈ s.outstanding then
        some { s with
          outstanding := s.outstanding.erase k
          handlers := s.handlers ++ [if ok then .log k else .start_accept] }
      else none
    | .run i connected => s.handlers[i]?.map (s.run i connected)
    | .remove k => some { s with m_map_boost := s.m_map_boost.remove k }

/-- **The chain is whole**: once the handlers have run, one `async_accept` is outstanding, and every
socket entered has a started session. -/
def Armed (s : Acceptor) : Prop :=
  s.handlers = [] → s.outstanding.length = 1 ∧ ∀ k ∈ s.entered, k ∈ s.sessions

/-- A socket that is asked for its remote endpoint has one. -/
def Connected (s : Acceptor) : Accept → Prop
  | .run i connected => ∀ p ∈ s.handlers[i]?, p.asks = true → connected = true
  | _ => True

/-! ### The chain -/

/-- The chain has one link: an `async_accept` that is outstanding, or a handler that runs. -/
structure Chained (s : Acceptor) : Prop where
  /-- The link. -/
  link : s.outstanding.length + s.handlers.length = 1
  /-- The sockets entered. -/
  started : ∀ k ∈ s.entered, k ∈ s.sessions ∨ ∃ p ∈ s.handlers, p.Holds k
  /-- The map. -/
  entered : ∀ k ∈ s.m_map_boost, k ∈ s.entered

variable {s s' : Acceptor} {move : Accept}

theorem Chained.armed (h : Chained s) : Armed s := by
  intro hnone
  have hlink := h.link
  rw [hnone] at hlink
  refine ⟨hlink, fun k hk => ?_⟩
  rcases h.started k hk with hsession | ⟨p, hp, -⟩
  · exact hsession
  · rw [hnone] at hp
    cases hp

theorem chained_initial : Chained Acceptor.initial := by
  refine ⟨rfl, ?_, ?_⟩
  · intro k hk
    cases hk
  · intro k hk
    exact absurd hk (AList.notMem_empty k)

/-- A handler that runs is the link. -/
theorem Chained.running {i : ℕ} {p : Point} (h : Chained s) (hp : s.handlers[i]? = some p) :
    i = 0 ∧ s.handlers = [p] ∧ s.outstanding = [] := by
  have hlink := h.link
  have hi : i < s.handlers.length := (List.getElem?_eq_some_iff.mp hp).1
  have hone : s.handlers.length = 1 := by omega
  obtain ⟨q, hq⟩ := List.length_eq_one_iff.mp hone
  obtain rfl : i = 0 := by omega
  rw [hq] at hp
  obtain rfl : q = p := Option.some.inj hp
  exact ⟨rfl, hq, List.eq_nil_of_length_eq_zero (by omega)⟩

/-- A completion takes the operation for the link, and the handler is the next. -/
theorem Chained.complete {k : ℕ} (h : Chained s) (hk : k ∈ s.outstanding) (p : Point) :
    Chained { s with outstanding := s.outstanding.erase k, handlers := s.handlers ++ [p] } := by
  have hpos : 0 < s.outstanding.length := List.length_pos_of_mem hk
  have hlink := h.link
  refine ⟨?_, fun j hj => ?_, h.entered⟩
  · rw [List.length_erase_of_mem hk, List.length_append, List.length_singleton]
    omega
  · refine (h.started j hj).imp_right ?_
    rintro ⟨q, hq, hholds⟩
    exact ⟨q, List.mem_append_left _ hq, hholds⟩

/-- What takes a socket off the map leaves the chain alone. -/
theorem Chained.remove (h : Chained s) (k : ℕ) :
    Chained { s with m_map_boost := s.m_map_boost.remove k } := by
  refine ⟨h.link, h.started, fun j hj => ?_⟩
  exact h.entered j (AList.mem_erase.mp hj).2

/-- The handler that is the link comes to its next point. -/
theorem chained_goTo {p q : Point} (hhandlers : s.handlers = [p])
    (houtstanding : s.outstanding = []) (hstarted : ∀ k ∈ s.entered, k ∈ s.sessions ∨ q.Holds k)
    (hentered : ∀ k ∈ s.m_map_boost, k ∈ s.entered) :
    Chained (s.goTo 0 q) := by
  refine ⟨?_, fun k hk => ?_, hentered⟩
  · simp only [Acceptor.goTo, hhandlers, houtstanding, List.set_cons_zero, List.length_nil,
      List.length_singleton]
  · simpa [Acceptor.goTo, hhandlers] using hstarted k hk

/-- **What one step of a handler preserves**: a handler that is refused nothing goes on, and at its
end starts the next `async_accept`. -/
theorem Chained.run {i : ℕ} {connected : Bool} {p : Point} (h : Chained s)
    (hp : s.handlers[i]? = some p)
    (hasks : p.asks = true → connected = true) : Chained (s.run i connected p) := by
  obtain ⟨rfl, hhandlers, houtstanding⟩ := h.running hp
  have hstarted : ∀ k ∈ s.entered, k ∈ s.sessions ∨ p.Holds k := by
    intro k hk
    simpa [hhandlers] using h.started k hk
  cases p with
  | log k =>
    obtain rfl : connected = true := hasks rfl
    refine chained_goTo hhandlers houtstanding (fun j hj => .inl ?_) h.entered
    exact (hstarted j hj).resolve_right (by simp [Point.Holds])
  | add k =>
    -- from here on the socket is on the map, and the handler is what stands for its session
    refine chained_goTo hhandlers houtstanding (fun j hj => ?_) (fun j hj => ?_)
    · rcases List.mem_append.mp hj with hj | hj
      · exact .inl ((hstarted j hj).resolve_right (by simp [Point.Holds]))
      · exact .inr (.inl (congrArg Point.session (List.mem_singleton.mp hj).symm))
    · rw [List.mem_append, List.mem_singleton]
      exact (Registry.mem_add.mp hj).symm.imp_left (h.entered j)
  | session k =>
    obtain rfl : connected = true := hasks rfl
    refine chained_goTo hhandlers houtstanding (fun j hj => (hstarted j hj).imp_right ?_) h.entered
    simp [Point.Holds]
  | start k =>
    refine chained_goTo hhandlers houtstanding (fun j hj => .inl ?_) h.entered
    rw [List.mem_append, List.mem_singleton]
    refine (hstarted j hj).imp_right ?_
    simp [Point.Holds, eq_comm]
  | start_accept =>
    refine ⟨?_, fun j hj => .inl ?_, h.entered⟩
    · simp [Acceptor.run, Acceptor.leave, Acceptor.start_accept, hhandlers, houtstanding]
    · exact (hstarted j hj).resolve_right (by simp [Point.Holds])

/-- An exception leaves the thread. -/
theorem run_throw {p : Point} (hasks : p.asks = true) (i : ℕ) :
    s.run i false p = { s.leave i with terminated := true } := by
  cases p with
  | log k | session k => rfl
  | add k | start k | start_accept => cases hasks

/-- It leaves no link behind. -/
theorem Chained.not_armed_of_throw {i : ℕ} {p : Point} (h : Chained s)
    (hp : s.handlers[i]? = some p) (hasks : p.asks = true) : ¬ Armed (s.run i false p) := by
  obtain ⟨rfl, hhandlers, houtstanding⟩ := h.running hp
  intro harmed
  rw [run_throw hasks] at harmed
  have hnone : ({ s.leave 0 with terminated := true } : Acceptor).handlers = [] := by
    simp [Acceptor.leave, hhandlers]
  have hlink : s.outstanding.length = 1 := (harmed hnone).1
  rw [houtstanding] at hlink
  cases hlink

/-! ### Runs -/

theorem not_terminated (hstep : accepting s move = some s') : s.terminated = false := by
  by_contra hterminated
  unfold accepting at hstep
  rw [if_pos (Bool.eq_true_of_not_eq_false hterminated)] at hstep
  cases hstep

/-- The moves. -/
theorem accepting_cases (hstep : accepting s move = some s') :
    (∃ k ok, move = .complete k ok ∧ k ∈ s.outstanding ∧ s' = { s with
      outstanding := s.outstanding.erase k
      handlers := s.handlers ++ [if ok then .log k else .start_accept] }) ∨
    (∃ i connected p, move = .run i connected ∧ s.handlers[i]? = some p ∧
      s' = s.run i connected p) ∨
    ∃ k, move = .remove k ∧ s' = { s with m_map_boost := s.m_map_boost.remove k } := by
  unfold accepting at hstep
  split at hstep
  · cases hstep
  · cases move with
    | complete k ok =>
      obtain ⟨hk, hs⟩ := Option.ite_none_right_eq_some.mp hstep
      exact .inl ⟨k, ok, rfl, hk, (Option.some.inj hs).symm⟩
    | run i connected =>
      obtain ⟨p, hp, hs⟩ := Option.map_eq_some_iff.mp hstep
      exact .inr (.inl ⟨i, connected, p, rfl, hp, hs.symm⟩)
    | remove k => exact .inr (.inr ⟨k, rfl, (Option.some.inj hstep).symm⟩)

/-- **What a move preserves**, when all sockets asked have an endpoint. -/
theorem Chained.step (h : Chained s) (hconnected : Connected s move)
    (hstep : accepting s move = some s') :
    Chained s' := by
  obtain ⟨k, ok, rfl, hk, rfl⟩ | ⟨i, connected, p, rfl, hp, rfl⟩ | ⟨k, rfl, rfl⟩ :=
    accepting_cases hstep
  · exact h.complete hk _
  · exact h.run hp (hconnected p hp)
  · exact h.remove k

/-- A socket without an endpoint is asked for it by a handler. -/
theorem throws (hno : ¬ Connected s move) (hstep : accepting s move = some s') :
    ∃ i p, s.handlers[i]? = some p ∧ p.asks = true ∧ s' = s.run i false p := by
  obtain ⟨k, ok, rfl, hk, rfl⟩ | ⟨i, connected, p, rfl, hp, rfl⟩ | ⟨k, rfl, rfl⟩ :=
    accepting_cases hstep
  · exact absurd trivial hno
  · obtain ⟨hasks, rfl⟩ : p.asks = true ∧ connected = false := by simpa [Connected, hp] using hno
    exact ⟨i, p, hp, hasks, rfl⟩
  · exact absurd trivial hno

/-- The chain is as it should be, or the process is gone. -/
def ChainedOrGone (s : Acceptor) : Prop := s.terminated = true ∨ Chained s

theorem ChainedOrGone.chained (h : ChainedOrGone s) (hstep : accepting s move = some s') :
    Chained s :=
  h.resolve_left (by simp [not_terminated hstep])

theorem ChainedOrGone.step (h : ChainedOrGone s) (hstep : accepting s move = some s') :
    ChainedOrGone s' := by
  by_cases hconnected : Connected s move
  · exact .inr ((h.chained hstep).step hconnected hstep)
  · obtain ⟨i, p, -, hasks, rfl⟩ := throws hconnected hstep
    rw [run_throw hasks]
    exact .inl rfl

/-- A move keeps the chain whole exactly when no exception leaves the handler. -/
theorem ChainedOrGone.armed_iff (h : ChainedOrGone s) (hstep : accepting s move = some s') :
    Armed s' ↔ Connected s move := by
  have hchained := h.chained hstep
  refine ⟨fun harmed => ?_, fun hconnected => (hchained.step hconnected hstep).armed⟩
  by_contra hno
  obtain ⟨i, p, hp, hasks, rfl⟩ := throws hno hstep
  exact hchained.not_armed_of_throw hp hasks harmed

/-- **Accepting goes on as long as no socket asked has lost its endpoint**: in a run, the handlers
always leave one `async_accept` outstanding, and a session for every socket they enter, exactly when
every call of `remote_endpoint` finds one. -/
theorem accepting_iff (moves : List Accept) (s : Acceptor)
    (hrun : accepting.exec Acceptor.initial moves = some s) :
    accepting.Along Armed Acceptor.initial moves ↔
      accepting.Guarded Connected Acceptor.initial moves :=
  accepting.along_iff_guarded (I := ChainedOrGone) (fun _ _ _ h hstep => h.step hstep)
    (fun _ _ _ h _ hstep => h.armed_iff hstep) (.inr chained_initial) chained_initial.armed hrun

/-- What a client that stays has done. -/
def staying (k : ℕ) : List Accept :=
  [.complete k true, .run 0 true, .run 0 true, .run 0 true, .run 0 true, .run 0 true]

/-- **A client that stays is accepted**, as the server takes it to be in one move: its socket is on
the map, its session is started, and the next client is waited for. -/
theorem exec_staying (lib : Nlohmann) {k : ℕ} (hidle : s.handlers = [])
    (houtstanding : s.outstanding = [k]) (hlive : s.terminated = false) {t : System}
    (hmap : t.evaluator.m_map_boost = s.m_map_boost) (hk : t.clients.length = k)
    (hserving : t.evaluator.terminated = false) :
    ∃ s' t', accepting.exec s (staying k) = some s' ∧ serving lib t .accept = some t' ∧
      t'.evaluator.m_map_boost = s'.m_map_boost ∧ s'.sessions = s.sessions ++ [k] ∧
      t'.clients = t.clients ++ [{ isOpen := true, chain := .receiving }] ∧
      s'.handlers = [] ∧ s'.outstanding = [s.made] := by
  obtain ⟨made, outstanding, handlers, m_map_boost, entered, sessions, terminated⟩ := s
  obtain rfl : handlers = [] := hidle
  obtain rfl : outstanding = [k] := houtstanding
  obtain rfl : terminated = false := hlive
  have haccept : serving lib t .accept = some { t with
      evaluator :=
        { t.evaluator with m_map_boost := t.evaluator.m_map_boost.add t.clients.length "" }
      clients := t.clients ++ [{ isOpen := true, chain := .receiving }] } := by
    simp [serving, hserving]
  let accepted : Acceptor := {
    made := made + 1
    outstanding := [made]
    handlers := []
    m_map_boost := m_map_boost.add k ""
    entered := entered ++ [k]
    sessions := sessions ++ [k]
    terminated := false }
  refine ⟨accepted, _, ?_, haccept, ?_, rfl, rfl, rfl, rfl⟩
  · simp [staying, accepting, Machine.exec, Acceptor.run, Acceptor.remote_endpoint, Acceptor.goTo,
      Acceptor.leave, Acceptor.start_accept, accepted]
  · rw [hmap, hk]

/-- The first client stays. -/
theorem accepting_iff_staying : accepting.Along Armed Acceptor.initial (staying 0) := by
  refine (accepting_iff (staying 0) _ rfl).mpr ?_
  have hmoves : ∀ move ∈ staying 0, ∀ i, move ≠ .run i false := by simp [staying]
  refine Machine.Guarded.mono accepting (fun t move hmove => ?_)
    (accepting.guarded_of_forall (G := fun move => ∀ i, move ≠ .run i false) hmoves)
  cases move with
  | run i connected =>
    intro p _ _
    exact Bool.eq_true_of_not_eq_false fun hgone => hmove i (hgone ▸ rfl)
  | complete k ok | remove k => trivial

/-- The first client has gone when its endpoint is to be printed. -/
def gone : List Accept := [.complete 0 true, .run 0 false]

/-- It goes a little later, and has gone when its session is made. -/
def goneLater : List Accept := [.complete 0 true, .run 0 true, .run 0 true, .run 0 false]

/-- **A client that goes at once stops the server from accepting**; if it goes a little later, its
socket is on the map without a session besides. -/
theorem accepting_stops :
    (∃ s, accepting.exec Acceptor.initial gone = some s ∧ s.handlers = [] ∧
      s.outstanding = [] ∧ ¬ Armed s) ∧
    ∃ s, accepting.exec Acceptor.initial goneLater = some s ∧ s.handlers = [] ∧ s.outstanding = [] ∧
      s.entered = [0] ∧ s.sessions = [] ∧ ¬ Armed s := by
  refine ⟨⟨_, rfl, rfl, rfl, fun harmed => ?_⟩, _, rfl, rfl, rfl, rfl, rfl, fun harmed => ?_⟩
  · cases (harmed rfl).1
  · cases (harmed rfl).1

end PickUpLight.Boost
