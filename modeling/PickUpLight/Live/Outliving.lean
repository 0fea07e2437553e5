import PickUpLight.Boost.Streams
import PickUpLight.Epoll.Streams
import PickUpLight.Replies.Descriptions

/-!
# Streams that outlive their connection

A stream is to be taken off the live list when the connection ends that started it. `MyServer`'s
tasks do so where the client closes the connection: they take off whoever the connection has last
logged in as. The sessions of the Boost server do not, and neither do the sweeps of either server
(`streams_outlive`). `noneOutlives_of_run` says which ends of connections are in time.
-/

namespace PickUpLight.Live

open PickUpLight.Theory PickUpLight.Wire PickUpLight.Control PickUpLight.Replies

/-- **Where no stream outlives its connection**, on either server. -/
theorem noneOutlives_of_run (lib : Nlohmann) :
    (∀ moves s, (Boost.serving lib).Guarded Boost.Timely Boost.System.initial moves →
      (Boost.serving lib).exec Boost.System.initial moves = some s →
      NoneOutlives s.Connected s.streams) ∧
    ∀ moves s, (Epoll.serving lib).Guarded Epoll.Timely Epoll.System.initial moves →
      (Epoll.serving lib).exec Epoll.System.initial moves = some s →
      NoneOutlives s.IsOpen s.streams :=
  ⟨fun _ _ => Boost.noneOutlives, fun _ _ => Epoll.noneOutlives⟩

/-! ### Runs in time -/

/-- A move of the Boost server is in time if all clients are connected that run handlers, and none
ends while someone is on the list. -/
def BoostCalm (s : Boost.System) : Boost.Move → Prop
  | .effect _ _ => ∀ c ∈ s.clients, c.isOpen = true
  | .eof _ | .error _ | .evict => s.streams.m_liveList.keys = []
  | _ => True

instance (s : Boost.System) (move : Boost.Move) : Decidable (BoostCalm s move) := by
  unfold BoostCalm
  split <;> infer_instance

theorem BoostCalm.timely {s : Boost.System} {move : Boost.Move} (h : BoostCalm s move) :
    Boost.Timely s move := by
  have hclear : ∀ i, s.streams.m_liveList.keys = [] → s.Clear i := by
    intro i hempty c u hshows
    have hmem := AList.mem_keys.mp hshows.1
    rw [hempty] at hmem
    cases hmem
  cases move with
  | effect i answer => exact fun c e next hc _ _ => h c (List.mem_of_getElem? hc)
  | eof i | error i => exact hclear i h
  | evict => exact fun i _ => hclear i h
  | _ => trivial

/-- A move of `MyServer` is in time if no claimed number is given away, the connections of all tasks
are open, every user has logged in on the connection that ends, and none is evicted while someone is
on the list. -/
def EpollCalm (s : Epoll.System) : Epoll.Move → Prop
  | .accept fd => ¬ s.Claimed fd
  | .effect _ _ => ∀ t ∈ s.tasks, (s.connections[t.conn]?).map Epoll.Connection.isOpen = some true
  | .step _ => ∀ t ∈ s.tasks, ∀ login ∈ s.streams.logins, ∀ info ∈ s.m_map.lookup t.fd,
    login.2 = info.userId
  | .evict => s.streams.m_liveList.keys = []
  | _ => True

instance (s : Epoll.System) : (move : Epoll.Move) → Decidable (EpollCalm s move)
  | .accept fd => inferInstanceAs (Decidable (¬ s.Claimed fd))
  | .effect _ _ => inferInstanceAs (Decidable (∀ t ∈ s.tasks,
      (s.connections[t.conn]?).map Epoll.Connection.isOpen = some true))
  | .step _ => inferInstanceAs (Decidable (∀ t ∈ s.tasks, ∀ login ∈ s.streams.logins,
      ∀ info ∈ s.m_map.lookup t.fd, login.2 = info.userId))
  | .evict => inferInstanceAs (Decidable (s.streams.m_liveList.keys = []))
  | .add _ | .addFd | .wait _ | .deleteFd | .add_task | .start _ | .recv _ | .recvReturn _
    _ | .copy | .visit _
  | .done => isTrue trivial

theorem EpollCalm.timely {s : Epoll.System} {move : Epoll.Move} (h : EpollCalm s move) :
    Epoll.Timely s move := by
  cases move with
  | accept fd => exact h
  | effect i answer =>
    intro t e next ht _ _
    obtain ⟨c, hc, hopen⟩ := Option.map_eq_some_iff.mp (h t (List.mem_of_getElem? ht))
    exact ⟨c, hc, hopen⟩
  | step i =>
    intro t info ht _ hentry c u _ hlogin
    exact .inl (congrArg some (h t (List.mem_of_getElem? ht) _ hlogin info hentry).symm)
  | evict =>
    intro fd i _ _ c u hshows
    have hmem := AList.mem_keys.mp hshows.1
    rw [h] at hmem
    cases hmem
  | _ => trivial

/-! ### Runs -/

/-- A login. -/
def loginMessage : Json := .obj [("id", .str "1"), ("pw", .str "a")]

/-- A stream is started. -/
def startMessage : Json :=
  .obj [("infotype", .int 6), ("userId", .str "1"), ("ifStart", .bool true)]

/-- A stream is stopped. -/
def stopMessage : Json :=
  .obj [("infotype", .int 6), ("userId", .str "1"), ("ifStart", .bool false)]

/-- A parser that knows these. -/
def knowingLive : Nlohmann := knowing [loginMessage, startMessage, stopMessage]

/-- A request with a message. -/
def callOf (purpose : Purpose) (message : Json) : Call where
  header := { purpose := purpose.code, data_size := UInt32.ofNat message.text.length }
  payload := message.text

/-- Answers with which the password is right, and all else goes well. -/
def granting : (e : Effect) → e.Answer
  | .query_store _ => some [{ number := 0, cells := ["a"] }]
  | .query_execute _ | .send _ | .sendFile _ | .sendNoFile | .set_0 | .add_userId _
    | .removeFile _ => true
  | .nextId => some 0
  | .stat _ => none
  | .readFile _ _ => none
  | .writeFile _ _ | .addLive _ _ | .removeLive _ => ()
  | .getLiveList => []

/-- A request to the Boost server, and `n` steps of its handler. -/
def asks (purpose : Purpose) (message : Json) (n : ℕ) : List Boost.Move :=
  .request 0 (callOf purpose message) :: List.replicate n (.effect 0 granting)

/-- A user logs in, starts a stream, stops it and closes the connection. -/
def boostRunInTime : List Boost.Move :=
  .accept :: asks .Login loginMessage 4 ++ asks .ModifyInfo startMessage 3 ++
    asks .ModifyInfo stopMessage 2 ++
    [.eof 0, .step 0, .step 0]

/-- A user logs in, starts a stream and closes the connection. -/
def boostRun : List Boost.Move :=
  .accept :: asks .Login loginMessage 4 ++ asks .ModifyInfo startMessage 3 ++
    [.eof 0, .step 0, .step 0]

/-- The stream is still on the list. -/
theorem boost_outlives :
    ∃ s, (Boost.serving knowingLive).exec Boost.System.initial boostRun = some s ∧
    s.clients.map Boost.Client.connected = [false] ∧ s.streams.starters.lookup "1" = some 0 ∧
    s.streams.logins = [(0, "1")] ∧ s.streams.m_liveList.keys = ["1"] :=
  ⟨_, rfl, rfl, rfl, rfl, rfl⟩

/-- A request to `MyServer`, which task 0 reads and handles in `n` steps before it looks for the
next. -/
def sends (purpose : Purpose) (message : Json) (n : ℕ) : List Epoll.Move :=
  let call := callOf purpose message
  [.recvReturn 0 (.bytes call.header.bytes), .recv 0, .recvReturn 0 (.bytes call.payload)] ++
    List.replicate n (.effect 0 granting) ++ [.recv 0]

/-- A user logs in, starts a stream and closes the connection, whose task takes it down. -/
def epollRunInTime : List Epoll.Move :=
  Epoll.connect 5 "192.168.0.1:1" 0 ++ sends .Login loginMessage 4 ++
    sends .ModifyInfo startMessage 3 ++
    [.recvReturn 0 .zero] ++ List.replicate 6 (.step 0)

/-- Where a client stops its stream itself, or a task does, it does not outlive the connection. -/
theorem noneOutlives_of_run_inTime :
    (∃ s, (Boost.serving knowingLive).exec Boost.System.initial boostRunInTime = some s ∧
      NoneOutlives s.Connected s.streams) ∧
    ∃ s, (Epoll.serving knowingLive).exec Epoll.System.initial epollRunInTime = some s ∧
      NoneOutlives s.IsOpen s.streams := by
  obtain ⟨s, hs⟩ : ∃ s, (Boost.serving knowingLive).exec Boost.System.initial boostRunInTime =
    some s := ⟨_, rfl⟩
  obtain ⟨t, ht⟩ : ∃ t, (Epoll.serving knowingLive).exec Epoll.System.initial epollRunInTime =
    some t := ⟨_, rfl⟩
  have hboost :
      (Boost.serving knowingLive).Guarded BoostCalm Boost.System.initial boostRunInTime := by decide
  have hepoll :
      (Epoll.serving knowingLive).Guarded EpollCalm Epoll.System.initial epollRunInTime := by decide
  obtain ⟨hruns, hruns'⟩ := noneOutlives_of_run knowingLive
  exact ⟨⟨s, hs, hruns _ s (Machine.Guarded.mono _ (fun _ _ => BoostCalm.timely) hboost) hs⟩,
    ⟨t, ht, hruns' _ t (Machine.Guarded.mono _ (fun _ _ => EpollCalm.timely) hepoll) ht⟩⟩

/-- A user logs in and starts a stream, is not heard of any more, and is evicted in the fourth
round. -/
def epollRun : List Epoll.Move :=
  Epoll.connect 5 "192.168.0.1:1" 0 ++ sends .Login loginMessage 4 ++
    sends .ModifyInfo startMessage 3 ++
    [.recvReturn 0 (.failed true), .step 0] ++ Epoll.sweepOf 5 ++ Epoll.sweepOf 5 ++
      Epoll.sweepOf 5 ++
    [.copy, .visit 5, .evict, .evict, .done]

theorem epoll_outlives :
    ∃ s, (Epoll.serving knowingLive).exec Epoll.System.initial epollRun = some s ∧
    s.connections.map Epoll.Connection.isOpen = [false] ∧ s.streams.starters.lookup "1" = some 0 ∧
    s.streams.logins = [(0, "1")] ∧ s.streams.m_liveList.keys = ["1"] :=
  ⟨_, rfl, rfl, rfl, rfl, rfl⟩

theorem not_noneOutlives {connected : ℕ → Prop} {l : Streams} (hended : ∀ d, ¬ connected d)
    (hstarter : l.starters.lookup "1" = some 0) (hlogin : l.logins = [(0, "1")])
    (hlist : l.m_liveList.keys = ["1"]) : ¬ NoneOutlives connected l := by
  intro h
  have hloggedIn : l.LoggedIn 0 "1" := by
    rw [Streams.LoggedIn, hlogin]
    exact List.mem_singleton_self _
  have hmem : "1" ∈ l.m_liveList := by
    rw [AList.mem_keys, hlist]
    exact List.mem_singleton_self _
  exact h "1" 0 hstarter hloggedIn (hended 0) (fun d _ hd => absurd hd (hended d)) hmem

/-- **Streams outlive their connections**, on both servers. -/
theorem streams_outlive :
    (¬ ∀ moves s, (Boost.serving knowingLive).exec Boost.System.initial moves = some s →
      NoneOutlives s.Connected s.streams) ∧
    ¬ ∀ moves s, (Epoll.serving knowingLive).exec Epoll.System.initial moves = some s →
      NoneOutlives s.IsOpen s.streams := by
  constructor
  · intro h
    obtain ⟨s, hrun, hclients, hstarter, hlogin, hlist⟩ := boost_outlives
    refine not_noneOutlives ?_ hstarter hlogin hlist (h boostRun s hrun)
    rintro d ⟨c, hc, hconnected⟩
    have hmem : c.connected ∈ s.clients.map Boost.Client.connected :=
      List.mem_map_of_mem (List.mem_of_getElem? hc)
    simp [hclients, hconnected] at hmem
  · intro h
    obtain ⟨s, hrun, hconnections, hstarter, hlogin, hlist⟩ := epoll_outlives
    refine not_noneOutlives ?_ hstarter hlogin hlist (h epollRun s hrun)
    rintro d ⟨c, hc, hopen⟩
    have hmem : c.isOpen ∈ s.connections.map Epoll.Connection.isOpen :=
      List.mem_map_of_mem (List.mem_of_getElem? hc)
    simp [hconnections, hopen] at hmem

end PickUpLight.Live
