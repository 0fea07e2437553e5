import PickUpLight.Epoll.Ownership

/-!
# The exits of a task

The event loop has epoll stop watching a connection before it starts a task for it, so it is the
task that has to see to it that the connection is watched again, or taken down.
`processClientRequest` has three exits. It does so at two of them; at the third, where `my_recv`
has got a part of a header before the connection ended, it just returns. `exits_iff`: a task keeps
its connection in every run in which that does not happen, and in no other.
-/

namespace PickUpLight.Epoll

open PickUpLight.Theory PickUpLight.Wire PickUpLight.Control PickUpLight.Heartbeat PickUpLight.Live

/-! ### A task on its own -/

/-- A move of task `i`. -/
def Move.isOf (i : ℕ) : Move → Prop
  | .start j | .recv j | .recvReturn j _ | .effect j _ | .step j => j = i
  | _ => False

instance (i : ℕ) : (move : Move) → Decidable (move.isOf i)
  | .start j | .recv j | .recvReturn j _ | .effect j _ | .step j =>
    inferInstanceAs (Decidable (j = i))
  | .accept _ | .add _ | .addFd | .wait _ | .deleteFd | .add_task | .copy | .visit
    _ | .evict | .done => isFalse id

/-- **A task of the server**, while nothing else moves. -/
def task (lib : Nlohmann) (i : ℕ) : Machine System Move := fun s move =>
  if move.isOf i then serving lib s move else none

/-- The descriptor `fd` is a connection's that is on the map and is not watched. -/
structure Held (s : System) (fd : ℕ) : Prop where
  unwatched : fd ∉ s.interest
  entry : (s.m_map.lookup fd).isSome = true
  isOpen : (s.holder fd).isSome = true

/-- The event loop has put task `i` into the pool. -/
structure Queued (s : System) (i fd : ℕ) : Prop where
  task : ∃ t, s.tasks[i]? = some t ∧ t.fd = fd ∧ t.stage = .queued
  held : Held s fd

/-- Task `i` is at this stage. -/
def System.At (s : System) (i : ℕ) (stage : Stage) : Prop := ∃ t, s.tasks[i]? = some t ∧
      t.stage = stage

/-- The connection is watched again, and is still on the map. -/
structure Watched (s : System) (fd : ℕ) : Prop where
  watched : fd ∈ s.interest
  entry : (s.m_map.lookup fd).isSome = true

/-- The connection has been taken down: it is off the map, it is closed, and the user it was logged
in as when the task found its end is off the live list. -/
structure TakenDown (lib : Nlohmann) (i fd : ℕ) (s₀ s : System) (moves : List Move) : Prop where
  entry : s.m_map.lookup fd = none
  closed : s.holder fd = none
  live : ∀ before after u info, moves = before ++ after → (task lib i).exec s₀ before = some u →
    u.At i .get_ip → u.m_map.lookup fd = some info → info.userId ∉ s.streams.m_liveList

/-- **The task has kept its connection**: it is watched, or taken down. -/
def Keeps (lib : Nlohmann) (i fd : ℕ) (s₀ s : System) (moves : List Move) : Prop :=
  Watched s fd ∨ TakenDown lib i fd s₀ s moves

/-- The connection does not end in the middle of a header: no `recv` for the rest of one returns
0. -/
def Uncut (i : ℕ) (s : System) : Move → Prop
  | .recvReturn j .zero => j = i → ∀ transfer c, s.At i (.reading .header transfer c) →
    transfer.done = []
  | _ => True

variable {lib : Nlohmann} {s s₀ s' : System} {i fd : ℕ} {t t' : Task} {move : Move}

/-! ### One turn of the loop -/

/-- A transfer that is under way: a header has eight bytes, and some are left. -/
def Dest.Under (dest : Dest) (transfer : Transfer) : Prop :=
  dest = .header → transfer.length = headerSize ∧ transfer.done.length < headerSize

/-- The loop goes on, or comes to an exit that keeps the connection. -/
def Phase.Keeps : Phase → Prop
  | .receiving dest transfer => dest.Under transfer
  | .dropped => False
  | _ => True

theorem keeps_nextHeader (c : Conn) : c.nextHeader.phase.Keeps := fun _ => ⟨rfl, by decide⟩

theorem keeps_afterPayload (c : Conn) (ret : ℤ) (payload : List UInt8) :
    (c.afterPayload ret payload).phase.Keeps := by
  unfold Conn.afterPayload
  split
  · exact keeps_nextHeader c
  · trivial

theorem keeps_startPayload (c : Conn) {dest : Dest} (hdest : dest ≠ .header) (front : List UInt8) :
    (c.startPayload dest front).phase.Keeps := by
  unfold Conn.startPayload
  split
  · exact fun h => absurd h hdest
  · exact keeps_afterPayload c _ _

theorem keeps_processSingleRequest (c : Conn) : c.processSingleRequest.phase.Keeps := by
  unfold Conn.processSingleRequest
  split
  · exact keeps_nextHeader c
  · trivial
  · exact fun h => by cases h
  · exact keeps_startPayload c (fun h => by cases h) _

/-- After a payload, or a part of one. -/
theorem keeps_afterRecv (c : Conn) {dest : Dest} (hdest : dest ≠ .header) (ret : ℤ)
    (done : List UInt8) :
    (c.afterRecv dest ret done).phase.Keeps := by
  cases dest with
  | header => exact absurd rfl hdest
  | body => exact keeps_afterPayload c _ _
  | fileInfo =>
    unfold Conn.afterRecv
    dsimp only
    split
    · exact keeps_nextHeader c
    · exact keeps_startPayload c (fun h => by cases h) _
  | fileData info => exact keeps_afterPayload c _ _

/-- **One `recv`**: the loop goes on or comes to a good exit, unless the connection ends in the
middle of a header. -/
theorem keeps_turn (c : Conn) {dest : Dest} {transfer : Transfer} {outcome : Outcome}
    (hunder : dest.Under transfer) (hcan : System.CanReturn dest transfer outcome)
    (huncut : dest = .header → outcome = .zero → transfer.done = []) :
    (c.turn dest (transfer.after outcome)).phase.Keeps := by
  by_cases hdest : dest = .header
  · subst hdest
    obtain ⟨hlength, hdone⟩ := hunder rfl
    have hlength' : transfer.length = (8 : ℕ) := hlength
    cases outcome with
    | bytes data =>
      rcases Transfer.after_bytes hcan.2 with ⟨hlt, hmore⟩ | ⟨-, hlast⟩
      · rw [hmore]
        exact fun _ => ⟨hlength, by exact_mod_cast hlength ▸ hlt⟩
      · rw [hlast, hlength]
        exact keeps_processSingleRequest _
    | zero =>
      have hnone : transfer.done = [] := huncut rfl rfl
      have hret : transfer.after .zero = .returned 0 [] := by
        simp [Transfer.after, Transfer.bytes_left, hnone]
      rw [hret]
      unfold Conn.turn Conn.afterRecv Conn.afterHeader
      cases c.entry <;> trivial
    | interrupted =>
      rw [Transfer.after_interrupted (by rw [hlength]; exact_mod_cast hdone)]
      exact hunder
    | failed again => trivial
  · unfold Conn.turn
    split
    · split
      · trivial
      · exact fun h => absurd h hdest
    · split
      · trivial
      · exact keeps_afterRecv c hdest _ _

/-- The exit that does not keep the connection. -/
theorem turn_cut (c : Conn) {transfer : Transfer} (hunder : Dest.header.Under transfer)
    (hcut : transfer.done ≠ []) :
    (c.turn .header (transfer.after .zero)).phase = .dropped := by
  obtain ⟨-, hdone⟩ := hunder rfl
  have hpos : 0 < transfer.done.length := List.length_pos_of_ne_nil hcut
  have hret : transfer.after .zero = .returned transfer.done.length transfer.done := by
    simp [Transfer.after, Transfer.bytes_left]
  have hne : (transfer.done.length : ℤ) ≠ headerSize := by
    intro heq
    have hlen : transfer.done.length = headerSize := by exact_mod_cast heq
    omega
  rw [hret]
  unfold Conn.turn Conn.afterRecv Conn.afterHeader
  simp [hne, hpos]

/-! ### Stages -/

/-- The task serves the connection, or has had it watched again. -/
def Stage.Serving (s : System) (fd : ℕ) : Stage → Prop
  | .calling dest transfer | .reading dest transfer _ => Held s fd ∧ dest.Under transfer
  | .queued | .handling _ | .addFd | .get_ip => Held s fd
  | .returned => Watched s fd
  | _ => False

/-- The task takes the connection down, which is logged in as `user`. -/
def Stage.Ending (s : System) (fd : ℕ) (user : String) : Stage → Prop
  | .get_ip | .get_userId => Held s fd ∧ (s.m_map.lookup fd).map Info.userId = some user
  | .removeLive userId => Held s fd ∧ userId = user
  | .remove => Held s fd ∧ user ∉ s.streams.m_liveList
  | .deleteFd | .close => s.m_map.lookup fd = none ∧ user ∉ s.streams.m_liveList
  | .returned => s.m_map.lookup fd = none ∧ s.holder fd = none ∧ user ∉ s.streams.m_liveList
  | _ => False

/-- The task has returned, and nobody takes care of the connection. -/
def Stage.Lost (s : System) (fd : ℕ) : Stage → Prop
  | .returned => Held s fd
  | _ => False

/-- Task `i` serves `fd`, and its stage has `P`. -/
def System.Has (s : System) (i fd : ℕ) (P : Stage → Prop) : Prop :=
  ∃ t, s.tasks[i]? = some t ∧ t.fd = fd ∧ P t.stage

theorem getElem?_setTask (ht : s.tasks[i]? = some t) :
    (s.setTask i (some t')).tasks[i]? = some t' :=
  (Roster.getElem?_set_iff ht).mpr (.inl ⟨rfl, rfl⟩)

/-- A task goes on to a stage. -/
theorem has_setTask {P : Stage → Prop} (ht : s.tasks[i]? = some t) (hfd : t'.fd = fd)
    (h : P t'.stage) :
    (s.setTask i (some t')).Has i fd P :=
  ⟨t', getElem?_setTask ht, hfd, h⟩

/-- A good exit, or none, is a good stage. -/
theorem serving_ofPhase {phase : Phase} {stage : Stage} (hkeeps : phase.Keeps) (hheld : Held s fd)
    (h : Stage.ofPhase lib phase = some stage) : stage.Serving s fd := by
  unfold Stage.ofPhase at h
  split at h <;> cases h
  · exact hheld
  · exact ⟨hheld, hkeeps⟩
  · exact hheld
  · exact hheld
  · exact hkeeps.elim

/-- What the task does between two system calls. -/
theorem serving_after (ht : s.tasks[i]? = some t) (hfd : t.fd = fd)
    (hstage : ∀ u, Held u fd → t.stage.Serving u fd) (hheld : Held s fd) {piece : Conn → Conn}
    (hkeeps : ∀ c, (piece c).phase.Keeps) :
    (s.setTask i (t.after lib piece)).Has i fd
      (Stage.Serving (s.setTask i (t.after lib piece)) fd) := by
  cases ht' : t.after lib piece with
  | none => exact ⟨t, ht, hfd, hstage _ ⟨hheld.unwatched, hheld.entry, hheld.isOpen⟩⟩
  | some t' =>
    obtain ⟨stage, hphase, rfl⟩ := Option.map_eq_some_iff.mp ht'
    exact has_setTask ht hfd
      (serving_ofPhase (hkeeps _) ⟨hheld.unwatched, hheld.entry, hheld.isOpen⟩ hphase)

/-- No effect takes an entry off the map. -/
theorem isSome_performFor {c : ℕ} {m : Registry ℕ} {l : Streams} {h : (e : Effect) → e.Answer}
    (e : Effect) (hentry : (m.lookup fd).isSome = true) :
    ((performFor fd c m l h e).1.1.lookup fd).isSome = true := by
  have hmodify : ∀ (f : Info → Info) m', m.modifyAt fd f = some m' →
      (m'.lookup fd).isSome = true := by
    intro f m' hm
    obtain ⟨info, hinfo⟩ := Option.isSome_iff_exists.mp hentry
    exact Option.isSome_iff_exists.mpr
      ⟨f info, (Registry.lookup_modifyAt hm).mpr (.inl ⟨rfl, info, hinfo, rfl⟩)⟩
  cases e with
  | set_0 =>
    simp only [performFor]
    split
    · exact hmodify _ _ ‹_›
    · exact hentry
  | add_userId userId =>
    simp only [performFor]
    split
    · exact hmodify _ _ ‹_›
    · exact hentry
  | _ => exact hentry

theorem serving_effect (ht : s.tasks[i]? = some t) (hfd : t.fd = fd) {p : Handler Unit}
    (hstage : t.stage = .handling p) (hheld : Held s fd) (answer : (e : Effect) → e.Answer) :
    (s.effect lib i t answer p).Has i fd (Stage.Serving (s.effect lib i t answer p) fd) := by
  have hany : ∀ u, Held u fd → t.stage.Serving u fd := by
    intro u hu
    rw [hstage]
    exact hu
  cases p with
  | ret =>
    show (s.setTask i (t.after lib Conn.nextHeader)).Has i fd _
    exact serving_after ht hfd hany hheld keeps_nextHeader
  | fail => exact ⟨t, ht, hfd, hany _ ⟨hheld.unwatched, hheld.entry, hheld.isOpen⟩⟩
  | call e next =>
    subst hfd
    refine ⟨_, getElem?_setTask ht, rfl, ?_⟩
    exact ⟨hheld.unwatched, isSome_performFor e hheld.entry, hheld.isOpen⟩

/-- The steps of a task that serves, and is neither in a `recv` nor in a handler. -/
theorem serving_step (ht : s.tasks[i]? = some t) (hfd : t.fd = fd) (hserving : t.stage.Serving s fd)
    (hs : s.step i t = some s') :
    s'.Has i fd (Stage.Serving s' fd) ∨ ∃ user, s'.Has i fd (Stage.Ending s' fd user) := by
  subst hfd
  cases hstage : t.stage with
  | addFd =>
    rw [hstage] at hserving
    simp only [System.step, hstage, Option.some.injEq] at hs
    have hadd : s.addFd t.fd = { s with interest := s.interest ++ [t.fd] } :=
      if_pos ⟨hserving.isOpen, hserving.unwatched⟩
    rw [hadd] at hs
    subst hs
    exact .inl
      (has_setTask ht rfl ⟨List.mem_append_right _ (List.mem_singleton_self _), hserving.entry⟩)
  | get_ip =>
    rw [hstage] at hserving
    simp only [System.step, hstage, Option.some.injEq, System.lookupEntry] at hs
    obtain ⟨info, hinfo⟩ := Option.isSome_iff_exists.mp hserving.entry
    rw [hinfo, Option.map_some] at hs
    subst hs
    refine .inr
      ⟨info.userId, has_setTask ht rfl ⟨⟨hserving.unwatched, hserving.entry, hserving.isOpen⟩, ?_⟩⟩
    show (s.m_map.lookup t.fd).map Info.userId = some info.userId
    rw [hinfo, Option.map_some]
  | _ =>
    rw [hstage] at hserving
    first
    | exact hserving.elim
    | (simp only [System.step, hstage] at hs; cases hs)

/-- The steps of a task that takes its connection down. -/
theorem ending_step (ht : s.tasks[i]? = some t) (hfd : t.fd = fd) {user : String}
    (hending : t.stage.Ending s fd user)
    (hs : s.step i t = some s') : s'.Has i fd (Stage.Ending s' fd user) := by
  subst hfd
  cases hstage : t.stage with
  | get_ip =>
    rw [hstage] at hending
    simp only [System.step, hstage, Option.some.injEq, System.lookupEntry] at hs
    obtain ⟨⟨hunwatched, hentry, hopen⟩, huser⟩ := hending
    obtain ⟨info, hinfo, huserId⟩ := Option.map_eq_some_iff.mp huser
    rw [hinfo, Option.map_some] at hs
    subst hs
    exact has_setTask ht rfl ⟨⟨hunwatched, hentry, hopen⟩, huser⟩
  | get_userId =>
    rw [hstage] at hending
    simp only [System.step, hstage, Option.some.injEq, System.lookupEntry] at hs
    obtain ⟨⟨hunwatched, hentry, hopen⟩, huser⟩ := hending
    obtain ⟨info, hinfo, huserId⟩ := Option.map_eq_some_iff.mp huser
    rw [hinfo, Option.map_some] at hs
    subst hs
    exact has_setTask ht rfl ⟨⟨hunwatched, hentry, hopen⟩, huserId⟩
  | removeLive userId =>
    rw [hstage] at hending
    simp only [System.step, hstage, Option.some.injEq] at hs
    obtain ⟨⟨hunwatched, hentry, hopen⟩, rfl⟩ := hending
    subst hs
    exact has_setTask ht rfl
      ⟨⟨hunwatched, hentry, hopen⟩, fun hmem => (LiveList.mem_remove.mp hmem).1 rfl⟩
  | remove =>
    rw [hstage] at hending
    simp only [System.step, hstage, Option.some.injEq] at hs
    subst hs
    exact has_setTask ht rfl ⟨AList.lookup_erase _ _, hending.2⟩
  | deleteFd =>
    rw [hstage] at hending
    simp only [System.step, hstage, Option.some.injEq] at hs
    subst hs
    exact has_setTask ht rfl hending
  | close =>
    rw [hstage] at hending
    simp only [System.step, hstage, Option.some.injEq] at hs
    subst hs
    have hclosed : (s.close t.fd).holder t.fd = none := by rw [holder_close, if_pos rfl]
    exact has_setTask ht rfl ⟨hending.1, hclosed, hending.2⟩
  | addFd =>
    rw [hstage] at hending
    exact hending.elim
  | _ => simp [System.step, hstage] at hs

/-! ### The moves of a task -/

/-- What a move of task `i`, which is `t`, does. -/
inductive Turns (lib : Nlohmann) (i : ℕ) (s : System) (t : Task) : Move → System → Prop where
  /-- A thread of the pool runs it. -/
  | start {j : ℕ} (hstage : t.stage = .queued) :
    Turns lib i s t (.start j) (s.setTask i (t.after lib Conn.nextHeader))
  /-- It calls `recv`. -/
  | recv {j : ℕ} {dest : Dest} {transfer : Transfer} (hstage : t.stage = .calling dest transfer) :
    Turns lib i s t (.recv j) (s.recv lib i t dest transfer)
  /-- The `recv` returns. -/
  | recvReturn {dest : Dest} {transfer : Transfer} {c : ℕ} {outcome : Outcome}
      (hstage : t.stage = .reading dest transfer c)
      (hcan : System.CanReturn dest transfer outcome) :
    Turns lib i s t (.recvReturn i outcome) ((s.touch t (System.readOf c outcome)).setTask i
      (t.after lib fun conn => conn.turn dest (transfer.after outcome)))
  /-- Its handler goes on. -/
  | effect {j : ℕ} {p : Handler Unit} {h : (e : Effect) → e.Answer}
    (hstage : t.stage = .handling p) :
    Turns lib i s t (.effect j h) (s.effect lib i t h p)
  /-- It goes on with one of its exits. -/
  | step {j : ℕ} {s' : System} (hs : s.step i t = some s') : Turns lib i s t (.step j) s'

theorem turns_of_task (hs : task lib i s move = some s') :
    ∃ t, s.tasks[i]? = some t ∧ Turns lib i s t move s' := by
  unfold task at hs
  split at hs
  · rename_i hof
    unfold serving at hs
    split at hs
    · cases hs
    · cases move with
      | start j =>
        obtain rfl : j = i := hof
        obtain ⟨t, ht, hs⟩ := Option.bind_eq_some_iff.mp hs
        split at hs <;> cases hs
        exact ⟨t, ht, .start ‹_›⟩
      | recv j =>
        obtain rfl : j = i := hof
        obtain ⟨t, ht, hs⟩ := Option.bind_eq_some_iff.mp hs
        split at hs <;> cases hs
        exact ⟨t, ht, .recv ‹_›⟩
      | recvReturn j outcome =>
        obtain rfl : j = i := hof
        obtain ⟨t, ht, hs⟩ := Option.bind_eq_some_iff.mp hs
        split at hs
        · split at hs <;> cases hs
          exact ⟨t, ht, .recvReturn ‹_› ‹_›⟩
        · cases hs
      | effect j h =>
        obtain rfl : j = i := hof
        obtain ⟨t, ht, hs⟩ := Option.bind_eq_some_iff.mp hs
        split at hs <;> cases hs
        exact ⟨t, ht, .effect ‹_›⟩
      | step j =>
        obtain rfl : j = i := hof
        obtain ⟨t, ht, hs⟩ := Option.bind_eq_some_iff.mp hs
        exact ⟨t, ht, .step hs⟩
      | _ => exact hof.elim
  · cases hs

/-- The task serves the connection, has had it watched, or takes it down. -/
def Going (s : System) (i fd : ℕ) : Prop :=
  s.Has i fd (Stage.Serving s fd) ∨ ∃ user, s.Has i fd (Stage.Ending s fd user)

theorem Turns.serving (hturn : Turns lib i s t move s') (ht : s.tasks[i]? = some t)
    (hfd : t.fd = fd) (hserving : t.stage.Serving s fd)
    (huncut : Uncut i s move) : Going s' i fd := by
  cases hturn with
  | start hstage =>
    rw [hstage] at hserving
    exact .inl (serving_after ht hfd (fun _ hu => hstage ▸ hu) hserving keeps_nextHeader)
  | recv hstage =>
    rw [hstage] at hserving
    obtain ⟨⟨hunwatched, hentry, hopen⟩, hunder⟩ := hserving
    obtain ⟨c, hc⟩ := Option.isSome_iff_exists.mp hopen
    simp only [System.recv, hfd, hc]
    exact .inl ⟨_, getElem?_setTask ht, rfl, ⟨hunwatched, hentry, hopen⟩, hunder⟩
  | @recvReturn dest transfer c outcome hstage hcan =>
    rw [hstage] at hserving
    obtain ⟨⟨hunwatched, hentry, hopen⟩, hunder⟩ := hserving
    have hcut : dest = .header → outcome = .zero → transfer.done = [] := by
      rintro rfl rfl
      exact huncut rfl transfer c ⟨t, ht, hstage⟩
    have hheld : Held (s.touch t (System.readOf c outcome)) fd := ⟨hunwatched, hentry, hopen⟩
    have htouched : (s.touch t (System.readOf c outcome)).tasks[i]? = some t := ht
    exact .inl (serving_after htouched hfd (fun _ hu => hstage ▸ ⟨hu, hunder⟩) hheld
      fun conn => keeps_turn conn hunder hcan hcut)
  | effect hstage =>
    rw [hstage] at hserving
    exact .inl (serving_effect ht hfd hstage hserving _)
  | step hs => exact serving_step ht hfd hserving hs

/-- What goes on once the end of the connection has been found. -/
theorem Turns.ending (hturn : Turns lib i s t move s') (ht : s.tasks[i]? = some t) (hfd : t.fd = fd)
    {user : String}
    (hending : t.stage.Ending s fd user) : s'.Has i fd (Stage.Ending s' fd user) := by
  cases hturn with
  | start hstage | recv hstage | recvReturn hstage | effect hstage =>
    rw [hstage] at hending
    exact hending.elim
  | step hs => exact ending_step ht hfd hending hs

/-- A task that has returned makes no moves. -/
theorem Turns.not_lost (hturn : Turns lib i s t move s') : ¬ t.stage.Lost s fd := by
  intro hlost
  cases hturn with
  | start hstage | recv hstage | recvReturn hstage | effect hstage =>
    rw [hstage] at hlost
    exact hlost
  | step hs => cases hstage :
    t.stage <;> simp only [hstage, Stage.Lost, System.step] at hlost hs; cases hs

/-- The connection ends in the middle of a header. -/
theorem Turns.cut (hturn : Turns lib i s t move s') (ht : s.tasks[i]? = some t) (hfd : t.fd = fd)
    (hserving : t.stage.Serving s fd) (hcut : ¬ Uncut i s move) :
    s'.Has i fd (Stage.Lost s' fd) := by
  cases hturn with
  | @recvReturn dest transfer c outcome hstage hcan =>
    cases outcome with
    | zero =>
      simp only [Uncut, not_forall] at hcut
      obtain ⟨-, transfer', c', ⟨t', ht', hstage'⟩, hne⟩ := hcut
      cases ht.symm.trans ht'
      cases hstage.symm.trans hstage'
      rw [hstage] at hserving
      obtain ⟨⟨hunwatched, hentry, hopen⟩, hunder⟩ := hserving
      have hafter : t.after lib (fun conn => conn.turn .header (transfer.after .zero)) =
          (Stage.ofPhase lib .dropped).map fun stage => { t with
            pheader := (Conn.turn { Conn.start "" [] none with pheader := t.pheader } .header
              (transfer.after .zero)).pheader
            stage := stage } := by
        simp only [Task.after, turn_cut _ hunder hne]
      rw [hafter]
      exact ⟨_, getElem?_setTask ht, hfd, hunwatched, hentry, hopen⟩
    | _ => exact absurd trivial hcut
  | _ => exact absurd trivial hcut

theorem going_step (h : Going s i fd) (huncut : Uncut i s move) (hs : task lib i s move = some s') :
    Going s' i fd := by
  obtain ⟨t, ht, hturn⟩ := turns_of_task hs
  rcases h with ⟨t', ht', hfd, hserving⟩ | ⟨user, t', ht', hfd, hending⟩
  · cases ht.symm.trans ht'
    exact hturn.serving ht hfd hserving huncut
  · cases ht.symm.trans ht'
    exact .inr ⟨user, hturn.ending ht hfd hending⟩

theorem ending_run {user : String} {moves : List Move} (h : s.Has i fd (Stage.Ending s fd user))
    (hrun : (task lib i).exec s moves = some s') : s'.Has i fd (Stage.Ending s' fd user) := by
  refine (task lib i).exec_inv (I := fun s => s.Has i fd (Stage.Ending s fd user)) ?_ h hrun
  rintro s move s' ⟨t, ht, hfd, hending⟩ hs
  obtain ⟨t', ht', hturn⟩ := turns_of_task hs
  cases ht.symm.trans ht'
  exact hturn.ending ht hfd hending

/-- A move in which the connection ends in the middle of a header loses it. -/
theorem lost_of_cut (h : Going s i fd) (hcut : ¬ Uncut i s move)
    (hs : task lib i s move = some s') :
    s'.Has i fd (Stage.Lost s' fd) := by
  obtain ⟨t, ht, hturn⟩ := turns_of_task hs
  rcases h with ⟨t', ht', hfd, hserving⟩ | ⟨user, t', ht', hfd, hending⟩
  · cases ht.symm.trans ht'
    exact hturn.cut ht hfd hserving hcut
  · cases ht.symm.trans ht'
    cases hturn with
    | recvReturn hstage =>
      rw [hstage] at hending
      exact hending.elim
    | _ => exact absurd trivial hcut

theorem not_lost_step (hs : task lib i s move = some s') : ¬ s.Has i fd (Stage.Lost s fd) := by
  rintro ⟨t, ht, -, hlost⟩
  obtain ⟨t', ht', hturn⟩ := turns_of_task hs
  cases ht.symm.trans ht'
  exact hturn.not_lost hlost

theorem Queued.going (h : Queued s i fd) : Going s i fd := by
  obtain ⟨t, ht, hfd, hstage⟩ := h.task
  exact .inl ⟨t, ht, hfd, hstage ▸ h.held⟩

/-- A task that has seen a good exit through has kept its connection. -/
theorem Going.keeps {moves : List Move} (hgoing : ∀ before after u, moves = before ++ after →
      (task lib i).exec s₀ before = some u → Going u i fd)
    (hrun : (task lib i).exec s₀ moves = some s) (hret : s.At i .returned) :
    Keeps lib i fd s₀ s moves := by
  obtain ⟨t, ht, hstage⟩ := hret
  rcases hgoing moves [] s (List.append_nil _).symm hrun with
    ⟨t', ht', -, hserving⟩ | ⟨user, t', ht', -, hending⟩
  · cases ht.symm.trans ht'
    rw [hstage] at hserving
    exact .inl hserving
  · cases ht.symm.trans ht'
    rw [hstage] at hending
    refine .inr ⟨hending.1, hending.2.1, ?_⟩
    rintro before after u info rfl hbefore ⟨v, hv, hip⟩ hinfo
    have hafter : (task lib i).exec u after = some s := by
      rw [Machine.exec_append, hbefore] at hrun
      exact hrun
    have hfound : u.Has i fd (Stage.Ending u fd info.userId) := by
      have huser : (u.m_map.lookup fd).map Info.userId = some info.userId := by
        rw [hinfo, Option.map_some]
      rcases hgoing before after u rfl hbefore with
        ⟨w, hw, hfd, hserving⟩ | ⟨_, w, hw, hfd, hending'⟩
      · cases hv.symm.trans hw
        rw [hip] at hserving
        exact ⟨v, hv, hfd, hip ▸ ⟨hserving, huser⟩⟩
      · cases hv.symm.trans hw
        rw [hip] at hending'
        exact ⟨v, hv, hfd, hip ▸ ⟨hending'.1, huser⟩⟩
    obtain ⟨w, hw, -, hend⟩ := ending_run hfound hafter
    cases ht.symm.trans hw
    rw [hstage] at hend
    exact hend.2.2

/-- **Which tasks keep their connections**: those whose connection does not end in the middle of a
header. -/
theorem exits_iff (lib : Nlohmann) (i fd : ℕ) (s₀ s : System) (moves : List Move)
    (hqueued : Queued s₀ i fd) (hrun : (task lib i).exec s₀ moves = some s)
    (hret : s.At i .returned) :
    Keeps lib i fd s₀ s moves ↔ (task lib i).Guarded (Uncut i) s₀ moves := by
  constructor
  · intro hkeeps
    refine (task lib i).guarded_of_not_bad (I := fun s => Going s i fd ∨
      s.Has i fd (Stage.Lost s fd))
      (B := fun s => s.Has i fd (Stage.Lost s fd)) ?_ ?_ ?_ (.inl hqueued.going) hrun ?_
    · rintro u move v (hgoing | hlost) hs
      · by_cases huncut : Uncut i u move
        · exact .inl (going_step hgoing huncut hs)
        · exact .inr (lost_of_cut hgoing huncut hs)
      · exact absurd hlost (not_lost_step hs)
    · exact fun u move v _ hlost hs => absurd hlost (not_lost_step hs)
    · rintro u move v (hgoing | hlost) hs hcut
      · exact lost_of_cut hgoing hcut hs
      · exact absurd hlost (not_lost_step hs)
    · rintro ⟨t, ht, -, hlost⟩
      obtain ⟨t', ht', hstage⟩ := hret
      cases ht.symm.trans ht'
      rw [hstage] at hlost
      rcases hkeeps with hwatched | hdown
      · exact hlost.unwatched hwatched.watched
      · exact absurd hlost.entry (by rw [hdown.entry]; decide)
  · intro hguard
    refine Going.keeps ?_ hrun hret
    rintro before after u rfl hbefore
    have hguard' := ((task lib i).guarded_append_iff hbefore).mp hguard
    exact (task lib i).exec_inv_guarded (fun _ _ _ h hu hs => going_step h hu hs) hqueued.going
      hguard'.1 hbefore

/-! ### A header cut off -/

/-- A connection is accepted, and its first bytes are reported. -/
def arrival : List Move :=
  [.accept 5, .add "192.168.0.1:1", .addFd, .wait [5], .deleteFd, .add_task]

/-- One byte of a header comes, and then the end. -/
def cutRun : List Move :=
  [.start 0, .recv 0, .recvReturn 0 (.bytes [2]), .recv 0, .recvReturn 0 .zero]

/-- The end comes at once. -/
def endRun : List Move := [.start 0, .recv 0, .recvReturn 0 .zero] ++ List.replicate 6 (.step 0)

/-- **A connection is dropped**: it is neither watched nor taken down. -/
theorem connection_dropped :
    ¬ ∀ (s₀ s : System) (moves : List Move), (serving deaf).exec System.initial arrival = some s₀ →
    (task deaf 0).exec s₀ moves = some s → s.At 0 .returned → Keeps deaf 0 5 s₀ s moves := by
  intro h
  obtain ⟨s₀, s, t, harrival, hrun, ht, hstage, hinterest, hentry⟩ : ∃ s₀ s t,
      (serving deaf).exec System.initial arrival = some s₀ ∧ (task deaf 0).exec s₀ cutRun = some s ∧
        s.tasks[0]? = some t ∧ t.stage = .returned ∧ s.interest = [] ∧
          (s.m_map.lookup 5).isSome = true :=
    ⟨_, _, _, rfl, rfl, rfl, rfl, rfl, rfl⟩
  rcases h s₀ s cutRun harrival hrun ⟨t, ht, hstage⟩ with hwatched | hdown
  · have hmem := hwatched.watched
    rw [hinterest] at hmem
    cases hmem
  · rw [hdown.entry] at hentry
    cases hentry

/-- A connection that ends between two requests is taken down. -/
theorem exits_iff_end : ∃ s₀ s, (serving deaf).exec System.initial arrival = some s₀ ∧
    (task deaf 0).exec s₀ endRun = some s ∧
      (Keeps deaf 0 5 s₀ s endRun ↔ (task deaf 0).Guarded (Uncut 0) s₀ endRun) := by
  obtain ⟨s₀, s, t, u, harrival, hrun, ht, hfd, hstage, hinterest, hentry, hopen, hu, hreturned⟩ :
      ∃ s₀ s t u, (serving deaf).exec System.initial arrival = some s₀ ∧
        (task deaf 0).exec s₀ endRun = some s ∧
          s₀.tasks[0]? = some t ∧ t.fd = 5 ∧ t.stage = .queued ∧ s₀.interest = [] ∧
            (s₀.m_map.lookup 5).isSome = true ∧ (s₀.holder 5).isSome = true ∧
              s.tasks[0]? = some u ∧ u.stage = .returned :=
    ⟨_, _, _, _, rfl, rfl, rfl, rfl, rfl, rfl, rfl, rfl, rfl, rfl⟩
  have hheld : Held s₀ 5 := ⟨by rw [hinterest]; exact List.not_mem_nil, hentry, hopen⟩
  exact ⟨s₀, s, harrival, hrun, exits_iff deaf 0 5 s₀ s endRun ⟨⟨t, ht, hfd, hstage⟩, hheld⟩ hrun
    ⟨u, hu, hreturned⟩⟩

end PickUpLight.Epoll
