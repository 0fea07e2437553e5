import PickUpLight.Epoll.Descriptors
import PickUpLight.Theory.Roster

/-!
# Who owns a connection

Between the event loop, the pool and epoll a descriptor is handed on: epoll watches it, or the loop
has an event for it, or a task has it. That keeps two tasks off one connection as long as a number
stands for one connection only. But the heartbeat thread closes connections whoever has them, and
then the kernel may give the number away while a task still uses it (`stolen_connection`).
`ownsConnections_of_run`: the tasks keep to their own connections in every run in which no
connection is given a number that is still claimed for an earlier one.
-/

namespace PickUpLight.Epoll

open PickUpLight.Theory PickUpLight.Wire PickUpLight.Control PickUpLight.Heartbeat PickUpLight.Live

/-! ### Claims -/

/-- The descriptor and the connection of a task that has not returned. -/
def Task.claim (t : Task) : Option (ℕ × ℕ) := if t.active then some (t.fd, t.conn) else none

/-- The event the loop has in hand. -/
def Loop.claim : Loop → List (ℕ × ℕ)
  | .add_task fd c => [(fd, c)]
  | _ => []

/-- The descriptor of the connection the loop has just accepted. -/
def Loop.fresh : Loop → Option ℕ
  | .add fd | .addFd fd => some fd
  | _ => none

namespace System

/-- The descriptors that are not watched because of a task: one there is, or one to be started. -/
def taken (s : System) : List (ℕ × ℕ) := s.tasks.filterMap Task.claim ++ s.loop.claim

/-- The descriptors some task or event stands for, each with its connection. -/
def claims (s : System) : List (ℕ × ℕ) := s.taken ++ s.evs

/-- A descriptor is claimed. -/
def Claimed (s : System) (fd : ℕ) : Prop := fd ∈ s.claims.map Prod.fst

instance (s : System) (fd : ℕ) : Decidable (s.Claimed fd) := inferInstanceAs (Decidable (_ ∈ _))

/-- A task reads from a connection: it has not returned, and its descriptor is the connection's. -/
def Reads (s : System) (t : Task) (c : ℕ) : Prop := t.active = true ∧ s.holder t.fd = some c

end System

/-- **The tasks keep to their own connections.** -/
structure OwnsConnections (s : System) : Prop where
  /-- No two tasks read from one connection. -/
  alone : ∀ (c i j : ℕ) (t u : Task), s.tasks[i]? = some t → s.tasks[j]? = some u → s.Reads t c →
    s.Reads u c → i = j
  /-- No task has read bytes of, removed the entry of or closed a connection it was not started
  for. -/
  own : ∀ x ∈ s.touched, x.1 = x.2

/-- A new connection is given a number that is not claimed. -/
def Unclaimed (s : System) : Move → Prop
  | .accept fd => ¬ s.Claimed fd
  | _ => True

instance (s : System) (move : Move) : Decidable (Unclaimed s move) := by
  unfold Unclaimed
  split <;> infer_instance

/-- **The invariant**: every number is claimed once, by its own connection. -/
structure Settled (s : System) : Prop where
  /-- An open connection has its number for itself. -/
  unique : ∀ d c, s.connections[d]? = some c → c.isOpen = true → s.holder c.fd = some d
  /-- A claimed number is the number of the claimed connection. -/
  number : ∀ x ∈ s.claims, ∃ c, s.connections[x.2]? = some c ∧ c.fd = x.1
  /-- No number is claimed twice. -/
  once : (s.claims.map Prod.fst).Nodup
  /-- A claimed number is the claimed connection's, or nobody's. -/
  held : ∀ x ∈ s.claims, ∀ c, s.holder x.1 = some c → c = x.2
  /-- What is watched is open. -/
  watched : ∀ fd ∈ s.interest, (s.holder fd).isSome
  /-- What is watched has no task. -/
  apart : ∀ fd ∈ s.interest, fd ∉ s.taken.map Prod.fst
  /-- The number of a connection just accepted is not claimed, and not watched yet. -/
  fresh : ∀ fd, s.loop.fresh = some fd → ¬ s.Claimed fd ∧ fd ∉ s.interest
  /-- A `recv` is on the task's own connection. -/
  reading : ∀ t ∈ s.tasks, ∀ dest transfer c, t.stage = .reading dest transfer c → c = t.conn
  /-- Tasks have touched their own connections only. -/
  own : ∀ x ∈ s.touched, x.1 = x.2

variable {lib : Nlohmann} {s s' : System} {i fd : ℕ} {t t' : Task} {move : Move}

/-! ### Descriptors -/

theorem fd_of_holder {c : ℕ} (h : s.holder fd = some c) : ∃ conn, s.connections[c]? = some conn ∧
      conn.fd = fd := by
  obtain ⟨hc, hconn, -⟩ := List.findIdx?_eq_some_iff_getElem.mp h
  rw [Bool.and_eq_true, beq_iff_eq] at hconn
  exact ⟨_, List.getElem?_eq_getElem hc, hconn.2⟩

theorem holder_accept (fd fd' : ℕ) :
    ({ s with connections := s.connections ++ [{ fd := fd, isOpen := true }] } : System).holder
      fd' =
      (s.holder fd').or (if fd = fd' then some s.connections.length else none) := by
  simp only [System.holder, List.findIdx?_append, List.findIdx?_singleton, Bool.true_and,
    beq_iff_eq]
  split <;> simp

theorem holder_close (fd fd' : ℕ) :
    (s.close fd).holder fd' = if fd' = fd then none else s.holder fd' := by
  have hmap : (s.close fd).holder fd' = s.connections.findIdx?
      fun c => (if c.fd = fd then { c with isOpen := false } else c).isOpen &&
        (if c.fd = fd then { c with isOpen := false } else c).fd == fd' := by
    simp only [System.holder, System.close, List.findIdx?_map, Function.comp_def]
  rw [hmap]
  by_cases hfd : fd' = fd
  · rw [if_pos hfd, List.findIdx?_eq_none_iff]
    intro c _
    by_cases hc : c.fd = fd
    · simp [hc]
    · simp [hc, hfd]
  · rw [if_neg hfd, System.holder]
    congr 1
    funext c
    by_cases hc : c.fd = fd
    · simp [hc, Ne.symm hfd]
    · simp [hc]

theorem settled_initial : Settled System.initial where
  unique d c hc := by cases hc
  number x hx := absurd hx List.not_mem_nil
  once := List.nodup_nil
  held x hx := absurd hx List.not_mem_nil
  watched fd hfd := absurd hfd List.not_mem_nil
  apart fd hfd := absurd hfd List.not_mem_nil
  fresh fd hfd := by cases hfd
  reading t ht := absurd ht List.not_mem_nil
  own x hx := absurd hx List.not_mem_nil

/-- Nothing but the map, the sweep and the live list changes. -/
theorem Settled.frame (h : Settled s) (evaluator : Evaluator ℕ) (streams : Streams) (beat : Beat) :
    Settled { s with evaluator := evaluator, streams := streams, beat := beat } :=
  ⟨h.unique, h.number, h.once, h.held, h.watched, h.apart, h.fresh, h.reading, h.own⟩

theorem Settled.deleteFd (h : Settled s) (fd : ℕ) : Settled (s.deleteFd fd) where
  unique := h.unique
  number := h.number
  once := h.once
  held := h.held
  watched fd' hfd' := h.watched fd' (List.mem_of_mem_filter hfd')
  apart fd' hfd' := h.apart fd' (List.mem_of_mem_filter hfd')
  fresh fd' hfd' :=
    ⟨(h.fresh fd' hfd').1, fun hmem => (h.fresh fd' hfd').2 (List.mem_of_mem_filter hmem)⟩
  reading := h.reading
  own := h.own

theorem getElem?_close (fd d : ℕ) : (s.close fd).connections[d]? =
    (s.connections[d]?).map fun c => if c.fd = fd then { c with isOpen := false } else c :=
  List.getElem?_map

theorem Settled.close (h : Settled s) (fd : ℕ) : Settled (s.close fd) where
  unique d c hc hopen := by
    rw [getElem?_close, Option.map_eq_some_iff] at hc
    obtain ⟨c, hd, rfl⟩ := hc
    split at hopen
    · cases hopen
    · rename_i hne
      rw [if_neg hne, holder_close, if_neg hne]
      exact h.unique d c hd hopen
  number x hx := by
    obtain ⟨c, hc, hfd⟩ := h.number x hx
    rw [getElem?_close, hc]
    refine ⟨_, rfl, ?_⟩
    dsimp only
    split <;> exact hfd
  once := h.once
  held x hx c hc := by
    rw [holder_close] at hc
    split at hc
    · cases hc
    · exact h.held x hx c hc
  watched fd' hfd' := by
    obtain ⟨hmem, hne⟩ := List.mem_filter.mp hfd'
    rw [holder_close, if_neg (of_decide_eq_true hne)]
    exact h.watched fd' hmem
  apart := (h.deleteFd fd).apart
  fresh := (h.deleteFd fd).fresh
  reading := h.reading
  own := h.own

theorem Settled.addFd (h : Settled s) (htaken : fd ∉ s.taken.map Prod.fst)
    (hfresh : s.loop.fresh ≠ some fd) :
    Settled (s.addFd fd) := by
  unfold System.addFd
  split
  · rename_i hopen
    refine ⟨h.unique, h.number, h.once, h.held, ?_, ?_, ?_, h.reading, h.own⟩
    · intro fd' hfd'
      rcases List.mem_append.mp hfd' with hfd' | hfd'
      · exact h.watched fd' hfd'
      · rw [List.mem_singleton.mp hfd']
        exact hopen.1
    · intro fd' hfd'
      rcases List.mem_append.mp hfd' with hfd' | hfd'
      · exact h.apart fd' hfd'
      · rw [List.mem_singleton.mp hfd']
        exact htaken
    · intro fd' hfd'
      refine ⟨(h.fresh fd' hfd').1, fun hmem => ?_⟩
      rcases List.mem_append.mp hmem with hmem | hmem
      · exact (h.fresh fd' hfd').2 hmem
      · exact hfresh (List.mem_singleton.mp hmem ▸ hfd')
  · exact h

/-- A task touches its own connection. -/
theorem Settled.touch (h : Settled s) {conn : Option ℕ} (hconn : ∀ c, conn = some c → c = t.conn) :
    Settled (s.touch t conn) := by
  refine ⟨h.unique, h.number, h.once, h.held, h.watched, h.apart, h.fresh, h.reading, ?_⟩
  intro x hx
  rcases List.mem_append.mp hx with hx | hx
  · exact h.own x hx
  · obtain ⟨c, hc, rfl⟩ := List.mem_map.mp hx
    exact (hconn c (Option.mem_toList.mp hc)).symm

/-! ### Tasks -/

theorem Task.mem_claims (ht : s.tasks[i]? = some t) (hactive : t.active = true) :
    (t.fd, t.conn) ∈ s.claims := by
  refine List.mem_append_left _ (List.mem_append_left _ ?_)
  exact List.mem_filterMap.mpr ⟨t, List.mem_of_getElem? ht, by rw [Task.claim, if_pos hactive]⟩

/-- The number of a task is its own connection's, or nobody's. -/
theorem Settled.conn_eq (h : Settled s) (ht : s.tasks[i]? = some t) (hactive : t.active = true)
    {c : ℕ} (hc : s.holder t.fd = some c) : c = t.conn :=
  h.held _ (Task.mem_claims ht hactive) c hc

/-- A task that goes on claims what it did, or nothing. -/
theorem System.taken_setTask (ht : s.tasks[i]? = some t) (hactive : t.active = true)
    (hfd : t'.fd = t.fd)
    (hconn : t'.conn = t.conn) : (s.setTask i (some t')).taken.Sublist s.taken := by
  have hclaim : t'.claim = t.claim ∨ t'.claim = none := by
    simp only [Task.claim, hactive, hfd, hconn]
    cases t'.active <;> simp
  exact (Roster.filterMap_set_sublist ht hclaim).append (List.Sublist.refl _)

/-- A task goes on, with its own descriptor, or returns. -/
theorem Settled.setTask (h : Settled s) (ht : s.tasks[i]? = some t) (hactive : t.active = true)
    (hfd : t'.fd = t.fd) (hconn : t'.conn = t.conn)
    (hreading : ∀ dest transfer c, t'.stage = .reading dest transfer c → c = t'.conn) :
    Settled (s.setTask i (some t')) := by
  have htaken := System.taken_setTask ht hactive hfd hconn
  have hclaims : (s.setTask i (some t')).claims.Sublist s.claims :=
    htaken.append (List.Sublist.refl _)
  refine ⟨h.unique, fun x hx => h.number x (hclaims.subset hx), h.once.sublist (hclaims.map _),
    fun x hx => h.held x (hclaims.subset hx), h.watched, ?_, ?_, ?_, h.own⟩
  · exact fun fd hfd hmem => h.apart fd hfd ((htaken.map _).subset hmem)
  · exact fun fd hfd =>
      ⟨fun hmem => (h.fresh fd hfd).1 ((hclaims.map _).subset hmem), (h.fresh fd hfd).2⟩
  · intro u hu
    rcases List.mem_or_eq_of_mem_set hu with hu | rfl
    · exact h.reading u hu
    · exact hreading

/-- What a task does between system calls leaves its descriptor as it is. -/
theorem Task.after_eq {piece : Conn → Conn} (h : t.after lib piece = some t') :
    t'.fd = t.fd ∧ t'.conn = t.conn ∧ ∀ dest transfer c, t'.stage ≠ .reading dest transfer c := by
  obtain ⟨stage, hstage, rfl⟩ := Option.map_eq_some_iff.mp h
  refine ⟨rfl, rfl, ?_⟩
  rintro dest transfer c rfl
  unfold Stage.ofPhase at hstage
  split at hstage <;> cases hstage

theorem Settled.after (h : Settled s) (ht : s.tasks[i]? = some t) (hactive : t.active = true)
    (piece : Conn → Conn) : Settled (s.setTask i (t.after lib piece)) := by
  cases ht' : t.after lib piece with
  | none => exact h.frame _ _ _
  | some t' =>
    obtain ⟨hfd, hconn, hreading⟩ := Task.after_eq ht'
    exact h.setTask ht hactive hfd hconn fun dest transfer c hc =>
      absurd hc (hreading dest transfer c)

/-- A task goes on to a stage that is not a `recv`. -/
theorem Settled.setStage (h : Settled s) (ht : s.tasks[i]? = some t) (hactive : t.active = true)
    {stage : Stage} (hstage : ∀ dest transfer c, stage ≠ .reading dest transfer c) :
    Settled (s.setTask i (some { t with stage := stage })) :=
  h.setTask ht hactive rfl rfl fun dest transfer c hc => absurd hc (hstage dest transfer c)

theorem Settled.lookupEntry (h : Settled s) (ht : s.tasks[i]? = some t) (hactive : t.active = true)
    {next : Info → Stage} (hnext : ∀ info dest transfer c, next info ≠ .reading dest transfer c) :
    Settled (s.lookupEntry i t next) := by
  unfold System.lookupEntry
  cases s.m_map.lookup t.fd with
  | none => exact h.frame _ _ _
  | some info => exact h.setStage ht hactive (hnext info)

/-- `addFd` comes before or after what leaves the descriptors alone. -/
theorem System.addFd_comm (f : System → System) (hholder : (f s).holder fd = s.holder fd)
    (hinterest : (f s).interest = s.interest)
    (hf : f { s with interest := s.interest ++ [fd] } =
      { f s with interest := s.interest ++ [fd] }) :
    f (s.addFd fd) = (f s).addFd fd := by
  unfold System.addFd
  rw [hholder, hinterest]
  split
  · exact hf
  · rfl

/-- A task that has returned claims nothing, and no other task its number. -/
theorem Settled.unclaimed_returned (h : Settled s) (ht : s.tasks[i]? = some t)
    (hactive : t.active = true) :
    ¬ (s.setTask i (some { t with stage := .returned })).Claimed t.fd := by
  have hclaim : t.claim = some (t.fd, t.conn) := if_pos hactive
  have htasks := Roster.filterMap_set_perm ht hclaim (b := { t with stage := .returned }) rfl
  have hclaims :
      s.claims.Perm ((t.fd, t.conn) :: (s.setTask i (some { t with stage := .returned })).claims) :=
    (htasks.append_right _).append_right _
  have honce := h.once
  rw [(hclaims.map _).nodup_iff, List.map_cons, List.nodup_cons] at honce
  exact honce.1

/-- A task has epoll watch its connection again, and returns. -/
theorem Settled.watch (h : Settled s) (ht : s.tasks[i]? = some t) (hactive : t.active = true) :
    Settled ((s.addFd t.fd).setTask i (some { t with stage := .returned })) := by
  have hreturned : Settled (s.setTask i (some { t with stage := .returned })) :=
    h.setStage ht hactive nofun
  have hcomm : (s.addFd t.fd).setTask i (some { t with stage := .returned }) =
      (s.setTask i (some { t with stage := .returned })).addFd t.fd :=
    System.addFd_comm (fun s => s.setTask i (some { t with stage := .returned })) rfl rfl rfl
  have htaken : t.fd ∉ (s.setTask i (some { t with stage := .returned })).taken.map Prod.fst :=
    fun hmem =>
    h.unclaimed_returned ht hactive (((List.sublist_append_left _ _).map _).subset hmem)
  rw [hcomm]
  refine hreturned.addFd htaken fun hfresh => (h.fresh t.fd hfresh).1 ?_
  exact List.mem_map_of_mem (Task.mem_claims ht hactive)

/-- The steps of a task that are neither a `recv` nor a handler's. -/
theorem Settled.step_task (h : Settled s) (ht : s.tasks[i]? = some t) (hs : s.step i t = some s') :
    Settled s' := by
  unfold System.step at hs
  split at hs
  · rename_i hstage
    cases hs
    exact h.watch ht (by simp [Task.active, hstage])
  · rename_i hstage
    cases hs
    exact h.lookupEntry ht (by simp [Task.active, hstage]) fun _ => nofun
  · rename_i hstage
    cases hs
    exact h.lookupEntry ht (by simp [Task.active, hstage]) fun _ => nofun
  · rename_i userId hstage
    cases hs
    have hstop := h.frame s.evaluator (s.streams.stop userId) s.beat
    exact hstop.setStage ht (by simp [Task.active, hstage]) nofun
  · rename_i hstage
    cases hs
    have hactive : t.active = true := by simp [Task.active, hstage]
    have hremove := h.frame { s.evaluator with m_map_boost := s.m_map.remove t.fd } s.streams s.beat
    refine (hremove.touch fun c hc => ?_).setStage ht hactive nofun
    obtain ⟨_, -, hc⟩ := Option.bind_eq_some_iff.mp hc
    exact h.conn_eq ht hactive hc
  · rename_i hstage
    cases hs
    exact (h.deleteFd _).setStage ht (by simp [Task.active, hstage]) nofun
  · rename_i hstage
    cases hs
    have hactive : t.active = true := by simp [Task.active, hstage]
    exact ((h.close _).touch fun c hc => h.conn_eq ht hactive hc).setStage ht hactive nofun
  · cases hs

theorem Settled.recv (h : Settled s) (ht : s.tasks[i]? = some t) (hactive : t.active = true)
    (dest : Dest) (transfer : Transfer) : Settled (s.recv lib i t dest transfer) := by
  unfold System.recv
  cases hc : s.holder t.fd with
  | none => exact h.after ht hactive _
  | some c =>
    refine h.setTask ht hactive rfl rfl ?_
    rintro dest' transfer' c' ⟨⟩
    exact h.conn_eq ht hactive hc

theorem Settled.effect (h : Settled s) (ht : s.tasks[i]? = some t) (hactive : t.active = true)
    (answer : (e : Effect) → e.Answer) (p : Handler Unit) :
    Settled (s.effect lib i t answer p) := by
  cases p with
  | ret =>
    show Settled (s.setTask i (t.after lib Conn.nextHeader))
    exact h.after ht hactive _
  | fail => exact h.frame _ _ _
  | call e next =>
    let done := performFor t.fd t.conn s.m_map s.streams answer e
    have hdone := h.frame { s.evaluator with m_map_boost := done.1.1 } done.1.2 s.beat
    have hstage : ∀ dest transfer c, Stage.handling (next done.2) ≠ .reading dest transfer c :=
      nofun
    exact hdone.setStage ht hactive hstage

/-! ### The event loop -/

theorem Settled.accept (h : Settled s) (hloop : s.loop = .polling) (hnone : s.holder fd = none)
    (hfree : ¬ s.Claimed fd) :
    Settled { s with
      connections := s.connections ++ [{ fd := fd, isOpen := true }]
      loop := .add fd } := by
  have hholder : ∀ fd', fd' ≠ fd → ∀ loop, ({ s with
      connections := s.connections ++ [{ fd := fd, isOpen := true }], loop := loop } :
        System).holder fd' =
        s.holder fd' := by
    intro fd' hne loop
    refine (holder_accept fd fd').trans ?_
    rw [if_neg (Ne.symm hne), Option.or_none]
  have hunwatched : fd ∉ s.interest := fun hmem => by simpa [hnone] using h.watched fd hmem
  have htaken : ({ s with
      connections := s.connections ++ [{ fd := fd, isOpen := true }], loop := .add fd } :
        System).taken = s.taken := by
    simp only [System.taken, hloop, Loop.claim]
  have hclaims : ({ s with
      connections := s.connections ++ [{ fd := fd, isOpen := true }], loop := .add fd } :
        System).claims = s.claims := by
    rw [System.claims, htaken]
    rfl
  refine ⟨?_, ?_, hclaims ▸ h.once, ?_, ?_, htaken ▸ h.apart, ?_, h.reading, h.own⟩
  · intro d c hc hopen
    refine (holder_accept fd c.fd).trans ?_
    rcases Roster.getElem?_concat_iff.mp hc with hd | ⟨rfl, rfl⟩
    · rw [h.unique d c hd hopen, Option.some_or]
    · rw [hnone, if_pos rfl, Option.none_or]
  · intro x hx
    obtain ⟨c, hc, hfd⟩ := h.number x (hclaims ▸ hx)
    exact ⟨c, Roster.getElem?_concat_iff.mpr (.inl hc), hfd⟩
  · intro x hx c hc
    rw [hclaims] at hx
    have hne : x.1 ≠ fd := fun heq => hfree (heq ▸ List.mem_map_of_mem hx)
    rw [hholder _ hne] at hc
    exact h.held x hx c hc
  · intro fd' hmem
    have hne : fd' ≠ fd := fun heq => hunwatched (heq ▸ hmem)
    rw [hholder _ hne]
    exact h.watched fd' hmem
  · rintro fd' ⟨⟩
    rw [System.Claimed, hclaims]
    exact ⟨hfree, hunwatched⟩

theorem Settled.wait (h : Settled s) (hloop : s.loop = .polling) (hevs : s.evs = []) {fds : List ℕ}
    (hnodup : fds.Nodup) (hfds : ∀ fd ∈ fds, fd ∈ s.interest) :
    Settled { s with evs := fds.filterMap fun fd => (s.holder fd).map fun c => (fd, c) } := by
  have hclaims : s.claims = s.taken := by rw [System.claims, hevs, List.append_nil]
  have hfirst :
      ((fds.filterMap fun fd => (s.holder fd).map fun c => (fd, c)).map Prod.fst).Sublist fds := by
    rw [List.map_filterMap]
    have hfst : ∀ fd, Option.map Prod.fst ((s.holder fd).map fun c => (fd, c)) =
        (s.holder fd).map fun _ => fd := by
      intro fd
      rw [Option.map_map]
      rfl
    simp only [hfst]
    induction fds with
    | nil => exact List.Sublist.refl _
    | cons fd fds ih =>
      rw [List.filterMap_cons]
      have ih :=
        ih (List.nodup_cons.mp hnodup).2 fun fd' hfd' => hfds fd' (List.mem_cons_of_mem _ hfd')
      cases s.holder fd with
      | none => exact ih.cons fd
      | some c => exact ih.cons_cons fd
  refine ⟨h.unique, ?_, ?_, ?_, h.watched, h.apart, ?_, h.reading, h.own⟩
  · intro x hx
    rcases List.mem_append.mp hx with hx | hx
    · exact h.number x (hclaims ▸ hx)
    · obtain ⟨fd, -, hx⟩ := List.mem_filterMap.mp hx
      obtain ⟨c, hc, rfl⟩ := Option.map_eq_some_iff.mp hx
      exact fd_of_holder hc
  · show ((s.taken ++ _).map Prod.fst).Nodup
    rw [List.map_append, List.nodup_append]
    refine ⟨hclaims ▸ h.once, hnodup.sublist hfirst, ?_⟩
    rintro fd hfd fd' hfd' rfl
    exact h.apart fd (hfds fd (hfirst.subset hfd')) hfd
  · intro x hx c hc
    rcases List.mem_append.mp hx with hx | hx
    · exact h.held x (hclaims ▸ hx) c hc
    · obtain ⟨fd, -, hx⟩ := List.mem_filterMap.mp hx
      obtain ⟨c', hc', rfl⟩ := Option.map_eq_some_iff.mp hx
      exact Option.some.inj (hc.symm.trans hc')
  · intro fd hfd
    simp [hloop, Loop.fresh] at hfd

/-- The loop takes an event. -/
theorem Settled.take (h : Settled s) (hloop : s.loop = .polling) {c : ℕ} {evs : List (ℕ × ℕ)}
    (hevs : s.evs = (fd, c) :: evs) :
    Settled { s.deleteFd fd with evs := evs, loop := .add_task fd c } := by
  have hclaims : ({ s.deleteFd fd with evs := evs, loop := .add_task fd c } : System).claims =
      s.claims := by
    simp [System.claims, System.taken, System.deleteFd, hloop, hevs, Loop.claim]
  refine ⟨h.unique, fun x hx => h.number x (hclaims ▸ hx), hclaims ▸ h.once,
    fun x hx => h.held x (hclaims ▸ hx), (h.deleteFd fd).watched, ?_, nofun, h.reading, h.own⟩
  intro fd' hmem htaken
  obtain ⟨hmem, hne⟩ := List.mem_filter.mp hmem
  obtain ⟨x, hx, rfl⟩ := List.mem_map.mp htaken
  rcases List.mem_append.mp hx with hx | hx
  · exact h.apart x.1 hmem (List.mem_map_of_mem (List.mem_append_left _ hx))
  · rw [List.mem_singleton.mp hx] at hne
    exact of_decide_eq_true hne rfl

/-- The loop puts the task of an event into the pool. -/
theorem Settled.add_task (h : Settled s) {c : ℕ} (hloop : s.loop = .add_task fd c)
    (pheader : NetPacketHeader) :
    Settled { s with
      tasks := s.tasks ++ [{ fd := fd, conn := c, pheader := pheader, stage := .queued }]
      loop := .polling } := by
  have htaken : ({ s with
      tasks := s.tasks ++ [{ fd := fd, conn := c, pheader := pheader, stage := .queued }]
      loop := .polling } : System).taken = s.taken := by
    simp [System.taken, hloop, Loop.claim, Task.claim, Task.active]
  have hclaims : ({ s with
      tasks := s.tasks ++ [{ fd := fd, conn := c, pheader := pheader, stage := .queued }]
      loop := .polling } : System).claims = s.claims := by
    rw [System.claims, htaken]
    rfl
  refine ⟨h.unique, fun x hx => h.number x (hclaims ▸ hx), hclaims ▸ h.once,
    fun x hx => h.held x (hclaims ▸ hx), h.watched, htaken ▸ h.apart, nofun, ?_, h.own⟩
  intro t ht dest transfer c' hstage
  rcases List.mem_append.mp ht with ht | ht
  · exact h.reading t ht dest transfer c' hstage
  · rw [List.mem_singleton.mp ht] at hstage
    cases hstage

/-- The loop goes on with a connection it has accepted. -/
theorem Settled.add (h : Settled s) (hloop : s.loop = .add fd) (evaluator : Evaluator ℕ) :
    Settled { s with evaluator := evaluator, loop := .addFd fd } := by
  have htaken : ({ s with evaluator := evaluator, loop := .addFd fd } : System).taken =
      s.taken := by
    simp only [System.taken, hloop, Loop.claim]
  have hclaims : ({ s with evaluator := evaluator, loop := .addFd fd } : System).claims =
      s.claims := by
    rw [System.claims, htaken]
    rfl
  refine ⟨h.unique, fun x hx => h.number x (hclaims ▸ hx), hclaims ▸ h.once,
    fun x hx => h.held x (hclaims ▸ hx), h.watched, htaken ▸ h.apart, ?_, h.reading, h.own⟩
  rintro fd' ⟨⟩
  rw [System.Claimed, hclaims]
  exact h.fresh fd (by rw [hloop, Loop.fresh])

theorem Settled.register (h : Settled s) (hloop : s.loop = .addFd fd) :
    Settled { s.addFd fd with loop := .polling } := by
  have hunclaimed : ¬ s.Claimed fd := (h.fresh fd (by rw [hloop, Loop.fresh])).1
  have htaken : ({ s with loop := .polling } : System).taken = s.taken := by
    simp only [System.taken, hloop, Loop.claim]
  have hclaims : ({ s with loop := .polling } : System).claims = s.claims := by
    rw [System.claims, htaken]
    rfl
  have hpolling : Settled { s with loop := .polling } :=
    ⟨h.unique, fun x hx => h.number x (hclaims ▸ hx),
    hclaims ▸ h.once, fun x hx => h.held x (hclaims ▸ hx), h.watched, htaken ▸ h.apart, nofun,
      h.reading, h.own⟩
  have hcomm :
      { s.addFd fd with loop := .polling } = ({ s with loop := .polling } : System).addFd fd :=
    System.addFd_comm (fun s => { s with loop := .polling }) rfl rfl rfl
  rw [hcomm]
  refine hpolling.addFd ?_ nofun
  rw [htaken]
  intro hmem
  obtain ⟨x, hx, rfl⟩ := List.mem_map.mp hmem
  exact hunclaimed (List.mem_map_of_mem (List.mem_append_left _ hx))

theorem Settled.step (h : Settled s) (hfree : Unclaimed s move)
    (hs : serving lib s move = some s') :
    Settled s' := by
  unfold serving at hs
  split at hs
  · cases hs
  · cases move with
    | accept fd =>
      dsimp only at hs
      split at hs <;> cases hs
      rename_i hc
      exact h.accept hc.1 hc.2 hfree
    | add ip =>
      dsimp only at hs
      split at hs <;> cases hs
      rename_i fd hloop
      exact h.add hloop _
    | addFd =>
      dsimp only at hs
      split at hs <;> cases hs
      rename_i fd hloop
      exact h.register hloop
    | wait fds =>
      dsimp only at hs
      split at hs <;> cases hs
      rename_i hc
      exact h.wait hc.1 hc.2.1 hc.2.2.1 hc.2.2.2.1
    | deleteFd =>
      dsimp only at hs
      split at hs <;> cases hs
      rename_i fd c evs hloop hevs
      exact h.take hloop hevs
    | add_task =>
      dsimp only at hs
      split at hs <;> cases hs
      rename_i fd c hloop
      exact h.add_task hloop _
    | start i =>
      obtain ⟨t, ht, hs⟩ := Option.bind_eq_some_iff.mp hs
      split at hs <;> cases hs
      rename_i hstage
      exact h.after ht (by simp [Task.active, hstage]) _
    | recv i =>
      obtain ⟨t, ht, hs⟩ := Option.bind_eq_some_iff.mp hs
      split at hs <;> cases hs
      rename_i dest transfer hstage
      exact h.recv ht (by simp [Task.active, hstage]) dest transfer
    | recvReturn i outcome =>
      obtain ⟨t, ht, hs⟩ := Option.bind_eq_some_iff.mp hs
      split at hs
      · rename_i dest transfer c hstage
        split at hs <;> cases hs
        have hown : c = t.conn := h.reading t (List.mem_of_getElem? ht) dest transfer c hstage
        refine (h.touch fun c' hc' => ?_).after ht (by simp [Task.active, hstage]) _
        cases outcome <;> cases hc'
        exact hown
      · cases hs
    | effect i answer =>
      obtain ⟨t, ht, hs⟩ := Option.bind_eq_some_iff.mp hs
      split at hs <;> cases hs
      rename_i p hstage
      exact h.effect ht (by simp [Task.active, hstage]) answer p
    | step i =>
      obtain ⟨t, ht, hs⟩ := Option.bind_eq_some_iff.mp hs
      exact h.step_task ht hs
    | copy =>
      dsimp only at hs
      split at hs <;> cases hs
      exact h.frame _ _ _
    | visit fd =>
      dsimp only at hs
      split at hs
      · obtain ⟨data, -, rfl⟩ := Option.map_eq_some_iff.mp hs
        exact h.frame _ _ _
      · cases hs
    | evict =>
      dsimp only at hs
      split at hs <;> cases hs
      · exact (h.deleteFd _).frame _ _ _
      · exact (h.close _).frame _ _ _
    | done =>
      dsimp only at hs
      split at hs <;> cases hs
      exact h.frame _ _ _

/-! ### The tasks, as a whole -/

/-- A descriptor has one task at most. -/
theorem Settled.index_eq (h : Settled s) {j : ℕ} (ht : s.tasks[i]? = some t)
    (ht' : s.tasks[j]? = some t') (hactive : t.active = true) (hactive' : t'.active = true)
    (hfd : t.fd = t'.fd) : i = j := by
  have hpairs : s.tasks.Pairwise fun a b => ∀ x, a.claim = some x → ∀ y, b.claim = some y →
      x.1 ≠ y.1 := by
    have honce : (s.tasks.filterMap Task.claim).Pairwise fun x y => x.1 ≠ y.1 := by
      have hsub : (s.tasks.filterMap Task.claim).Sublist s.claims :=
        (List.sublist_append_left _ _).trans (List.sublist_append_left _ _)
      exact List.pairwise_map.mp (h.once.sublist (hsub.map _))
    exact List.pairwise_filterMap.mp honce
  have hne : ∀ (i j : ℕ) (t u : Task), s.tasks[i]? = some t → s.tasks[j]? = some u →
    t.active = true →
      u.active = true → t.fd = u.fd → ¬ i < j := by
    intro i j t u ht hu hactive hactive' heq hlt
    obtain ⟨hi, rfl⟩ := List.getElem?_eq_some_iff.mp ht
    obtain ⟨hj, rfl⟩ := List.getElem?_eq_some_iff.mp hu
    exact List.pairwise_iff_getElem.mp hpairs i j hi hj hlt _ (if_pos hactive) _
      (if_pos hactive') heq
  have hij := hne i j t t' ht ht' hactive hactive' hfd
  have hji := hne j i t' t ht' ht hactive' hactive hfd.symm
  omega

/-- A connection has one task at most. -/
theorem Settled.task_eq (h : Settled s) (ht : s.tasks[i]? = some t) (hactive : t.active = true)
    (ht' : t' ∈ s.tasks) (hactive' : t'.active = true) (hconn : t'.conn = t.conn) : t' = t := by
  obtain ⟨j, ht'⟩ := List.mem_iff_getElem?.mp ht'
  obtain ⟨c, hc, hfd⟩ := h.number _ (Task.mem_claims ht hactive)
  obtain ⟨c', hc', hfd'⟩ := h.number _ (Task.mem_claims ht' hactive')
  have hcc : c = c' := by
    rw [hconn] at hc'
    exact Option.some.inj (hc.symm.trans hc')
  have hij := h.index_eq ht ht' hactive hactive' (hfd.symm.trans (hcc ▸ hfd'))
  subst hij
  exact Option.some.inj (ht'.symm.trans ht)

theorem Settled.ownsConnections (h : Settled s) : OwnsConnections s := by
  refine ⟨?_, h.own⟩
  intro c i j t u ht hu hreads hreads'
  obtain ⟨conn, hconn, hfd⟩ := fd_of_holder hreads.2
  obtain ⟨conn', hconn', hfd'⟩ := fd_of_holder hreads'.2
  cases hconn.symm.trans hconn'
  exact h.index_eq ht hu hreads.1 hreads'.1 (hfd.symm.trans hfd')

/-- **The tasks keep to their own connections** in every run in which no connection is given a
number that is still claimed. -/
theorem ownsConnections_of_run (lib : Nlohmann) (s : System) (moves : List Move)
    (hfree : (serving lib).Guarded Unclaimed System.initial moves)
    (hrun : (serving lib).exec System.initial moves = some s) : OwnsConnections s := by
  have hsettled : Settled s :=
    (serving lib).exec_inv_guarded (fun _ _ _ h hfree hs => h.step hfree hs)
    settled_initial hfree hrun
  exact hsettled.ownsConnections

/-! ### A number given away -/

/-- A connection is accepted, and its event becomes task `i`. -/
def connect (fd : ℕ) (ip : String) (i : ℕ) : List Move :=
  [.accept fd, .add ip, .addFd, .wait [fd], .deleteFd, .add_task, .start i, .recv i]

/-- A sweep over one connection. -/
def sweepOf (fd : ℕ) : List Move := [.copy, .visit fd, .done]

/-- A client announces a packet of ten bytes and falls silent. After four rounds it is evicted, and
its task is still in the `recv` of the packet. Another client connects and is given the number, and
now the first `recv` returns: the task, back at the head of its loop, reads what the second client
sends. -/
def stolenRun : List Move :=
  connect 5 "192.168.0.1:1" 0 ++
    [.recvReturn 0 (.bytes (NetPacketHeader.bytes { purpose := 2, data_size := 10 })), .recv 0] ++
    sweepOf 5 ++ sweepOf 5 ++ sweepOf 5 ++ [.copy, .visit 5, .evict, .evict, .done] ++
    connect 5 "192.168.0.2:1" 1 ++
    [.recvReturn 0 .zero, .recv 0, .recvReturn 0 (.bytes [2])]

/-- A parser that parses nothing. -/
def deaf : Nlohmann where
  parse := fun _ => none
  dump := fun _ => []

/-- A task started for the first connection reads bytes of the second, whose own task reads them as
well. -/
theorem stolen : ∃ s t u, (serving deaf).exec System.initial stolenRun = some s ∧ s.tasks = [t, u] ∧
    s.Reads t 1 ∧ s.Reads u 1 ∧ s.touched = [(0, 0), (0, 1)] :=
  ⟨_, _, _, rfl, rfl, ⟨rfl, rfl⟩, ⟨rfl, rfl⟩, rfl⟩

/-- **Not every run keeps the tasks to their own connections.** -/
theorem stolen_connection : ¬ ∀ (moves : List Move) (s : System),
    (serving deaf).exec System.initial moves = some s → OwnsConnections s := by
  intro h
  obtain ⟨s, t, u, hrun, -, -, -, htouched⟩ := stolen
  have hown := (h stolenRun s hrun).own (0, 1) (by rw [htouched]; decide)
  exact absurd hown (by decide)

/-- A client closes its connection, and its task takes it down; the next client is given the
number. -/
def handedOnRun : List Move :=
  connect 5 "192.168.0.1:1" 0 ++ [.recvReturn 0 .zero] ++ List.replicate 6 (.step 0) ++
    connect 5 "192.168.0.2:1" 1 ++ [.recvReturn 1 (.bytes [2])]

/-- A number that is free again can be given away. -/
theorem ownsConnections_of_run_handedOn :
    ∃ s, (serving deaf).exec System.initial handedOnRun = some s ∧
    s.touched = [(0, 0), (0, 0), (1, 1)] ∧ OwnsConnections s := by
  obtain ⟨s, hrun, htouched⟩ : ∃ s, (serving deaf).exec System.initial handedOnRun = some s ∧
      s.touched = [(0, 0), (0, 0), (1, 1)] := ⟨_, rfl, rfl⟩
  refine ⟨s, hrun, htouched, ownsConnections_of_run deaf s handedOnRun ?_ hrun⟩
  decide

end PickUpLight.Epoll
