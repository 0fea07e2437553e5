import PickUpLight.Epoll.Ownership

/-!
# Evictions

A task gives its descriptor up before its number is free, and so does the event loop. Only the
heartbeat thread closes what others still use: in the runs in which it closes no claimed number,
every claimed number stays open (`Tied`), the kernel cannot give one away, and the tasks keep to
their own connections (`ownsConnections_of_spared`).
-/

namespace PickUpLight.Epoll

open PickUpLight.Theory PickUpLight.Wire PickUpLight.Control PickUpLight.Heartbeat PickUpLight.Live

/-- The heartbeat thread closes no number that is claimed. -/
def Spared (s : System) : Move → Prop
  | .evict => ∀ fd, s.beat = .close fd → ¬ s.Claimed fd
  | _ => True

/-- Every claimed number is open. -/
def Tied (s : System) : Prop := ∀ x ∈ s.claims, (s.holder x.1).isSome = true

variable {lib : Nlohmann} {s s' : System} {i fd : ℕ} {t t' : Task} {move : Move}

theorem tied_initial : Tied System.initial := fun _ hx => absurd hx List.not_mem_nil

/-- Nothing more is claimed, and nothing is closed. -/
theorem Tied.mono (h : Tied s) (hclaims : s'.claims ⊆ s.claims)
    (hholder : ∀ fd, (s.holder fd).isSome = true → (s'.holder fd).isSome = true) : Tied s' :=
  fun x hx => hholder x.1 (h x (hclaims hx))

theorem Tied.addFd (h : Tied s) : Tied (s.addFd fd) := by
  unfold System.addFd
  split <;> exact h

/-- A number that is not claimed is closed. -/
theorem Tied.close (h : Tied s) (hfree : ¬ s.Claimed fd) : Tied (s.close fd) := by
  intro x hx
  have hne : x.1 ≠ fd := fun heq => hfree (heq ▸ List.mem_map_of_mem hx)
  rw [holder_close, if_neg hne]
  exact h x hx

theorem Tied.setTask (h : Tied s) (ht : s.tasks[i]? = some t) (hactive : t.active = true)
    (hfd : t'.fd = t.fd) (hconn : t'.conn = t.conn) : Tied (s.setTask i (some t')) :=
  h.mono ((System.taken_setTask ht hactive hfd hconn).append (List.Sublist.refl _)).subset fun _ =>
    id

theorem Tied.after (h : Tied s) (ht : s.tasks[i]? = some t) (hactive : t.active = true)
    (piece : Conn → Conn) :
    Tied (s.setTask i (t.after lib piece)) := by
  cases ht' : t.after lib piece with
  | none => exact h
  | some t' =>
    obtain ⟨hfd, hconn, -⟩ := Task.after_eq ht'
    exact h.setTask ht hactive hfd hconn

/-- The steps of a task that are neither a `recv` nor a handler's. -/
theorem Tied.step_task (h : Tied s) (hsettled : Settled s) (ht : s.tasks[i]? = some t)
    (hs : s.step i t = some s') :
    Tied s' := by
  have hactive : t.active = true := by
    unfold Task.active
    unfold System.step at hs
    cases hstage : t.stage <;> simp [hstage] at hs ⊢
  have hgoes : ∀ stage, Tied (s.setTask i (some { t with stage := stage })) :=
    fun _ => h.setTask ht hactive rfl rfl
  have hlookup : ∀ next, Tied (s.lookupEntry i t next) := by
    intro next
    unfold System.lookupEntry
    cases s.m_map.lookup t.fd with
    | none => exact h
    | some info => exact hgoes _
  unfold System.step at hs
  split at hs <;> cases hs
  · rw [System.addFd_comm (fun s => s.setTask i (some { t with stage := .returned })) rfl rfl rfl]
    exact (hgoes _).addFd
  · exact hlookup _
  · exact hlookup _
  · exact hgoes _
  · exact hgoes _
  · exact hgoes _
  -- the number is given up before it is free
  · exact (hgoes .returned).close (hsettled.unclaimed_returned ht hactive)

theorem Tied.effect (h : Tied s) (ht : s.tasks[i]? = some t) (hactive : t.active = true)
    (answer : (e : Effect) → e.Answer) (p : Handler Unit) : Tied (s.effect lib i t answer p) := by
  cases p with
  | ret =>
    show Tied (s.setTask i (t.after lib Conn.nextHeader))
    exact h.after ht hactive _
  | fail => exact h
  | call e next =>
    have hnext : ∀ stage, Tied (s.setTask i (some { t with stage := stage })) :=
      fun _ => h.setTask ht hactive rfl rfl
    exact hnext (.handling (next (performFor t.fd t.conn s.m_map s.streams answer e).2))

theorem Tied.recv (h : Tied s) (ht : s.tasks[i]? = some t) (hactive : t.active = true) (dest : Dest)
    (transfer : Transfer) : Tied (s.recv lib i t dest transfer) := by
  unfold System.recv
  cases s.holder t.fd with
  | none => exact h.after ht hactive _
  | some c => exact h.setTask ht hactive rfl rfl

/-- What is reported is open. -/
theorem Tied.wait (h : Tied s) (hevs : s.evs = []) (fds : List ℕ) :
    Tied { s with evs := fds.filterMap fun fd => (s.holder fd).map fun c => (fd, c) } := by
  intro x hx
  rcases List.mem_append.mp hx with hx | hx
  · exact h x (by rw [System.claims, hevs, List.append_nil]; exact hx)
  · obtain ⟨fd, -, hx⟩ := List.mem_filterMap.mp hx
    obtain ⟨c, hc, rfl⟩ := Option.map_eq_some_iff.mp hx
    exact Option.isSome_iff_exists.mpr ⟨c, hc⟩

theorem Tied.step (h : Tied s) (hsettled : Settled s) (hspared : Spared s move)
    (hs : serving lib s move = some s') :
    Tied s' := by
  unfold serving at hs
  split at hs
  · cases hs
  · cases move with
    | accept fd =>
      dsimp only at hs
      split at hs <;> cases hs
      rename_i hc
      refine h.mono ?_ fun fd' hfd' => ?_
      · simp [System.claims, System.taken, hc.1, Loop.claim]
      · refine Eq.trans (congrArg Option.isSome (holder_accept fd fd')) ?_
        rw [Option.isSome_or, hfd', Bool.true_or]
    | add ip =>
      dsimp only at hs
      split at hs <;> cases hs
      rename_i fd hloop
      refine h.mono ?_ fun _ => id
      simp [System.claims, System.taken, hloop, Loop.claim]
    | addFd =>
      dsimp only at hs
      split at hs <;> cases hs
      rename_i fd hloop
      rw [System.addFd_comm (fun s => { s with loop := .polling }) rfl rfl rfl]
      refine Tied.addFd (h.mono ?_ fun _ => id)
      simp [System.claims, System.taken, hloop, Loop.claim]
    | wait fds =>
      dsimp only at hs
      split at hs <;> cases hs
      rename_i hc
      exact h.wait hc.2.1 fds
    | deleteFd =>
      dsimp only at hs
      split at hs <;> cases hs
      rename_i fd c evs hloop hevs
      refine h.mono ?_ fun _ => id
      simp [System.claims, System.taken, System.deleteFd, hloop, hevs, Loop.claim]
    | add_task =>
      dsimp only at hs
      split at hs <;> cases hs
      rename_i fd c hloop
      refine h.mono ?_ fun _ => id
      simp [System.claims, System.taken, hloop, Loop.claim, Task.claim, Task.active]
    | start i =>
      obtain ⟨t, ht, hs⟩ := Option.bind_eq_some_iff.mp hs
      split at hs <;> cases hs
      rename_i hstage
      exact h.after ht (by simp [Task.active, hstage]) _
    | recv i =>
      obtain ⟨t, ht, hs⟩ := Option.bind_eq_some_iff.mp hs
      split at hs <;> cases hs
      rename_i dest transfer hstage
      exact h.recv ht (by simp [Task.active, hstage]) dest transfer
    | recvReturn i outcome =>
      obtain ⟨t, ht, hs⟩ := Option.bind_eq_some_iff.mp hs
      split at hs
      · rename_i dest transfer c hstage
        split at hs <;> cases hs
        have htouched : Tied (s.touch t (System.readOf c outcome)) := h
        exact htouched.after ht (by simp [Task.active, hstage]) _
      · cases hs
    | effect i answer =>
      obtain ⟨t, ht, hs⟩ := Option.bind_eq_some_iff.mp hs
      split at hs <;> cases hs
      rename_i p hstage
      exact h.effect ht (by simp [Task.active, hstage]) answer p
    | step i =>
      obtain ⟨t, ht, hs⟩ := Option.bind_eq_some_iff.mp hs
      exact h.step_task hsettled ht hs
    | copy | done =>
      dsimp only at hs
      split at hs <;> cases hs
      exact h
    | visit fd =>
      dsimp only at hs
      split at hs
      · obtain ⟨data, -, rfl⟩ := Option.map_eq_some_iff.mp hs
        exact h
      · cases hs
    | evict =>
      dsimp only at hs
      split at hs <;> cases hs
      · exact h
      · rename_i fd hbeat
        exact h.close (hspared fd hbeat)

/-- A number that is given away is not open, and so not claimed. -/
theorem Tied.unclaimed (h : Tied s) (hs : serving lib s move = some s') : Unclaimed s move := by
  cases move with
  | accept fd =>
    unfold serving at hs
    dsimp only at hs
    split at hs
    · cases hs
    · split at hs <;> cases hs
      rename_i hc
      intro hclaimed
      obtain ⟨x, hx, rfl⟩ := List.mem_map.mp hclaimed
      have hopen := h x hx
      rw [hc.2] at hopen
      cases hopen
  | _ => trivial

/-- **Where the heartbeat thread closes no claimed number**, no claimed number is given away. -/
theorem unclaimed_of_spared (lib : Nlohmann) {moves : List Move}
    (hspared : (serving lib).Guarded Spared System.initial moves)
    (hrun : (serving lib).exec System.initial moves = some s) :
    (serving lib).Guarded Unclaimed System.initial moves := by
  have hstep : ∀ s move s', Settled s ∧ Tied s → Spared s move → serving lib s move = some s' →
      (Settled s' ∧ Tied s') ∧ Unclaimed s move := by
    rintro s move s' ⟨hsettled, htied⟩ hspared hs
    have hfree : Unclaimed s move := htied.unclaimed hs
    exact ⟨⟨hsettled.step hfree hs, htied.step hsettled hspared hs⟩, hfree⟩
  exact Machine.Guarded.of_inv _ hstep ⟨settled_initial, tied_initial⟩ hspared hrun

/-- **Only evictions take connections from their tasks**: where the heartbeat thread closes no
claimed number, the tasks keep to their own connections. -/
theorem ownsConnections_of_spared (lib : Nlohmann) {moves : List Move}
    (hspared : (serving lib).Guarded Spared System.initial moves)
    (hrun : (serving lib).exec System.initial moves = some s) : OwnsConnections s := by
  have hsettled : Settled s :=
    (serving lib).exec_inv_guarded (fun _ _ _ h hfree hs => h.step hfree hs)
    settled_initial (unclaimed_of_spared lib hspared hrun) hrun
  exact hsettled.ownsConnections

end PickUpLight.Epoll
