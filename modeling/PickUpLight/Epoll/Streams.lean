import PickUpLight.Epoll.Ownership

/-!
# The streams of the epoll server

A task that finds its connection closed by the client takes off the live list whoever the connection
has last logged in as. The sweep takes nobody off. `noneOutlives` says when that is enough.
-/

namespace PickUpLight.Epoll

open PickUpLight.Theory PickUpLight.Control PickUpLight.Heartbeat PickUpLight.Live

/-- A task at this stage does not take user `u` away from the users that are cared for: it is not
taking its connection down, or is about to take `u` off the list. -/
def Stage.allows : Stage → String → Prop
  | .removeLive userId, u => userId = u
  | .remove, _ | .deleteFd, _ | .close, _ => False
  | _, _ => True

namespace System

/-- Connection `d` is open. -/
def IsOpen (s : System) (d : ℕ) : Prop := ∃ c, s.connections[d]? = some c ∧ c.isOpen = true

/-- Connection `d` is open, and not being taken down, except where `u` is next to be taken off the
list. -/
def StaysFor (s : System) (d : ℕ) (u : String) : Prop :=
  s.IsOpen d ∧ ∀ t ∈ s.tasks, t.conn = d → t.stage.allows u

/-- Connection `d` is open, and not being taken down. -/
def Staying (s : System) (d : ℕ) : Prop := ∀ u, s.StaysFor d u

/-- Every user but `except` that connection `i` has logged in as is off the list, or stays with
another connection. -/
def Clear (s : System) (i : ℕ) (except : Option String) : Prop :=
  ∀ c u, s.streams.Shows c u → s.streams.LoggedIn i u →
    except = some u ∨ ∃ d, d ≠ i ∧ s.Staying d ∧ s.streams.LoggedIn d u

end System

/-- A move is in time: no claimed number is given away, a connection ends after the streams of its
users, save the one its task takes off the list, and a task whose connection has been closed starts
no stream and logs in no more. -/
def Timely (s : System) : Move → Prop
  | .accept fd => ¬ s.Claimed fd
  | .effect i _ => ∀ t e next, s.tasks[i]? = some t → t.stage = .handling (.call e next) →
    isEntry e → s.IsOpen t.conn
  | .step i => ∀ t info, s.tasks[i]? = some t → t.stage = .get_userId →
    s.m_map.lookup t.fd = some info →
    s.Clear t.conn (some info.userId)
  | .evict => ∀ fd i, s.beat = .close fd → s.holder fd = some i → s.Clear i none
  | _ => True

variable {lib : Nlohmann} {s s' : System} {i d fd : ℕ} {t t' : Task} {u : String} {move : Move}

theorem Timely.unclaimed (h : Timely s move) : Unclaimed s move := by
  cases move with
  | accept fd => exact h
  | _ => trivial

/-- Every user who is shown has a connection that stays. -/
def AllAttended (s : System) : Prop := Attended s.StaysFor s.streams

/-- A task that goes on takes nobody's connection away. -/
theorem staysFor_setTask (ht : s.tasks[i]? = some t) (hconn : t'.conn = t.conn)
    (hallows : ∀ u, t.stage.allows u → t'.stage.allows u) (h : s.StaysFor d u) :
    (s.setTask i (some t')).StaysFor d u := by
  refine ⟨h.1, fun x hx hd => ?_⟩
  rcases List.mem_or_eq_of_mem_set hx with hx | rfl
  · exact h.2 x hx hd
  · exact hallows u (h.2 t (List.mem_of_getElem? ht) (hconn ▸ hd))

theorem AllAttended.setTask (h : AllAttended s) (ht : s.tasks[i]? = some t)
    (hconn : t'.conn = t.conn)
    (hallows : ∀ u, t.stage.allows u → t'.stage.allows u) : AllAttended (s.setTask i (some t')) :=
  h.mono fun _ _ hd => staysFor_setTask ht hconn hallows hd

/-- What a task does between system calls. -/
theorem AllAttended.after (h : AllAttended s) (ht : s.tasks[i]? = some t) (piece : Conn → Conn) :
    AllAttended (s.setTask i (t.after lib piece)) := by
  cases ht' : t.after lib piece with
  | none => exact h
  | some t' =>
    obtain ⟨stage, hstage, rfl⟩ := Option.map_eq_some_iff.mp ht'
    refine h.setTask ht rfl fun u _ => ?_
    unfold Stage.ofPhase at hstage
    split at hstage <;> cases hstage <;> trivial

theorem staysFor_setTask_ne (hne : t'.conn ≠ d) (h : s.StaysFor d u) :
    (s.setTask i (some t')).StaysFor d u := by
  refine ⟨h.1, fun x hx hd => ?_⟩
  rcases List.mem_or_eq_of_mem_set hx with hx | rfl
  · exact h.2 x hx hd
  · exact absurd hd hne

/-- A connection a task works for stays, if it is open and the task does not take it down. -/
theorem Settled.staying (h : Settled s) (ht : s.tasks[i]? = some t) (hactive : t.active = true)
    (hallows : ∀ u, t.stage.allows u) (hopen : s.IsOpen t.conn) : s.Staying t.conn := by
  refine fun u => ⟨hopen, fun x hx hconn => ?_⟩
  by_cases hx' : x.active = true
  · rw [h.task_eq ht hactive hx hx' hconn]
    exact hallows u
  · cases hstage : x.stage <;> simp [Task.active, hstage] at hx'
    trivial

/-- What is open after a number has been closed. -/
theorem Settled.isOpen_close (h : Settled s) (hd : s.IsOpen d) (hne : s.holder fd ≠ some d) :
    (s.close fd).IsOpen d := by
  obtain ⟨c, hc, hopen⟩ := hd
  have hfd : c.fd ≠ fd := fun heq => hne (heq ▸ h.unique d c hc hopen)
  exact ⟨c, by rw [getElem?_close, hc, Option.map_some, if_neg hfd], hopen⟩

theorem AllAttended.effect (h : AllAttended s) (hsettled : Settled s) (ht : s.tasks[i]? = some t)
    {p : Handler Unit} (hstage : t.stage = .handling p) (answer : (e : Effect) → e.Answer)
    (hopen : ∀ e next, p = .call e next → isEntry e → s.IsOpen t.conn) :
    AllAttended (s.effect lib i t answer p) := by
  cases p with
  | ret =>
    show AllAttended (s.setTask i (t.after lib Conn.nextHeader))
    exact h.after ht _
  | fail => exact h
  | call e next =>
    let done := performFor t.fd t.conn s.m_map s.streams answer e
    have hdone : AllAttended { s with
        evaluator := { s.evaluator with m_map_boost := done.1.1 }
        streams := done.1.2 } := by
      refine Attended.perform t.fd s.m_map answer h fun hentry u => ?_
      have hallows : ∀ u, t.stage.allows u := fun _ => by rw [hstage]; trivial
      exact hsettled.staying ht (by simp [Task.active, hstage]) hallows (hopen e next rfl hentry) u
    exact hdone.setTask ht rfl fun _ _ => trivial

/-- A connection is closed by its task. -/
theorem AllAttended.closed (h : AllAttended s) (hsettled : Settled s) (ht : s.tasks[i]? = some t)
    (hstage : t.stage = .close) :
    AllAttended
      (((s.close t.fd).touch t (s.holder t.fd)).setTask i
      (some { t with stage := .returned })) := by
  refine h.mono fun d u hd => ?_
  have hne : t.conn ≠ d := by
    intro heq
    have hallows := hd.2 t (List.mem_of_getElem? ht) heq
    rw [hstage] at hallows
    exact hallows
  have hholder : s.holder t.fd ≠ some d := fun hc =>
    hne (hsettled.conn_eq ht (by simp [Task.active, hstage]) hc).symm
  have hclosed : (s.close t.fd).StaysFor d u := ⟨hsettled.isOpen_close hd.1 hholder, hd.2⟩
  exact staysFor_setTask_ne hne hclosed

/-- A task reads who has logged in on its connection. -/
theorem AllAttended.removing (h : AllAttended s) {userId : String}
    (hclear : s.Clear t.conn (some userId)) :
    AllAttended (s.setTask i (some { t with stage := .removeLive userId })) := by
  intro c u hshows
  obtain ⟨d, hd, hlog⟩ := h c u hshows
  by_cases hconn : t.conn = d
  · subst hconn
    rcases hclear c u hshows hlog with heq | ⟨d', hne, hd', hlog'⟩
    · refine ⟨t.conn, ⟨hd.1, fun x hx hx' => ?_⟩, hlog⟩
      rcases List.mem_or_eq_of_mem_set hx with hx | rfl
      · exact hd.2 x hx hx'
      · exact Option.some.inj heq
    · exact ⟨d', staysFor_setTask_ne hne.symm (hd' u), hlog'⟩
  · exact ⟨d, staysFor_setTask_ne hconn hd, hlog⟩

/-- The sweep closes a connection. -/
theorem AllAttended.evict (h : AllAttended s) (hsettled : Settled s)
    (hclear : ∀ i, s.holder fd = some i → s.Clear i none) : AllAttended (s.close fd) := by
  intro c u hshows
  obtain ⟨d, hd, hlog⟩ := h c u hshows
  by_cases hholder : s.holder fd = some d
  · obtain hnone | ⟨d', hne, hd', hlog'⟩ := hclear d hholder c u hshows hlog
    · cases hnone
    · have hholder' : s.holder fd ≠ some d' :=
        fun heq => hne (Option.some.inj (heq.symm.trans hholder))
      exact ⟨d', ⟨hsettled.isOpen_close (hd' u).1 hholder', (hd' u).2⟩, hlog'⟩
  · exact ⟨d, ⟨hsettled.isOpen_close hd.1 hholder, hd.2⟩, hlog⟩

/-- The steps of a task that are neither a `recv` nor a handler's. -/
theorem AllAttended.step_task (h : AllAttended s) (hsettled : Settled s) (ht : s.tasks[i]? = some t)
    (hG : Timely s (.step i)) (hs : s.step i t = some s') : AllAttended s' := by
  unfold System.step at hs
  split at hs
  · cases hs
    unfold System.addFd
    split
    · exact h.setTask ht rfl fun _ _ => trivial
    · exact h.setTask ht rfl fun _ _ => trivial
  · cases hs
    unfold System.lookupEntry
    cases s.m_map.lookup t.fd with
    | none => exact h
    | some info => exact h.setTask ht rfl fun _ _ => trivial
  · rename_i hstage
    cases hs
    unfold System.lookupEntry
    cases hentry : s.m_map.lookup t.fd with
    | none => exact h
    | some info => exact h.removing (hG t info ht hstage hentry)
  · rename_i userId hstage
    cases hs
    refine Attended.stop h fun d u hne hd => ?_
    have hconn : t.conn ≠ d := by
      intro heq
      have hallows := hd.2 t (List.mem_of_getElem? ht) heq
      rw [hstage] at hallows
      exact hne hallows.symm
    exact staysFor_setTask_ne hconn hd
  · rename_i hstage
    cases hs
    exact h.setTask ht rfl fun u hallows => by rw [hstage] at hallows; exact hallows
  · rename_i hstage
    cases hs
    exact h.setTask ht rfl fun u hallows => by rw [hstage] at hallows; exact hallows
  · rename_i hstage
    cases hs
    exact h.closed hsettled ht hstage
  · cases hs

theorem AllAttended.step (h : AllAttended s) (hsettled : Settled s) (hG : Timely s move)
    (hs : serving lib s move = some s') : AllAttended s' := by
  unfold serving at hs
  split at hs
  · cases hs
  · cases move with
    | accept fd =>
      dsimp only at hs
      split at hs <;> cases hs
      refine h.mono fun d u hd => ?_
      obtain ⟨⟨c, hc, hopen⟩, hallows⟩ := hd
      exact ⟨⟨c, Roster.getElem?_concat_iff.mpr (.inl hc), hopen⟩, hallows⟩
    | add ip =>
      dsimp only at hs
      split at hs <;> cases hs
      exact h
    | addFd =>
      dsimp only at hs
      split at hs <;> cases hs
      unfold System.addFd
      split <;> exact h
    | wait fds =>
      dsimp only at hs
      split at hs <;> cases hs
      exact h
    | deleteFd =>
      dsimp only at hs
      split at hs <;> cases hs
      exact h
    | add_task =>
      dsimp only at hs
      split at hs <;> cases hs
      refine h.mono fun d u hd => ⟨hd.1, fun t ht hconn => ?_⟩
      rcases List.mem_append.mp ht with ht | ht
      · exact hd.2 t ht hconn
      · rw [List.mem_singleton.mp ht]
        trivial
    | start i =>
      obtain ⟨t, ht, hs⟩ := Option.bind_eq_some_iff.mp hs
      split at hs <;> cases hs
      exact h.after ht _
    | recv i =>
      obtain ⟨t, ht, hs⟩ := Option.bind_eq_some_iff.mp hs
      split at hs <;> cases hs
      unfold System.recv
      split
      · exact h.setTask ht rfl fun _ _ => trivial
      · exact h.after ht _
    | recvReturn i outcome =>
      obtain ⟨t, ht, hs⟩ := Option.bind_eq_some_iff.mp hs
      split at hs
      · rename_i dest transfer c hstage
        split at hs <;> cases hs
        have htouch : AllAttended (s.touch t (System.readOf c outcome)) := h
        exact htouch.after ht _
      · cases hs
    | effect i answer =>
      obtain ⟨t, ht, hs⟩ := Option.bind_eq_some_iff.mp hs
      split at hs <;> cases hs
      rename_i p hstage
      exact h.effect hsettled ht hstage answer fun e next hp => hG t e next ht (hp ▸ hstage)
    | step i =>
      obtain ⟨t, ht, hs⟩ := Option.bind_eq_some_iff.mp hs
      exact h.step_task hsettled ht hG hs
    | copy =>
      dsimp only at hs
      split at hs <;> cases hs
      exact h
    | visit fd =>
      dsimp only at hs
      split at hs
      · obtain ⟨data, -, rfl⟩ := Option.map_eq_some_iff.mp hs
        exact h
      · cases hs
    | evict =>
      dsimp only at hs
      split at hs <;> cases hs
      · exact h
      · rename_i fd hbeat
        exact h.evict hsettled fun i => hG fd i hbeat
    | done =>
      dsimp only at hs
      split at hs <;> cases hs
      exact h

theorem noneOutlives {moves : List Move} (hG : (serving lib).Guarded Timely System.initial moves)
    (hrun : (serving lib).exec System.initial moves = some s) :
    NoneOutlives s.IsOpen s.streams := by
  have hinitial : Settled System.initial ∧ AllAttended System.initial :=
    ⟨settled_initial, attended_initial⟩
  have hall : Settled s ∧ AllAttended s :=
    (serving lib).exec_inv_guarded (I := fun s => Settled s ∧ AllAttended s)
      (fun _ _ _ h hG hs => ⟨h.1.step hG.unclaimed hs, h.2.step h.1 hG hs⟩) hinitial hG hrun
  exact hall.2.noneOutlives fun d u hd => hd.1

end PickUpLight.Epoll
