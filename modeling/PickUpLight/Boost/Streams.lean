import PickUpLight.Boost.Server
import PickUpLight.Theory.Roster

/-!
# The streams of the Boost server

Neither the sessions nor the sweep take a stream off the live list when a connection ends. The
streams are in order all the same as long as the clients themselves stop them in time
(`noneOutlives`).
-/

namespace PickUpLight.Boost

open PickUpLight.Theory PickUpLight.Control PickUpLight.Heartbeat PickUpLight.Live

/-- The connection has not ended. -/
def Client.connected (c : Client) : Bool :=
  match c.chain with
  | .ended => false
  | _ => c.isOpen

/-- The connection has not ended, and is not being taken down. -/
def Client.staying (c : Client) : Bool :=
  match c.chain with
  | .receiving | .handling _ => c.isOpen
  | _ => false

namespace System

/-- Client `d` is connected. -/
def Connected (s : System) (d : ℕ) : Prop := ∃ c, s.clients[d]? = some c ∧ c.connected = true

/-- Client `d` is connected, and stays. -/
def Staying (s : System) (d : ℕ) : Prop := ∃ c, s.clients[d]? = some c ∧ c.staying = true

/-- Every user that client `i` has logged in as is off the list, or stays with another client. -/
def Clear (s : System) (i : ℕ) : Prop :=
  ∀ c u, s.streams.Shows c u → s.streams.LoggedIn i u → ∃ d, d ≠ i ∧ s.Staying d ∧
    s.streams.LoggedIn d u

end System

/-- A move is in time: a connection ends after the streams of its users, and a client whose
socket has been closed starts no stream and logs in no more. -/
def Timely (s : System) : Move → Prop
  | .effect i _ => ∀ c e next, s.clients[i]? = some c → c.chain = .handling (.call e next) →
    isEntry e → c.isOpen = true
  | .eof i | .error i => s.Clear i
  | .evict => ∀ i, s.closing = some i → s.Clear i
  | _ => True

variable {lib : Nlohmann} {s s' : System} {i d : ℕ} {c c' : Client} {move : Move}

theorem staying_setClient (hc : s.clients[i]? = some c) (c' : Client) :
    (s.setClient i c').Staying d ↔ d = i ∧ c'.staying = true ∨ d ≠ i ∧ s.Staying d := by
  simp only [System.Staying, System.setClient, Roster.getElem?_set_iff hc]
  constructor
  · rintro ⟨x, ⟨rfl, rfl⟩ | ⟨hne, hx⟩, hstaying⟩
    · exact .inl ⟨rfl, hstaying⟩
    · exact .inr ⟨Ne.symm hne, x, hx, hstaying⟩
  · rintro (⟨rfl, hstaying⟩ | ⟨hne, x, hx, hstaying⟩)
    · exact ⟨c', .inl ⟨rfl, rfl⟩, hstaying⟩
    · exact ⟨x, .inr ⟨Ne.symm hne, hx⟩, hstaying⟩

/-- Every user who is shown has a client that stays. -/
def AllAttended (s : System) : Prop := Attended (fun d _ => s.Staying d) s.streams

/-- A client that goes on takes nobody's client away, unless it was staying itself. -/
theorem AllAttended.setClient (h : AllAttended s) (hc : s.clients[i]? = some c)
    (hstaying : c.staying = true → c'.staying = true) : AllAttended (s.setClient i c') := by
  refine h.mono fun d u hd => (staying_setClient hc c').mpr ?_
  by_cases hdi : d = i
  · subst hdi
    obtain ⟨x, hx, hd⟩ := hd
    cases hc.symm.trans hx
    exact .inl ⟨rfl, hstaying hd⟩
  · exact .inr ⟨hdi, hd⟩

/-- A client whose users are cared for ends, or begins to. -/
theorem AllAttended.leave (h : AllAttended s) (hclear : s.Clear i) {s' : System}
    (hstreams : s'.streams = s.streams)
    (hothers : ∀ d, d ≠ i → s.Staying d → s'.Staying d) : AllAttended s' := by
  intro c u hshows
  rw [hstreams] at hshows ⊢
  obtain ⟨d, hd, hlog⟩ := h c u hshows
  by_cases hdi : d = i
  · subst hdi
    obtain ⟨d', hne, hd', hlog'⟩ := hclear c u hshows hlog
    exact ⟨d', hothers d' hne hd', hlog'⟩
  · exact ⟨d, hothers d hdi hd, hlog⟩

theorem AllAttended.effect (h : AllAttended s) (hc : s.clients[i]? = some c) {p : Handler Unit}
    (hchain : c.chain = .handling p) (answer : (e : Effect) → e.Answer)
    (hopen : ∀ e next, p = .call e next → isEntry e → c.isOpen = true) :
    AllAttended (s.effect i c answer p) := by
  have hstay : ∀ chain, (chain = .receiving ∨ ∃ q, chain = .handling q) →
      c.staying = true → ({ c with chain := chain } : Client).staying = true := by
    rintro chain (rfl | ⟨q, rfl⟩) hstaying
    · simpa [Client.staying, hchain] using hstaying
    · simpa [Client.staying, hchain] using hstaying
  cases p with
  | ret =>
    show AllAttended (s.setClient i { c with chain := .receiving })
    exact h.setClient hc (hstay _ (.inl rfl))
  | fail => exact h
  | call e next =>
    let done := performFor i i s.evaluator.m_map_boost s.streams answer e
    have hdone : AllAttended { s with
        evaluator := { s.evaluator with m_map_boost := done.1.1 }
        streams := done.1.2 } := by
      refine Attended.perform i s.evaluator.m_map_boost answer h fun hentry u => ?_
      exact ⟨c, hc, by simpa [Client.staying, hchain] using hopen e next rfl hentry⟩
    exact hdone.setClient hc (hstay _ (.inr ⟨_, rfl⟩))

theorem AllAttended.step (h : AllAttended s) (hG : Timely s move)
    (hs : serving lib s move = some s') :
    AllAttended s' := by
  unfold serving at hs
  split at hs
  · cases hs
  · cases move with
    | accept =>
      cases hs
      refine h.mono fun d u hd => ?_
      obtain ⟨c, hc, hstaying⟩ := hd
      exact ⟨c, Roster.getElem?_concat_iff.mpr (.inl hc), hstaying⟩
    | request i call =>
      obtain ⟨c, hc, hs⟩ := Option.bind_eq_some_iff.mp hs
      split at hs
      · rename_i hchain
        split at hs <;> cases hs
        exact h.setClient hc fun hstaying => by simpa [Client.staying, hchain] using hstaying
      · cases hs
    | effect i answer =>
      obtain ⟨c, hc, hs⟩ := Option.bind_eq_some_iff.mp hs
      split at hs <;> cases hs
      rename_i p hchain
      exact h.effect hc hchain answer fun e next hp => hG c e next hc (hp ▸ hchain)
    | throw i =>
      obtain ⟨c, hc, hs⟩ := Option.bind_eq_some_iff.mp hs
      split at hs <;> cases hs
      exact h
    | eof i =>
      obtain ⟨c, hc, hs⟩ := Option.bind_eq_some_iff.mp hs
      split at hs
      · split at hs <;> cases hs
        exact h.leave hG rfl fun d hne hd => (staying_setClient hc _).mpr (.inr ⟨hne, hd⟩)
      · cases hs
    | error i =>
      obtain ⟨c, hc, hs⟩ := Option.bind_eq_some_iff.mp hs
      split at hs <;> cases hs
      exact h.leave hG rfl fun d hne hd => (staying_setClient hc _).mpr (.inr ⟨hne, hd⟩)
    | step i =>
      obtain ⟨c, hc, hs⟩ := Option.bind_eq_some_iff.mp hs
      unfold System.step at hs
      split at hs
      · rename_i hchain
        cases hs
        exact h.setClient hc fun hstaying => by simp [Client.staying, hchain] at hstaying
      · rename_i hchain
        cases hs
        exact h.setClient hc fun hstaying => by simp [Client.staying, hchain] at hstaying
      · cases hs
    | copy =>
      dsimp only at hs
      split at hs <;> cases hs
      exact h
    | visit i =>
      dsimp only at hs
      split at hs
      · obtain ⟨data, -, rfl⟩ := Option.map_eq_some_iff.mp hs
        exact h
      · cases hs
    | evict =>
      dsimp only at hs
      split at hs <;> cases hs
      rename_i i hclosing
      refine h.leave (hG i hclosing) rfl fun d hne hd => ?_
      obtain ⟨c, hc, hstaying⟩ := hd
      exact ⟨c, (List.getElem?_modify_ne _ _ hne.symm).trans hc, hstaying⟩
    | done =>
      dsimp only at hs
      split at hs <;> cases hs
      exact h

theorem noneOutlives {moves : List Move} (hG : (serving lib).Guarded Timely System.initial moves)
    (hrun : (serving lib).exec System.initial moves = some s) :
    NoneOutlives s.Connected s.streams := by
  have hinitial : AllAttended System.initial := attended_initial
  have hall : AllAttended s :=
    (serving lib).exec_inv_guarded (fun _ _ _ h hG hs => h.step hG hs) hinitial hG hrun
  refine hall.noneOutlives fun d _ hd => ?_
  obtain ⟨c, hc, hstaying⟩ := hd
  refine ⟨c, hc, ?_⟩
  unfold Client.staying at hstaying
  unfold Client.connected
  split at hstaying <;> simp_all

end PickUpLight.Boost
