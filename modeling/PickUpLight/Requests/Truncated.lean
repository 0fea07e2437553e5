import PickUpLight.Control.InitControl
import PickUpLight.Requests.Boundaries

/-!
# Truncated requests

The stream ends somewhere in the body of a request. Then no handler should be called: all
statements, files and replies are a handler's. `truncated_no_effect` holds of the runs in which
no header is cut: not by an `async_receive` that completes with a part of it, nor by a `recv`
that finds no more of it yet. When one is cut, what follows is taken for another request, and
that one may be whole (`truncated_registers`).
-/

namespace PickUpLight.Requests

open PickUpLight.Theory PickUpLight.Wire

variable {h : NetPacketHeader} {part : List UInt8}

/-! ### Sessions -/

section Sessions

open Boost

variable {H : Type} {run : Handlers H} {s₀ s s' : Session} {e : Event H}

/-- A header is received whole, and a file has a block to go to. -/
def SessionUncut (s : Session) : Event H → Prop
  | .receive n => n = headerSize
  | .read => s.overflows = false
  | _ => True

/-- A request of which not everything comes is not handed over. -/
theorem session_short {calls : List Call} {bytes : List UInt8} (hs : Serving h bytes calls s)
    (hlt : bytes.length < demand h) : s.calls = calls ∧ s.phase ≠ .receiving ∧
      ∀ call, s.phase ≠ .handling call := by
  have hno : ¬ Served h bytes calls s := fun hserved => absurd hserved.1 (Nat.not_le.mpr hlt)
  unfold Serving at hs
  split at hs
  · rename_i hp
    exact ⟨hs.2.2.2, by simp [hp]⟩
  · rename_i hp
    exact ⟨hs.2.2.2, by simp [hp]⟩
  · rename_i hp
    exact ⟨hs.2.2.2.2, by simp [hp]⟩
  · exact absurd hs.2 hno
  · exact absurd hs hno
  · exact absurd hs hno
  · rename_i hp
    exact ⟨(hs.resolve_right hno).1, by simp [hp]⟩
  · rename_i hp
    exact ⟨hs.2.2, by simp [hp]⟩

/-- Only handlers change the entry, and the end of the connection. -/
theorem session_entry (hne : ∀ x, e ≠ .handle x) (he : session run s e = some s') :
    s'.entry = s.entry ∨ s'.entry = none := by
  cases e with
  | handle x => exact absurd rfl (hne x)
  | arrive n =>
    simp only [session] at he
    split at he <;> cases he
    exact Or.inl rfl
  | receive n =>
    simp only [session] at he
    split at he <;> cases he
    left
    unfold Session.processSingleRequest Session.hand
    split <;> rfl
  | receiveError =>
    simp only [session, Session.receiveError] at he
    split at he
    · split at he
      · split at he
        · split at he <;> cases he
          · exact Or.inr rfl
          · exact Or.inl rfl
        · cases he
      · cases he
        exact Or.inl rfl
    · cases he
  | read =>
    simp only [session] at he
    split at he
    · split at he
      · cases he
        exact Or.inl rfl
      · split at he <;> cases he
        left
        unfold Session.afterRead Session.hand
        split
        · split <;> rfl
        · rfl
        · split <;> rfl
        · rfl
    · cases he
  | readError =>
    simp only [session] at he
    split at he <;> cases he
    exact Or.inl rfl
  | evict =>
    simp only [session] at he
    split at he <;> cases he
    exact Or.inr rfl

/-- A write past the end of a block is a read's. -/
theorem session_intact (hG : SessionUncut s e) (hs : s.phase ≠ .overrun)
    (he : session run s e = some s') :
    s'.phase ≠ .overrun := by
  cases e with
  | arrive n | evict =>
    simp only [session] at he
    split at he <;> cases he
    exact hs
  | receive n =>
    simp only [session] at he
    split at he <;> cases he
    unfold Session.processSingleRequest Session.hand
    rename_i hc
    split <;> simp [hc.1]
  | receiveError =>
    simp only [session, Session.receiveError] at he
    split at he
    · split at he
      · split at he
        · split at he <;> cases he <;> simp
        · cases he
      · cases he
        simp
    · cases he
  | read =>
    simp only [session] at he
    split at he
    · rw [if_neg (by simp [show s.overflows = false from hG])] at he
      split at he <;> cases he
      unfold Session.afterRead Session.hand
      split
      · split <;> simp
      · simp
      · split <;> simp
      · exact hs
    · cases he
  | readError =>
    simp only [session] at he
    split at he <;> cases he
    simp
  | handle x =>
    simp only [session] at he
    split at he
    · split at he <;> cases he <;> simp
    · cases he

/-- A session in front of a truncated request, or at it. -/
structure SessionCut (h : NetPacketHeader) (part : List UInt8) (s₀ s : Session) : Prop where
  /-- No handler is called. -/
  calls : s.calls = s₀.calls
  /-- The entry stays as it is until it goes. -/
  entry : s.entry = s₀.entry ∨ s.entry = none
  /-- Nothing is written past the end of a block. -/
  intact : s.phase ≠ .overrun
  /-- Where the session is. -/
  place : s.phase = .receiving ∧ s.left = h.bytes ++ part ∨ s.phase = .ended ∨
    Serving h part s₀.calls s

theorem left_ne_nil (h : NetPacketHeader) (part : List UInt8) : h.bytes ++ part ≠ [] := by
  simp [NetPacketHeader.bytes, wordBytes]

theorem SessionCut.step (hlt : part.length < demand h) (hs : SessionCut h part s₀ s)
    (hG : SessionUncut s e) (he : session run s e = some s') : SessionCut h part s₀ s' := by
  have hintact := session_intact hG hs.intact he
  have hentry : (∀ x, e ≠ .handle x) → s'.entry = s₀.entry ∨ s'.entry = none := by
    intro hne
    rcases session_entry hne he with hsame | hnone
    · rw [hsame]
      exact hs.entry
    · exact Or.inr hnone
  rcases hs.place with ⟨hp, hleft⟩ | hp | hserving
  · -- the header is awaited
    cases e with
    | arrive n =>
      simp only [session] at he
      split at he <;> cases he
      have hsame : (s.avail ++ s.incoming.take n) ++ s.incoming.drop n = s.avail ++ s.incoming := by
        rw [List.append_assoc, List.take_append_drop]
      exact ⟨hs.calls, hs.entry, hs.intact, Or.inl ⟨hp, hsame.trans hleft⟩⟩
    | receive n =>
      have hn : n = headerSize := hG
      subst hn
      specialize hentry (by simp)
      simp only [session, Option.ite_none_right_eq_some, Option.some.injEq] at he
      obtain ⟨⟨-, -, -, -, hle⟩, rfl⟩ := he
      obtain ⟨htake, hdrop⟩ := take_drop_of_append hleft hle
      rw [NetPacketHeader.length_bytes] at htake hdrop
      have hserving : Serving h part s₀.calls ({ s with
          m_pheader := s.m_pheader.overwrite (s.avail.take headerSize)
          avail := s.avail.drop headerSize }.processSingleRequest) := by
        refine serving_start ?_ hdrop hs.calls
        show (s.m_pheader.overwrite (s.avail.take headerSize)).header = h
        rw [htake, RawHeader.header_overwrite]
      exact ⟨(session_short hserving hlt).1, hentry, hintact, Or.inr (Or.inr hserving)⟩
    | receiveError =>
      specialize hentry (by simp)
      simp only [session, hp, if_true, Session.receiveError] at he
      split at he
      · split at he
        · rename_i hnil
          exact absurd hleft (by simp [Session.left, hnil, (left_ne_nil h part).symm])
        · cases he
      · cases he
        exact ⟨hs.calls, hentry, hintact, Or.inr (Or.inl rfl)⟩
    | read | readError => simp [session, Session.reading, hp] at he
    | handle x => simp [session, hp] at he
    | evict =>
      simp only [session] at he
      split at he <;> cases he
      exact ⟨hs.calls, Or.inr rfl, hs.intact, Or.inl ⟨hp, hleft⟩⟩
  · -- the session has ended
    cases e with
    | arrive n =>
      simp only [session] at he
      split at he <;> cases he
      exact ⟨hs.calls, hs.entry, hs.intact, Or.inr (Or.inl hp)⟩
    | receive n => simp [session, hp] at he
    | receiveError => simp [session, hp] at he
    | read | readError => simp [session, Session.reading, hp] at he
    | handle x => simp [session, hp] at he
    | evict => simp [session, Session.done, hp] at he
  · -- the body is being read
    obtain ⟨hcalls, hreceiving, hhandling⟩ := session_short hserving hlt
    have hne : ∀ n, e ≠ .receive n := by
      rintro n rfl
      simp [session, hreceiving] at he
    have hnoHandle : ∀ x, e ≠ .handle x := by
      rintro x rfl
      simp [session] at he
    have hserving' := hserving.step hne he
    exact ⟨(session_short hserving' hlt).1, hentry hnoHandle, hintact, Or.inr (Or.inr hserving')⟩

/-- **A session in front of a truncated request** calls no handler for it. -/
theorem session_truncated {events : List (Event H)} (hlt : part.length < demand h)
    (hp : s.phase = .receiving) (hleft : s.left = h.bytes ++ part)
    (hG : (session run).Guarded SessionUncut s events)
    (hrun : (session run).exec s events = some s') :
    s'.calls = s.calls ∧ (s'.entry = s.entry ∨ s'.entry = none) ∧ s'.phase ≠ .overrun := by
  have hs : SessionCut h part s s := ⟨rfl, Or.inl rfl, by simp [hp], Or.inl ⟨hp, hleft⟩⟩
  have hs' := (session run).exec_inv_guarded (fun _ _ _ ht hG he => ht.step hlt hG he) hs hG hrun
  exact ⟨hs'.calls, hs'.entry, hs'.intact⟩

end Sessions

/-! ### Connections of the epoll server -/

section Conns

open Epoll

variable {H : Type} {run : Handlers H} {s₀ s s' : Conn} {e : Event H}

/-- A `recv` that finds no more has found nothing of a header yet. -/
def ConnUncut (s : Conn) : Event H → Prop
  | .recvAgain => ∀ dest t, s.phase = .receiving dest t → t.done = []
  | _ => True

/-- A request of which not everything comes is not handed over. -/
theorem conn_short {calls : List Call} {bytes : List UInt8} (hs : Serving h bytes calls s)
    (hlt : bytes.length < demand h) : s.calls = calls ∧ (∀ call, s.phase ≠ .handling call) ∧
      ∀ t, s.phase = .receiving .header t → t = { length := headerSize, done := [] } ∧
      s.left = [] := by
  have hno : ¬ Served h bytes calls s := fun hserved => absurd hserved.1 (Nat.not_le.mpr hlt)
  unfold Serving at hs
  split at hs
  · rename_i t hp
    obtain ⟨-, hnil, hcalls⟩ := hs.2.resolve_left hno
    refine ⟨hcalls, by simp [hp], fun t' ht' => ?_⟩
    rw [hp] at ht'
    cases ht'
    exact ⟨hs.1, hnil⟩
  · rename_i hp
    exact ⟨hs.2.2.2.2.2.2, by simp [hp]⟩
  · rename_i hp
    exact ⟨hs.2.2.2.2.2, by simp [hp]⟩
  · rename_i hp
    exact ⟨hs.2.2.2.2.2.2, by simp [hp]⟩
  · exact absurd hs.2 hno
  · exact absurd hs hno
  · rename_i hp
    exact ⟨hs.2.2, by simp [hp]⟩
  · exact hs.elim
  · exact hs.elim
  · exact hs.elim

/-- The entry and the live list are as they were, or the connection has been closed since and its
user taken off the list. -/
def Untouched (s₀ s : Conn) : Prop :=
  s.entry = s₀.entry ∧ s.livesRemoved = s₀.livesRemoved ∨
    s.phase = .closed ∧ ∃ info, s₀.entry = some info ∧ s.entry = none ∧
      s.livesRemoved = s₀.livesRemoved ++ [info.userId]

/-- Before a body is read. -/
theorem untouched_startPayload (s : Conn) (dest : Dest) (front : List UInt8) :
    (s.startPayload dest front).entry = s.entry ∧
      (s.startPayload dest front).livesRemoved = s.livesRemoved := by
  unfold Conn.startPayload Conn.afterPayload Conn.nextHeader Conn.hand
  split
  · exact ⟨rfl, rfl⟩
  · split <;> exact ⟨rfl, rfl⟩

/-- What the task does after a `my_recv` leaves the entry and the live list alone, unless the
connection has ended. -/
theorem untouched_turn (s : Conn) (dest : Dest) (turn : Transfer.Turn) :
    Untouched s (s.turn dest turn) := by
  cases turn with
  | more t =>
    simp only [Conn.turn]
    split <;> exact Or.inl ⟨rfl, rfl⟩
  | returned ret done =>
    simp only [Conn.turn]
    split
    · exact Or.inl ⟨rfl, rfl⟩
    · cases dest with
      | header =>
        simp only [Conn.afterRecv, Conn.afterHeader]
        split
        · split
          · exact Or.inl ⟨rfl, rfl⟩
          · left
            unfold Conn.processSingleRequest
            split
            · exact ⟨rfl, rfl⟩
            · exact ⟨rfl, rfl⟩
            · exact ⟨rfl, rfl⟩
            · exact untouched_startPayload _ _ _
        · split
          · exact Or.inl ⟨rfl, rfl⟩
          · split
            · rename_i info hinfo
              exact Or.inr ⟨rfl, info, hinfo, rfl, rfl⟩
            · exact Or.inl ⟨rfl, rfl⟩
      | fileInfo =>
        simp only [Conn.afterRecv]
        split
        · exact Or.inl ⟨rfl, rfl⟩
        · exact Or.inl (untouched_startPayload _ _ _)
      | body | fileData info =>
        simp only [Conn.afterRecv, Conn.afterPayload]
        split <;> exact Or.inl ⟨rfl, rfl⟩

theorem Untouched.trans (h₁ : Untouched s₀ s) (hp : s.phase ≠ .closed) (h₂ : Untouched s s') :
    Untouched s₀ s' := by
  obtain ⟨hentry, hlives⟩ := h₁.resolve_right fun hclosed => hp hclosed.1
  unfold Untouched
  rw [← hentry, ← hlives]
  exact h₂

/-- A connection in front of a truncated request, at it, or behind it. -/
inductive ConnPlace (h : NetPacketHeader) (part : List UInt8) (calls : List Call) (s : Conn) :
    Prop where
  /-- Nobody reads. -/
  | watched (hp : s.phase = .watched) (hleft : s.left = h.bytes ++ part)
  /-- The header is being read. -/
  | header {t : Transfer} (hp : s.phase = .receiving .header t) (hlength : t.length = headerSize)
    (hlt : t.done.length < headerSize) (hleft : t.done ++ s.left = h.bytes ++ part)
  /-- The body is being read. -/
  | body (hp : ∀ t, s.phase ≠ .receiving .header t) (hs : Serving h part calls s)
  /-- There is nothing more. -/
  | drained (hleft : s.left = []) (hp : s.phase = .watched ∨
      s.phase = .receiving .header { length := headerSize, done := [] } ∨ s.phase = .closed ∨
        s.phase = .escaped)

/-- What holds of a connection with a truncated request. -/
structure ConnCut (h : NetPacketHeader) (part : List UInt8) (s₀ s : Conn) : Prop where
  /-- No handler is called. -/
  calls : s.calls = s₀.calls
  /-- The entry and the live list are left alone. -/
  untouched : Untouched s₀ s
  /-- Where the connection is. -/
  place : ConnPlace h part s₀.calls s

/-- The request, once its header has been read. -/
theorem connPlace_serving {calls : List Call} (hlt : part.length < demand h)
    (hs : Serving h part calls s) :
    s.calls = calls ∧ ConnPlace h part calls s := by
  obtain ⟨hcalls, -, hheader⟩ := conn_short hs hlt
  refine ⟨hcalls, ?_⟩
  by_cases hp : ∃ t, s.phase = .receiving .header t
  · obtain ⟨t, hp⟩ := hp
    obtain ⟨rfl, hnil⟩ := hheader t hp
    exact .drained hnil (Or.inr (Or.inl hp))
  · exact .body (fun t ht => hp ⟨t, ht⟩) hs

/-- The end of a connection, where a header would stand. -/
theorem turn_ended (s : Conn) :
    let s' := s.turn .header (Transfer.after { length := headerSize, done := [] } .zero)
    (s'.calls = s.calls ∧ s'.left = s.left) ∧ (s'.phase = .closed ∨ s'.phase = .escaped) := by
  have hafter : Transfer.after { length := headerSize, done := [] } .zero = .returned 0 [] := rfl
  have hret : ¬ (0 : ℤ) > 0 ∧ (0 : ℤ) ≠ -1 := by decide
  simp only [hafter, Conn.turn, Conn.afterRecv, Conn.afterHeader, hret, if_false, reduceCtorEq,
    false_and]
  cases s.entry with
  | some info => exact ⟨⟨rfl, rfl⟩, Or.inl rfl⟩
  | none => exact ⟨⟨rfl, rfl⟩, Or.inr rfl⟩

/-- A `recv` of the header. -/
theorem ConnCut.recv_header {t : Transfer} {n : ℕ} (hlt : part.length < demand h)
    (hs : ConnCut h part s₀ s) (hp : s.phase = .receiving .header t)
    (hlength : t.length = headerSize) (hleft : t.done ++ s.left = h.bytes ++ part)
    (hn : n ≤ t.bytes_left) (hle : n ≤ s.avail.length) :
    ConnCut h part s₀
      ({ s with avail := s.avail.drop n }.turn .header (t.after (.bytes (s.avail.take n)))) := by
  have huntouched := hs.untouched.trans (by simp [hp])
    (untouched_turn { s with avail := s.avail.drop n } .header (t.after (.bytes (s.avail.take n))))
  have hdata : ((s.avail.take n).length : ℤ) ≤ t.bytes_left := by
    rw [List.length_take_of_le hle]
    exact hn
  have hleft' := (append_left_recv n).trans hleft
  rcases Transfer.after_bytes hdata with ⟨hmore, hafter⟩ | ⟨hlast, hafter⟩
  · rw [hafter, Conn.turn, if_neg (by simp)] at huntouched ⊢
    refine ⟨hs.calls, huntouched, .header rfl hlength ?_ hleft'⟩
    rw [hlength] at hmore
    exact_mod_cast hmore
  · rw [hlength] at hlast hafter
    rw [hafter, Conn.turn, if_neg (by simp)] at huntouched ⊢
    obtain ⟨hbytes, hrest⟩ := List.append_inj hleft' (by
      rw [NetPacketHeader.length_bytes]
      exact_mod_cast hlast)
    have hret : ((headerSize : ℕ) : ℤ) > 0 := by decide
    simp only [Conn.afterRecv, Conn.afterHeader, hret, if_true, ne_eq, not_true_eq_false, if_false]
      at huntouched ⊢
    let s₁ : Conn :=
      { s with
        avail := s.avail.drop n
        pheader := NetPacketHeader.ofBytes (t.done ++ s.avail.take n) }
    have hheader : s₁.pheader = h := by
      show NetPacketHeader.ofBytes (t.done ++ s.avail.take n) = h
      rw [hbytes, NetPacketHeader.ofBytes_bytes]
    have hserving : Serving h part s₀.calls s₁.processSingleRequest :=
      serving_start hheader hrest hs.calls
    obtain ⟨hcalls, hplace⟩ := connPlace_serving hlt hserving
    exact ⟨hcalls, huntouched, hplace⟩

theorem ConnCut.step (hlt : part.length < demand h) (hs : ConnCut h part s₀ s) (hG : ConnUncut s e)
    (he : conn run s e = some s') : ConnCut h part s₀ s' := by
  obtain ⟨hcalls, huntouched, hplace⟩ := hs
  cases hplace with
  | watched hp hleft =>
    cases e with
    | arrive n =>
      simp only [conn] at he
      split at he <;> cases he
      have hsame : (s.avail ++ s.incoming.take n) ++ s.incoming.drop n = s.avail ++ s.incoming := by
        rw [List.append_assoc, List.take_append_drop]
      exact ⟨hcalls, huntouched, .watched hp (hsame.trans hleft)⟩
    | wake =>
      simp only [conn] at he
      split at he <;> cases he
      refine ⟨hcalls, huntouched.trans (by simp [hp]) (Or.inl ⟨rfl, rfl⟩),
        .header rfl rfl (by decide) hleft⟩
    | recv n | recvEof | recvInterrupted | recvAgain | recvError | handle x => simp [conn, hp] at he
  | @header t hp hlength hlen hleft =>
    have hopen : ∀ fault, ¬ s.atFault fault := by
      rintro fault ⟨havail, hin, -⟩
      have hnil : s.left = [] := by simp [Conn.left, havail, hin]
      have hlengths := congrArg List.length hleft
      rw [hnil, List.append_nil, List.length_append, NetPacketHeader.length_bytes] at hlengths
      omega
    cases e with
    | arrive n =>
      simp only [conn] at he
      split at he <;> cases he
      have hsame : (s.avail ++ s.incoming.take n) ++ s.incoming.drop n = s.avail ++ s.incoming := by
        rw [List.append_assoc, List.take_append_drop]
      exact ⟨hcalls, huntouched, .header hp hlength hlen ((congrArg _ hsame).trans hleft)⟩
    | recv n =>
      simp only [conn, hp, Option.ite_none_right_eq_some, Option.some.injEq] at he
      obtain ⟨⟨-, hn, hle⟩, rfl⟩ := he
      exact ConnCut.recv_header hlt ⟨hcalls, huntouched, .header hp hlength hlen hleft⟩ hp
        hlength hleft hn hle
    | recvInterrupted =>
      simp only [conn, hp, Option.some.injEq] at he
      subst he
      rw [Transfer.after_interrupted (by rw [hlength]; exact_mod_cast hlen), Conn.turn,
        if_neg (by simp)]
      exact ⟨hcalls, huntouched.trans (by simp [hp]) (Or.inl ⟨rfl, rfl⟩),
        .header rfl hlength hlen hleft⟩
    | recvAgain =>
      have hdone : t.done = [] := hG _ _ hp
      rw [hdone, List.nil_append] at hleft
      simp only [conn, hp, Option.ite_none_right_eq_some, Option.some.injEq] at he
      obtain ⟨-, rfl⟩ := he
      exact ⟨hcalls, huntouched.trans (by simp [hp]) (Or.inl ⟨rfl, rfl⟩), .watched rfl hleft⟩
    | wake | recvEof | recvError | handle x => simp [conn, hp, hopen] at he
  | body hp hserving =>
    have hw : Within s e := fun t ht => absurd ht (hp t)
    obtain ⟨hcalls', hplace'⟩ := connPlace_serving hlt (hserving.step hw he)
    obtain ⟨-, hhandling, -⟩ := conn_short hserving hlt
    refine ⟨hcalls', huntouched.trans ?_ ?_, hplace'⟩
    · intro hclosed
      simp only [Serving, hclosed] at hserving
    · cases e with
      | arrive n | wake =>
        simp only [conn] at he
        split at he <;> cases he
        exact Or.inl ⟨rfl, rfl⟩
      | recv n | recvEof | recvError =>
        simp only [conn] at he
        split at he
        · split at he <;> cases he
          exact untouched_turn { s with avail := _ } _ _
        · cases he
      | recvInterrupted =>
        simp only [conn] at he
        split at he
        · cases he
          exact untouched_turn s _ _
        · cases he
      | recvAgain => simp [conn] at he
      | handle x => simp [conn] at he
  | drained hleft hp =>
    obtain ⟨havail, hincoming⟩ := List.append_eq_nil_iff.mp hleft
    cases e with
    | arrive n => simp [conn, hincoming, Nat.pos_iff_ne_zero] at he
    | wake =>
      simp only [conn, Option.ite_none_right_eq_some, Option.some.injEq] at he
      obtain ⟨⟨hwatched, -⟩, rfl⟩ := he
      exact ⟨hcalls, huntouched.trans (by simp [hwatched]) (Or.inl ⟨rfl, rfl⟩),
        .drained hleft (Or.inr (Or.inl rfl))⟩
    | recv n =>
      rcases hp with hp | hp | hp | hp <;>
        simp only [conn, hp, havail, List.length_nil, Option.ite_none_right_eq_some,
          reduceCtorEq] at he
      omega
    | handle x =>
      rcases hp with hp | hp | hp | hp <;> simp [conn, hp] at he
    | recvInterrupted =>
      rcases hp with hp | hp | hp | hp <;>
        simp only [conn, hp, Option.some.injEq, reduceCtorEq] at he
      subst he
      exact ⟨hcalls, huntouched.trans (by simp [hp]) (Or.inl ⟨rfl, rfl⟩),
        .drained hleft (Or.inr (Or.inl rfl))⟩
    | recvAgain =>
      rcases hp with hp | hp | hp | hp <;>
        simp only [conn, hp, Option.ite_none_right_eq_some, Option.some.injEq, reduceCtorEq] at he
      obtain ⟨-, rfl⟩ := he
      exact ⟨hcalls, huntouched.trans (by simp [hp]) (Or.inl ⟨rfl, rfl⟩),
        .drained hleft (Or.inl rfl)⟩
    | recvError =>
      rcases hp with hp | hp | hp | hp <;>
        simp only [conn, hp, Option.ite_none_right_eq_some, Option.some.injEq, reduceCtorEq] at he
      obtain ⟨-, rfl⟩ := he
      exact ⟨hcalls, huntouched.trans (by simp [hp]) (Or.inl ⟨rfl, rfl⟩),
        .drained hleft (Or.inl rfl)⟩
    | recvEof =>
      rcases hp with hp | hp | hp | hp <;>
        simp only [conn, hp, Option.ite_none_right_eq_some, Option.some.injEq, reduceCtorEq] at he
      obtain ⟨-, rfl⟩ := he
      obtain ⟨hsame, hphase⟩ := turn_ended s
      exact ⟨hsame.1.trans hcalls, huntouched.trans (by simp [hp]) (untouched_turn s _ _),
        .drained (hsame.2.trans hleft) (Or.inr (Or.inr hphase))⟩

/-- **A connection in front of a truncated request** calls no handler for it. -/
theorem conn_truncated {events : List (Event H)} (hlt : part.length < demand h)
    (hp : s.phase = .watched ∨ s.phase = .receiving .header { length := headerSize, done := [] })
    (hleft : s.left = h.bytes ++ part) (hG : (conn run).Guarded ConnUncut s events)
    (hrun : (conn run).exec s events = some s') : s'.calls = s.calls ∧ Untouched s s' := by
  have hplace : ConnPlace h part s.calls s := by
    rcases hp with hp | hp
    · exact .watched hp hleft
    · exact .header hp rfl (by decide) hleft
  have hs : ConnCut h part s s := ⟨rfl, Or.inl ⟨rfl, rfl⟩, hplace⟩
  have hs' := (conn run).exec_inv_guarded (fun _ _ _ ht hG he => ht.step hlt hG he) hs hG hrun
  exact ⟨hs'.calls, hs'.untouched⟩

end Conns

/-! ### Both servers -/

/-- A truncated request has no effect on a session, in runs in which no header is cut. -/
def SessionSpared (h : NetPacketHeader) (part : List UInt8) : Prop :=
  ∀ (H : Type) (run : Boost.Handlers H) (s s' : Boost.Session) (events : List (Boost.Event H)),
    s.phase = .receiving → s.left = h.bytes ++ part →
      (Boost.session run).Guarded SessionUncut s events →
    (Boost.session run).exec s events = some s' →
    s'.calls = s.calls ∧ (s'.entry = s.entry ∨ s'.entry = none) ∧ s'.phase ≠ .overrun

/-- The same on a connection of the epoll server. -/
def ConnSpared (h : NetPacketHeader) (part : List UInt8) : Prop :=
  ∀ (H : Type) (run : Epoll.Handlers H) (s s' : Epoll.Conn) (events : List (Epoll.Event H)),
    (s.phase = .watched ∨ s.phase = .receiving .header { length := headerSize, done := [] }) →
    s.left = h.bytes ++ part → (Epoll.conn run).Guarded ConnUncut s events →
    (Epoll.conn run).exec s events = some s' → s'.calls = s.calls ∧ Untouched s s'

/-- All bytes of a request are asked for by a session. -/
theorem session_demand (hidle : ¬ h.IsIdle) (hord : h.IsOrdinary → h.data_size.toNat ≤ BUF_SIZE) :
    Boost.demand h = h.bodyLength := by
  rcases h.kinds with hi | hf | ho
  · exact absurd hi hidle
  · rw [Boost.demand_file hf, NetPacketHeader.bodyLength_file hf]
  · rw [Boost.demand_ordinary ho, NetPacketHeader.bodyLength_other ho.not_isFile,
      Nat.min_eq_left (hord ho)]

/-- The epoll server asks for them too, if the length of a file fits an `int`. -/
theorem conn_demand (hidle : ¬ h.IsIdle) (hord : h.IsOrdinary → h.data_size.toNat ≤ BUF_SIZE)
    (hfile : h.IsFile → h.data_size.toNat < 2 ^ 31) : Epoll.demand h = h.bodyLength := by
  rcases h.kinds with hi | hf | ho
  · exact absurd hi hidle
  · rw [Epoll.demand_file hf, NetPacketHeader.bodyLength_file hf, Epoll.asInt_of_lt (hfile hf),
      Int.toNat_natCast]
  · have hlt : h.data_size.toNat < 2 ^ 31 := (hord ho).trans_lt (by decide)
    rw [Epoll.demand_ordinary ho, NetPacketHeader.bodyLength_other ho.not_isFile,
      Epoll.asInt_of_lt hlt, Int.toNat_natCast]

/-- **Truncated requests have no effect** in runs in which no header is cut. -/
theorem truncated_no_effect (h : NetPacketHeader) (part : List UInt8) (hidle : ¬ h.IsIdle)
    (hord : h.IsOrdinary → h.data_size.toNat ≤ BUF_SIZE) (hpart : part.length < h.bodyLength) :
    SessionSpared h part ∧ ((h.IsFile → h.data_size.toNat < 2 ^ 31) → ConnSpared h part) := by
  constructor
  · intro H run s s' events hp hleft hG hrun
    have hlt : part.length < Boost.demand h := hpart.trans_eq (session_demand hidle hord).symm
    exact session_truncated hlt hp hleft hG hrun
  · intro hfile H run s s' events hp hleft hG hrun
    have hlt : part.length < Epoll.demand h := hpart.trans_eq (conn_demand hidle hord hfile).symm
    exact conn_truncated hlt hp hleft hG hrun

/-- A `GetFile` request, announced with 256 bytes. -/
def longHeader : NetPacketHeader where
  purpose := Purpose.GetFile.code
  data_size := 256

/-- One byte of its body. -/
theorem truncated_no_effect_one : SessionSpared longHeader [0] ∧
    ((longHeader.IsFile → longHeader.data_size.toNat < 2 ^ 31) → ConnSpared longHeader [0]) := by
  have hord : longHeader.IsOrdinary := ⟨.GetFile, rfl, rfl⟩
  exact truncated_no_effect longHeader [0] hord.not_isIdle (fun _ => by decide) (by decide)

/-! ### A header that is cut -/

/-- The text of an account: `{"id":"1","pw":"p"}`. -/
def accountText : List UInt8 :=
  [123, 34, 105, 100, 34, 58, 34, 49, 34, 44, 34, 112, 119, 34, 58, 34, 112, 34, 125]

/-- 24 of the 256 bytes announced: from the second one on, with the last three bytes of the header
in front, they are a registration. -/
def hiddenRegistration : List UInt8 := [0, 19, 0, 0, 0] ++ accountText

/-- A parser and a writer that are right about `accountText`. -/
def accountParser : Control.Nlohmann where
  parse := fun text => if text = accountText then some (.obj [("id", .str "1"), ("pw", .str "p")])
    else none
  dump := fun _ => accountText

/-- An `async_receive` that completes with five bytes of a header, or a `recv` that finds no more
than five: the truncated request registers an account. -/
theorem truncated_registers :
    let call : Call :=
  { header := { purpose := Purpose.Register.code, data_size := 19 }, payload := accountText }
    ((Boost.session Boost.quiet).exec
      (Boost.Session.start ⟨List.replicate 8 0, rfl⟩ (longHeader.bytes ++ hiddenRegistration)
      (some .eof))
      [.arrive 32, .receive 5, .read, .receive 8, .read]).map (·.calls) = some [call] ∧
    ((Epoll.conn Epoll.quiet).exec
    (Epoll.Conn.start "" (longHeader.bytes ++ hiddenRegistration) (some .eof))
      [.arrive 5, .wake, .recv 5, .recvAgain, .arrive 27, .wake, .recv 8, .recv 19]).map (·.calls) =
        some [call] ∧
    ∃ next, Control.InitControl.register accountParser .boost accountText =
      .call (.query_store (.selectUserId "1")) next := by
  refine ⟨by decide, by decide, ?_⟩
  exact ⟨_, rfl⟩

end PickUpLight.Requests
