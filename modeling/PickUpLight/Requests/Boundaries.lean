import PickUpLight.Boost.Requests
import PickUpLight.Epoll.Requests

/-!
# Frame boundaries

A header, whatever it says, is followed by its body and then by other requests. When
`processSingleRequest` has returned, the stream should be at the first of these. It is for
the headers that `SessionBounded` and `ConnBounded` describe, one condition for each server,
and for no others (`inStep_iff`): a heartbeat and an unknown purpose read no body, the asio
buffer ends where the request buffer does, `my_recv` writes past it, and a length that is negative
as an `int` asks for nothing.
-/

namespace PickUpLight.Requests

open PickUpLight.Theory PickUpLight.Wire

variable {h : NetPacketHeader} {body : List UInt8}

/-! ### Sessions -/

/-- After the header `h` a session comes to the end of its body: whenever
`processSingleRequest` has returned, what is left is what followed the body. -/
def SessionInStep (h : NetPacketHeader) : Prop :=
  ∀ (H : Type) (run : Boost.Handlers H) (s s' : Boost.Session) (body rest : List UInt8)
    (events : List (Boost.Event H)), s.header = h → body.length = h.bodyLength →
      s.left = body ++ rest →
    (∀ e ∈ events, ∀ n, e ≠ .receive n) →
      (Boost.session run).exec s.processSingleRequest events = some s' →
    s'.phase ≠ .overrun ∧ (s'.phase = .receiving → s'.left = rest)

/-- The headers a session reads the whole body of. -/
structure SessionBounded (h : NetPacketHeader) : Prop where
  /-- For a heartbeat or an unknown purpose there is no body. -/
  idle : h.IsIdle → h.data_size.toNat = 0
  /-- A file's block is not empty. -/
  file : h.IsFile → h.data_size.toNat ≠ 2 ^ 32 - 1
  /-- An ordinary packet fits the buffer. -/
  ordinary : h.IsOrdinary → h.data_size.toNat ≤ BUF_SIZE

/-- What a session reads for a bounded header is its body. -/
theorem SessionBounded.demand_eq (hb : SessionBounded h) : Boost.demand h = h.bodyLength := by
  rcases h.kinds with hi | hf | ho
  · rw [Boost.demand_idle hi, NetPacketHeader.bodyLength_other hi.not_isFile, hb.idle hi]
  · rw [Boost.demand_file hf, NetPacketHeader.bodyLength_file hf]
  · rw [Boost.demand_ordinary ho, NetPacketHeader.bodyLength_other ho.not_isFile]
    exact Nat.min_eq_left (hb.ordinary ho)

theorem SessionBounded.inStep (hb : SessionBounded h) : SessionInStep h := by
  intro H run s s' body rest events hheader hbody hleft hne hrun
  have hs := (Boost.serving_start hheader hleft rfl).of_run hne hrun
  constructor
  · intro hp
    simp only [Boost.Serving, hp] at hs
    exact hb.file hs.1 hs.2.1
  · intro hp
    simp only [Boost.Serving, hp] at hs
    rw [hs.2.1, hb.demand_eq, ← hbody, List.drop_left' rfl]

/-- A session that has a header in hand, and some bytes in front of it. -/
def readySession (h : NetPacketHeader) (bytes : List UInt8) : Boost.Session where
  incoming := []
  avail := bytes
  fault := none
  isOpen := true
  entry := none
  m_pheader := ⟨h.bytes, h.length_bytes⟩
  phase := .receiving
  calls := []

theorem readySession_header (h : NetPacketHeader) (bytes : List UInt8) :
    (readySession h bytes).header = h :=
  NetPacketHeader.ofBytes_bytes h

/-- If a session comes to the end of the body and returns, it has read as much. -/
theorem SessionInStep.bodyLength_le (hstep : SessionInStep h) {events : List (Boost.Event Unit)}
    {s' : Boost.Session} (hbody : body.length = h.bodyLength)
    (hne : ∀ e ∈ events, ∀ n, e ≠ .receive n)
    (hrun : (Boost.session Boost.quiet).exec (readySession h body).processSingleRequest events =
      some s')
    (hp : s'.phase = .receiving) : h.bodyLength ≤ Boost.demand h := by
  have hheader := readySession_header h body
  have hs := (Boost.serving_start hheader (List.append_nil body) rfl).of_run hne hrun
  have hleft : s'.left = [] :=
    (hstep Unit Boost.quiet _ s' body [] events hheader hbody rfl hne hrun).2 hp
  simp only [Boost.Serving, hp] at hs
  rw [hs.2.1, List.drop_eq_nil_iff, hbody] at hleft
  exact hleft

/-- Zeros, as many as a body has bytes. -/
def zeros (h : NetPacketHeader) : List UInt8 := List.replicate h.bodyLength 0

@[simp] theorem length_zeros (h : NetPacketHeader) : (zeros h).length = h.bodyLength :=
  List.length_replicate

/-- The session at work on an ordinary packet. -/
theorem readySession_ordinary (ho : h.IsOrdinary) (bytes : List UInt8) :
    (readySession h bytes).processSingleRequest = { readySession h bytes with phase := .body } := by
  obtain ⟨p, hp, hord⟩ := ho
  simp only [Boost.Session.processSingleRequest, readySession_header, hp]
  cases p <;> first | rfl | cases hord

/-- The session at work on a file. -/
theorem readySession_file (hf : h.IsFile) (bytes : List UInt8) :
    (readySession h bytes).processSingleRequest =
      { readySession h bytes with phase := .fileInfo } := by
  simp only [Boost.Session.processSingleRequest, readySession_header,
    show Purpose.ofCode h.purpose = _ from hf]

theorem SessionInStep.bounded (hstep : SessionInStep h) : SessionBounded h where
  idle hi := by
    have hle : h.bodyLength ≤ Boost.demand h := by
      rcases hi with hp | hp
      · refine hstep.bodyLength_le (length_zeros h) (List.forall_mem_nil _) rfl ?_
        simp [Boost.Session.processSingleRequest, readySession_header, hp]
      · obtain ⟨s', hrun, hs'⟩ : ∃ s', (Boost.session Boost.quiet).exec
            (readySession h (zeros h)).processSingleRequest [.handle ()] = some s' ∧
              s'.phase = .receiving := by
          simp only [Boost.Session.processSingleRequest, readySession_header, hp]
          exact ⟨_, rfl, rfl⟩
        exact hstep.bodyLength_le (length_zeros h) (by simp) hrun hs'
    rw [Boost.demand_idle hi, NetPacketHeader.bodyLength_other hi.not_isFile] at hle
    omega
  file hf := by
    intro hmax
    -- the description is read, and then the file, into a block of no bytes
    let s₁ : Boost.Session := { readySession h (zeros h) with phase := .fileInfo }
    have hheader : s₁.header = h := readySession_header h (zeros h)
    have hlen : s₁.avail.length = BUF_SIZE + h.data_size.toNat := by
      rw [← NetPacketHeader.bodyLength_file hf]
      exact length_zeros h
    let s₂ : Boost.Session :=
      { s₁ with avail := s₁.avail.drop BUF_SIZE, phase := .fileData (s₁.avail.take BUF_SIZE) }
    have hread : Boost.session Boost.quiet s₁ .read = some s₂ :=
      Boost.session_read rfl rfl rfl (show BUF_SIZE ≤ s₁.avail.length by omega)
    have hover : Boost.session Boost.quiet s₂ .read = some { s₂ with phase := .overrun } := by
      refine Boost.session_overrun rfl ?_ ?_
      · show decide ((s₁.header.data_size + 1).toNat < s₁.header.data_size.toNat) = true
        have hone : (1 : UInt32).toNat = 1 := rfl
        rw [hheader, decide_eq_true_eq, UInt32.toNat_add]
        omega
      · apply List.ne_nil_of_length_pos
        show 0 < (s₁.avail.drop BUF_SIZE).length
        rw [List.length_drop]
        omega
    have hrun : (Boost.session Boost.quiet).exec (readySession h (zeros h)).processSingleRequest
        [.read, .read] = some { s₂ with phase := .overrun } := by
      rw [readySession_file hf, Machine.exec_cons_iff]
      refine ⟨s₂, hread, ?_⟩
      rw [Machine.exec_cons_iff]
      exact ⟨_, hover, rfl⟩
    have hleft : (readySession h (zeros h)).left = zeros h ++ [] := rfl
    exact (hstep Unit Boost.quiet _ _ (zeros h) [] _ (readySession_header h _)
      (length_zeros h) hleft
      (by simp) hrun).1 rfl
  ordinary ho := by
    by_contra hlong
    let s₁ : Boost.Session := { readySession h (zeros h) with phase := .body }
    have hheader : s₁.header = h := readySession_header h (zeros h)
    have hlen : s₁.avail.length = h.data_size.toNat := by
      rw [← NetPacketHeader.bodyLength_other ho.not_isFile]
      exact length_zeros h
    obtain ⟨s', hread, hs'⟩ : ∃ s', Boost.session Boost.quiet s₁ .read = some s' ∧
        s'.phase = .receiving :=
      Boost.read_long rfl rfl (by rw [hheader]; omega) (by omega)
    have hrun :
        (Boost.session Boost.quiet).exec (readySession h (zeros h)).processSingleRequest [.read] =
          some s' := by
      rw [readySession_ordinary ho, Machine.exec_cons_iff]
      exact ⟨s', hread, rfl⟩
    have hle := hstep.bodyLength_le (length_zeros h) (by simp) hrun hs'
    rw [Boost.demand_ordinary ho, NetPacketHeader.bodyLength_other ho.not_isFile] at hle
    omega

/-! ### Connections of the epoll server -/

/-- After the header `h` a task comes to the end of its body: whenever
`processSingleRequest` has returned, what is left is what followed the body. -/
def ConnInStep (h : NetPacketHeader) : Prop :=
  ∀ (H : Type) (run : Epoll.Handlers H) (s s' : Epoll.Conn) (body rest : List UInt8)
    (events : List (Epoll.Event H)), s.pheader = h → body.length = h.bodyLength →
      s.left = body ++ rest →
    (Epoll.conn run).Guarded Epoll.Within s.processSingleRequest events →
    (Epoll.conn run).exec s.processSingleRequest events = some s' →
    s'.phase ≠ .smashed ∧ ∀ t, s'.phase = .receiving .header t → s'.left = rest

/-- The headers a task reads the whole body of. -/
structure ConnBounded (h : NetPacketHeader) : Prop where
  /-- For a heartbeat or an unknown purpose there is no body. -/
  idle : h.IsIdle → h.data_size.toNat = 0
  /-- The length of a file fits an `int`. -/
  file : h.IsFile → h.data_size.toNat < 2 ^ 31
  /-- An ordinary packet fits the buffer. -/
  ordinary : h.IsOrdinary → h.data_size.toNat ≤ BUF_SIZE

/-- What a task asks for, for a bounded header, is its body. -/
theorem ConnBounded.demand_eq (hb : ConnBounded h) : Epoll.demand h = h.bodyLength := by
  rcases h.kinds with hi | hf | ho
  · rw [Epoll.demand_idle hi, NetPacketHeader.bodyLength_other hi.not_isFile, hb.idle hi]
  · rw [Epoll.demand_file hf, NetPacketHeader.bodyLength_file hf, Epoll.asInt_of_lt (hb.file hf),
      Int.toNat_natCast]
  · have hle := hb.ordinary ho
    simp only [BUF_SIZE] at hle
    rw [Epoll.demand_ordinary ho, NetPacketHeader.bodyLength_other ho.not_isFile, Epoll.asInt_of_lt
      (by omega), Int.toNat_natCast]

theorem ConnBounded.inStep (hb : ConnBounded h) : ConnInStep h := by
  intro H run s s' body rest events hheader hbody hleft hw hrun
  have hs := (Epoll.serving_start hheader hleft rfl).of_run hw hrun
  constructor
  · intro hp
    simp only [Epoll.Serving, hp] at hs
    obtain ⟨ho, hlong, -⟩ := hs
    have hle := hb.ordinary ho
    simp only [BUF_SIZE] at hle hlong
    rw [Epoll.asInt_of_lt (by omega)] at hlong
    omega
  · intro t hp
    simp only [Epoll.Serving, hp] at hs
    obtain ⟨-, ⟨-, hrest, -⟩ | ⟨hshort, -, -⟩⟩ := hs
    · rw [hrest, hb.demand_eq, ← hbody, List.drop_left' rfl]
    · rw [hb.demand_eq, ← hbody, List.length_append] at hshort
      omega

/-- A connection whose task has a header in hand, and some bytes in front of it. -/
def readyConn (h : NetPacketHeader) (bytes : List UInt8) : Epoll.Conn where
  incoming := []
  avail := bytes
  fault := none
  entry := none
  pheader := h
  phase := .watched
  calls := []
  livesRemoved := []

/-- If a task comes to the end of the body and returns, it has asked for as much. -/
theorem ConnInStep.bodyLength_le (hstep : ConnInStep h) {events : List (Epoll.Event Unit)}
    {s₁ s' : Epoll.Conn} {t : Transfer} (hstart : (readyConn h (zeros h)).processSingleRequest = s₁)
    (hw : (Epoll.conn Epoll.quiet).Guarded Epoll.Within s₁ events)
    (hrun : (Epoll.conn Epoll.quiet).exec s₁ events = some s')
    (hp : s'.phase = .receiving .header t) :
    h.bodyLength ≤ Epoll.demand h := by
  subst hstart
  have hready : (readyConn h (zeros h)).left = zeros h := List.append_nil _
  have hheader : (readyConn h (zeros h)).pheader = h := rfl
  have hs := (Epoll.serving_start hheader hready rfl).of_run hw hrun
  have hleft : s'.left = [] :=
    (hstep Unit Epoll.quiet _ s' (zeros h) [] events rfl (length_zeros h) rfl hw hrun).2 t hp
  simp only [Epoll.Serving, hp] at hs
  obtain ⟨-, ⟨-, hrest, -⟩ | ⟨hshort, -, -⟩⟩ := hs
  · rw [hrest, List.drop_eq_nil_iff, length_zeros] at hleft
    exact hleft
  · rw [length_zeros] at hshort
    omega

/-- The task at work on an ordinary packet: it starts to read the body. -/
theorem readyConn_ordinary (ho : h.IsOrdinary) (bytes : List UInt8) :
    (readyConn h bytes).processSingleRequest = (readyConn h bytes).startPayload .body [] := by
  obtain ⟨p, hp, hord⟩ := ho
  simp only [Epoll.Conn.processSingleRequest, show (readyConn h bytes).pheader = h from rfl, hp]
  cases p <;> first | rfl | cases hord

/-- While the task is at its work, every step is one before the next header. -/
theorem within_of_ne {s : Epoll.Conn} {e : Epoll.Event Unit}
    (hp : ∀ t, s.phase ≠ .receiving .header t) :
    Epoll.Within s e :=
  fun t ht => absurd ht (hp t)

theorem ConnInStep.bounded (hstep : ConnInStep h) : ConnBounded h where
  idle hi := by
    have hle : h.bodyLength ≤ Epoll.demand h := by
      rcases hi with hp | hp
      · have hstart :
            (readyConn h (zeros h)).processSingleRequest = (readyConn h (zeros h)).nextHeader := by
          simp only [Epoll.Conn.processSingleRequest, show (readyConn h (zeros h)).pheader =
            h from rfl, hp]
        exact hstep.bodyLength_le hstart (Machine.guarded_nil _) (Machine.exec_nil _ _) rfl
      · have hstart :
            (readyConn h (zeros h)).processSingleRequest = (readyConn h (zeros h)).hand [] := by
          simp only [Epoll.Conn.processSingleRequest, show (readyConn h (zeros h)).pheader =
            h from rfl, hp]
        have hw : Epoll.Within ((readyConn h (zeros h)).hand []) (.handle ()) :=
          within_of_ne (by simp [Epoll.Conn.hand])
        exact hstep.bodyLength_le hstart ((Machine.guarded_singleton _).mpr hw)
          (Machine.exec_singleton _ _ _) rfl
    rw [Epoll.demand_idle hi, NetPacketHeader.bodyLength_other hi.not_isFile] at hle
    omega
  file hf := by
    by_contra hlarge
    have hneg : ¬ 0 < Epoll.asInt h.data_size := by
      rw [Epoll.asInt_pos]
      omega
    -- the description is read, and the file is not
    let s₁ : Epoll.Conn :=
      { readyConn h (zeros h) with
        phase := .receiving .fileInfo { length := BUF_SIZE, done := [] } }
    have hstart : (readyConn h (zeros h)).processSingleRequest = s₁ := by
      simp only [Epoll.Conn.processSingleRequest, show (readyConn h (zeros h)).pheader = h from rfl,
        show Purpose.ofCode h.purpose = _ from hf]
      rfl
    have hlen : s₁.avail.length = BUF_SIZE + h.data_size.toNat := by
      rw [← NetPacketHeader.bodyLength_file hf]
      exact length_zeros h
    have hw : Epoll.Within s₁ (.recv BUF_SIZE) := within_of_ne fun _ ht => by cases ht
    have hrun := (Machine.exec_singleton (Epoll.conn Epoll.quiet) s₁ _).trans
      (Epoll.conn_fileInfo_nothing rfl hneg (by omega))
    have hle := hstep.bodyLength_le hstart ((Machine.guarded_singleton _).mpr hw) hrun rfl
    rw [Epoll.demand_file hf, NetPacketHeader.bodyLength_file hf] at hle
    omega
  ordinary ho := by
    by_contra hlong
    by_cases hlt : h.data_size.toNat < 2 ^ 31
    · -- the packet is written past the end of its buffer
      let s₁ : Epoll.Conn := { readyConn h (zeros h) with
        phase := .receiving .body { length := h.data_size.toNat, done := [] } }
      have hstart : (readyConn h (zeros h)).processSingleRequest = s₁ := by
        rw [readyConn_ordinary ho]
        exact Epoll.startPayload_eq (show 1 ≤ h.data_size.toNat by omega) hlt
      have hlen : s₁.avail.length = h.data_size.toNat := by
        rw [← NetPacketHeader.bodyLength_other ho.not_isFile]
        exact length_zeros h
      have hw : Epoll.Within s₁ (.recv h.data_size.toNat) := within_of_ne fun _ ht => by cases ht
      have hrun := (Machine.exec_singleton (Epoll.conn Epoll.quiet) s₁ _).trans
        (Epoll.conn_smashed rfl (by omega) (Nat.le_of_eq hlen.symm))
      rw [← hstart] at hrun hw
      have hleft : (readyConn h (zeros h)).left = zeros h ++ [] := rfl
      exact (hstep Unit Epoll.quiet _ _ (zeros h) [] _ rfl (length_zeros h) hleft
        ((Machine.guarded_singleton _).mpr hw) hrun).1 rfl
    · have hneg : ¬ 0 < Epoll.asInt h.data_size := by
        rw [Epoll.asInt_pos]
        omega
      have hstart :
          (readyConn h (zeros h)).processSingleRequest = (readyConn h (zeros h)).nextHeader := by
        rw [readyConn_ordinary ho]
        exact Epoll.startPayload_nothing hneg _ _
      have hle := hstep.bodyLength_le hstart (Machine.guarded_nil _) (Machine.exec_nil _ _) rfl
      rw [Epoll.demand_ordinary ho, NetPacketHeader.bodyLength_other ho.not_isFile] at hle
      omega

/-- **Which headers leave the stream at a frame boundary**, on each of the two servers. -/
theorem inStep_iff (h : NetPacketHeader) :
    (SessionInStep h ↔ SessionBounded h) ∧ (ConnInStep h ↔ ConnBounded h) :=
  ⟨⟨SessionInStep.bounded, SessionBounded.inStep⟩, ⟨ConnInStep.bounded, ConnBounded.inStep⟩⟩

/-- A heartbeat that says it has eight bytes: they are taken for the next header. -/
theorem heartbeat_body_left :
    ¬ SessionInStep { purpose := 0, data_size := 8 } ∧
      ¬ ConnInStep { purpose := 0, data_size := 8 } := by
  have hi : ({ purpose := 0, data_size := 8 } : NetPacketHeader).IsIdle := Or.inr rfl
  constructor
  · intro hstep
    exact absurd (hstep.bounded.idle hi) (by decide)
  · intro hstep
    exact absurd (hstep.bounded.idle hi) (by decide)

end PickUpLight.Requests
