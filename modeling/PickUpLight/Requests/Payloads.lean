import PickUpLight.Requests.Boundaries

/-!
# What a handler reads in its buffer

The handler of an ordinary packet gets the address of the request buffer and takes what is in
front of the first zero for the packet. That is the packet, whole and with an end, for
every packet shorter than the buffer; one as long as the buffer is handed over without an end,
and a longer one is written past the end by `my_recv` (`faithful_iff`). The branch for `Chat` gives
the parser the array, and a packet as long as the buffer is read whole.
-/

namespace PickUpLight.Requests

open PickUpLight.Theory PickUpLight.Wire

variable {h : NetPacketHeader}

/-- What is read of the buffer with the packet of a header. -/
def readText (h : NetPacketHeader) (memory : List UInt8) : Option (List UInt8) :=
  if h.purpose = Purpose.Chat.code then some (arrayText memory) else cString memory

theorem readText_buffer {payload : List UInt8} (hzero : 0 ∉ payload) :
    readText h (buffer payload) = some payload ↔
      (h.purpose ≠ Purpose.Chat.code → payload.length < BUF_SIZE) := by
  unfold readText
  split
  · rename_i hchat
    simp [arrayText_buffer hzero, hchat]
  · rename_i hchat
    simp [cString_buffer hzero, hchat]

/-- A session reads the packet of a header into its buffer and no further, and what its handler
finds there is the packet. -/
def SessionFaithful (h : NetPacketHeader) : Prop :=
  ∀ (H : Type) (run : Boost.Handlers H) (s s' : Boost.Session) (payload rest : List UInt8)
    (events : List (Boost.Event H)), s.header = h → payload.length = h.data_size.toNat →
      0 ∉ payload →
    s.left = payload ++ rest → (∀ e ∈ events, ∀ n, e ≠ .receive n) →
    (Boost.session run).exec s.processSingleRequest events = some s' →
    (s'.phase = .body → s'.wanted ≤ BUF_SIZE) ∧
      ∀ call, s'.calls = s.calls ++ [call] → h.IsOrdinary →
        readText h (buffer call.payload) = some payload

/-- A task of the epoll server reads the packet of a header into its buffer and no further, and
what its handler finds there is the packet. -/
def ConnFaithful (h : NetPacketHeader) : Prop :=
  ∀ (H : Type) (run : Epoll.Handlers H) (s s' : Epoll.Conn) (payload rest : List UInt8)
    (events : List (Epoll.Event H)), s.pheader = h → payload.length = h.data_size.toNat →
      0 ∉ payload →
    s.left = payload ++ rest → (Epoll.conn run).Guarded Epoll.Within s.processSingleRequest events →
    (Epoll.conn run).exec s.processSingleRequest events = some s' →
    s'.phase ≠ .smashed ∧ (∀ t, s'.phase = .receiving .body t → t.done.length ≤ BUF_SIZE) ∧
      ∀ call, s'.calls = s.calls ++ [call] → h.IsOrdinary →
        readText h (buffer call.payload) = some payload

/-! ### Sessions -/

theorem sessionFaithful_of_ne (hne : h.IsOrdinary → h.purpose ≠ Purpose.Chat.code →
      h.data_size.toNat ≠ BUF_SIZE) :
    SessionFaithful h := by
  intro H run s s' payload rest events hheader hlen hzero hleft hevents hrun
  have hs := (Boost.serving_start hheader hleft rfl).of_run hevents hrun
  constructor
  · intro hp
    simp only [Boost.Session.wanted, hp]
    exact Nat.min_le_right _ _
  · intro call hcalls ho
    obtain ⟨-, hhanded⟩ := hs.handed hcalls
    rw [Boost.handed_ordinary ho, Boost.demand_ordinary ho] at hhanded
    split at hhanded <;> cases hhanded
    rename_i hok
    -- it has been accepted, so it is not longer than the buffer
    have hle : h.data_size.toNat ≤ BUF_SIZE := by
      by_contra hlong
      rw [Nat.min_eq_right (by omega), refused_ofNat] at hok
      simp only [BUF_SIZE] at hlong hok
      omega
    have htake : (payload ++ rest).take (min h.data_size.toNat BUF_SIZE) = payload := by
      rw [Nat.min_eq_left hle, ← hlen, List.take_left' rfl]
    show readText h (buffer ((payload ++ rest).take _)) = some payload
    rw [htake, readText_buffer hzero, hlen]
    exact fun hchat => Nat.lt_of_le_of_ne hle (hne ho hchat)

/-- A packet of ones. -/
def ones (h : NetPacketHeader) : List UInt8 := List.replicate h.data_size.toNat 1

@[simp] theorem length_ones (h : NetPacketHeader) : (ones h).length = h.data_size.toNat :=
  List.length_replicate

theorem zero_not_mem_ones (h : NetPacketHeader) : 0 ∉ ones h := by
  intro hmem
  exact absurd (List.eq_of_mem_replicate hmem) (by decide)

theorem SessionFaithful.ne (hf : SessionFaithful h) (ho : h.IsOrdinary)
    (hchat : h.purpose ≠ Purpose.Chat.code) :
    h.data_size.toNat ≠ BUF_SIZE := by
  intro hfull
  let s₁ : Boost.Session := { readySession h (ones h) with phase := .body }
  have hheader : s₁.header = h := readySession_header h (ones h)
  have hwant : s₁.wanted = (ones h).length := by
    show min s₁.header.data_size.toNat BUF_SIZE = _
    rw [hheader, length_ones, hfull, Nat.min_self]
  have hread : Boost.session Boost.quiet s₁ .read = some _ :=
    Boost.session_read rfl rfl rfl (Nat.le_of_eq hwant)
  have hok : refused (Int32.ofNat (ones h).length) s₁.header.data_size = false := by
    rw [hheader, length_ones, ← Bool.not_eq_true, refused_all]
    simp only [BUF_SIZE] at hfull
    omega
  have hrun :
      (Boost.session Boost.quiet).exec (readySession h (ones h)).processSingleRequest [.read] =
        some ({ s₁ with avail := [] }.hand (ones h)) := by
    rw [readySession_ordinary ho, Machine.exec_singleton, hread, hwant]
    have hall : s₁.avail.take (ones h).length = ones h := List.take_length
    have hnone : s₁.avail.drop (ones h).length = [] := List.drop_length
    rw [hall, hnone]
    exact congrArg some (Boost.Session.afterRead_body rfl hok)
  have hleft : (readySession h (ones h)).left = ones h ++ [] := rfl
  have htext :=
    (hf Unit Boost.quiet _ _ (ones h) [] [.read] (readySession_header h _) (length_ones h)
    (zero_not_mem_ones h) hleft (by simp) hrun).2 _ rfl ho
  rw [readText_buffer (zero_not_mem_ones h), length_ones, hfull] at htext
  exact Nat.lt_irrefl _ (htext hchat)

/-! ### Connections of the epoll server -/

/-- The packets that the epoll server hands over as they are, or does not read. -/
def Holds (h : NetPacketHeader) : Prop :=
  h.data_size.toNat < BUF_SIZE ∨ (h.purpose = Purpose.Chat.code ∧ h.data_size.toNat = BUF_SIZE) ∨
    2 ^ 31 ≤ h.data_size.toNat

theorem connFaithful_of_holds (hholds : h.IsOrdinary → Holds h) : ConnFaithful h := by
  intro H run s s' payload rest events hheader hlen hzero hleft hw hrun
  have hs := (Epoll.serving_start hheader hleft rfl).of_run hw hrun
  refine ⟨?_, ?_, ?_⟩
  · intro hp
    simp only [Epoll.Serving, hp] at hs
    obtain ⟨ho, hlong, -⟩ := hs
    have hpos : 0 < Epoll.asInt h.data_size := by omega
    have hint := (Epoll.asInt_pos.mp hpos).2
    rw [Epoll.asInt_of_lt hint] at hlong
    rcases hholds ho with hsmall | ⟨-, hfull⟩ | hlarge <;> omega
  · intro t hp
    exact (hs.done_lt hp).2 rfl
  · intro call hcalls ho
    obtain ⟨-, hhanded⟩ := hs.handed hcalls
    rw [Epoll.handed_ordinary ho, Epoll.demand_ordinary ho] at hhanded
    split at hhanded <;> cases hhanded
    rename_i hpos
    have hint := (Epoll.asInt_pos.mp hpos).2
    have htake : (payload ++ rest).take (Epoll.asInt h.data_size).toNat = payload := by
      rw [Epoll.asInt_of_lt hint, Int.toNat_natCast, ← hlen, List.take_left' rfl]
    show readText h (buffer ((payload ++ rest).take _)) = some payload
    rw [htake, readText_buffer hzero, hlen]
    intro hchat
    rcases hholds ho with hsmall | ⟨hnot, -⟩ | hlarge
    · exact hsmall
    · exact absurd hnot hchat
    · omega

theorem ConnFaithful.holds (hf : ConnFaithful h) (ho : h.IsOrdinary) : Holds h := by
  by_contra hbad
  simp only [Holds, not_or, not_and, Nat.not_lt, Nat.not_le] at hbad
  obtain ⟨hlong, hnot, hint⟩ := hbad
  have hpos : 0 < h.data_size.toNat := Nat.lt_of_lt_of_le (by decide) hlong
  let s₁ : Epoll.Conn := { readyConn h (ones h) with
    phase := .receiving .body { length := h.data_size.toNat, done := [] } }
  have hstart : (readyConn h (ones h)).processSingleRequest = s₁ := by
    rw [readyConn_ordinary ho]
    exact Epoll.startPayload_eq hpos hint
  have hlen : s₁.avail.length = h.data_size.toNat := length_ones h
  have hw : Epoll.Within s₁ (.recv h.data_size.toNat) := within_of_ne nofun
  have hleft : (readyConn h (ones h)).left = ones h ++ [] := rfl
  have hresult : ∀ s', Epoll.conn Epoll.quiet s₁ (.recv h.data_size.toNat) = some s' →
      s'.phase ≠ .smashed ∧ ∀ call, s'.calls = [call] →
        readText h (buffer call.payload) = some (ones h) := by
    intro s' hrecv
    have hrun := (Machine.exec_singleton (Epoll.conn Epoll.quiet) s₁ _).trans hrecv
    rw [← hstart] at hrun hw
    obtain ⟨hsmash, -, htext⟩ := hf Unit Epoll.quiet _ s' (ones h) [] _ rfl (length_ones h)
      (zero_not_mem_ones h) hleft ((Machine.guarded_singleton _).mpr hw) hrun
    exact ⟨hsmash, fun call hcall => htext call hcall ho⟩
  rcases Nat.eq_or_lt_of_le hlong with hfull | hlonger
  · have hok := Epoll.accepted_of_lt hpos hint
    have hrecv : Epoll.conn Epoll.quiet s₁ (.recv h.data_size.toNat) = some _ :=
      Epoll.conn_hand rfl hpos (Nat.le_of_eq hfull.symm) hok (Nat.le_of_eq hlen.symm)
    have htext := (hresult _ hrecv).2 _ rfl
    have hall : s₁.avail.take h.data_size.toNat = ones h :=
      List.take_of_length_le (Nat.le_of_eq hlen)
    rw [hall, readText_buffer (zero_not_mem_ones h), length_ones, ← hfull] at htext
    exact Nat.lt_irrefl _ (htext fun hchat => hnot hchat hfull.symm)
  · have hrecv : Epoll.conn Epoll.quiet s₁ (.recv h.data_size.toNat) = some _ :=
      Epoll.conn_smashed rfl hlonger (Nat.le_of_eq hlen.symm)
    exact (hresult _ hrecv).1 rfl

/-- **Which packets a handler sees as they are**, on each of the two servers. -/
theorem faithful_iff (h : NetPacketHeader) :
    (SessionFaithful h ↔
      (h.IsOrdinary → h.purpose ≠ Purpose.Chat.code → h.data_size.toNat ≠ BUF_SIZE)) ∧
      (ConnFaithful h ↔ (h.IsOrdinary → Holds h)) :=
  ⟨⟨SessionFaithful.ne, sessionFaithful_of_ne⟩, ⟨ConnFaithful.holds, connFaithful_of_holds⟩⟩

/-- A registration of exactly 10240 bytes fills the buffer, and its text has no end. -/
theorem full_packet_unended :
    ¬ SessionFaithful { purpose := 1, data_size := 10240 } ∧
      ¬ ConnFaithful { purpose := 1, data_size := 10240 } := by
  have ho : ({ purpose := 1, data_size := 10240 } : NetPacketHeader).IsOrdinary :=
    ⟨.Register, rfl, rfl⟩
  constructor
  · intro hf
    exact hf.ne ho (by decide) rfl
  · intro hf
    rcases hf.holds ho with hsmall | ⟨hchat, -⟩ | hlarge
    · exact absurd hsmall (by decide)
    · exact absurd hchat (by decide)
    · exact absurd hlarge (by decide)

end PickUpLight.Requests
