import PickUpLight.Boost.Session

/-!
# Framing on the Boost server

A client sends well-formed requests; the network cuts their bytes into pieces. What the
handlers should be given is the requests, whole and in order (`Frame.call`). They are, as
long as every `async_receive` of a header completes with the whole header: the completion
handler does not look at `length`, so a header cut in two is taken for two headers, with
whatever the memory of `m_pheader` held before behind the bytes that came
(`calls_of_cut_header`). The other ways to lose a request are a file of 2^32 - 1 bytes,
for which no block is allocated, and a session that ends early, because a handler throws or
the evaluator evicts the connection.

`Aligned` ties the point the session has come to to the request it is in;
`calls_of_run` is what holds in every state of a run that meets `Whole`, and once nothing can
happen any more.
-/

namespace PickUpLight.Boost

open PickUpLight.Theory PickUpLight.Wire

variable {H : Type} {run : Handlers H} {s s' : Session} {e : Event H} {f : Frame} {fs : List Frame}

/-- The bytes that have not been read. -/
def Session.left (s : Session) : List UInt8 := s.avail ++ s.incoming

/-- A step is one after which the session is still in step with the stream: a header is
received whole, the file read has a block to go to, and the session does not end before
everything has been read. -/
def Whole (run : Handlers H) (s : Session) : Event H → Prop
  | .receive n => n = headerSize
  | .read => s.overflows = false
  | .handle h =>
    match s.phase with
    | .handling call => run call s.isOpen s.entry h = none → s.left = []
    | _ => True
  | .evict => s.left = []
  | _ => True

instance (run : Handlers H) (s : Session) (e : Event H) : Decidable (Whole run s e) := by
  unfold Whole
  cases e with
  | handle h =>
    dsimp only
    split <;> infer_instance
  | _ => infer_instance

/-- What is ahead of a session, where `rest` is what has not been handed over. -/
def Ahead (s : Session) (rest : List Frame) : Prop :=
  match s.phase with
  | .receiving | .handling _ => s.left = stream rest
  | .body => ∃ f fs, rest = f :: fs ∧ s.header = f.header ∧ f.purpose ≠ .Heart ∧
      f.purpose ≠ .SendFile ∧ s.left = f.payload ++ stream fs
  | .fileInfo => ∃ f fs, rest = f :: fs ∧ s.header = f.header ∧ f.purpose = .SendFile ∧
      s.left = f.payload ++ stream fs
  | .fileData info => ∃ f fs, rest = f :: fs ∧ s.header = f.header ∧ f.purpose = .SendFile ∧
      info.length = BUF_SIZE ∧ info ++ s.left = f.payload ++ stream fs
  | .ended | .escaped => rest = [] ∧ s.left = []
  | .overrun => False

/-- **The invariant**: some requests have been handed over, the others are ahead, and the
socket is open while there are any. -/
structure Aligned (fs : List Frame) (s : Session) : Prop where
  /-- The client goes on: it has not closed the connection. -/
  fault : s.fault = none
  /-- What has been handed over, and what is ahead. -/
  split : ∃ done rest, fs = done ++ rest ∧ s.calls = done.map Frame.call ∧ Ahead s rest
  /-- The socket is closed only at the end. -/
  isOpen : s.isOpen = false → s.left = []

theorem aligned_start (raw : RawHeader) (fs : List Frame) :
    Aligned fs (Session.start raw (stream fs) none) where
  fault := rfl
  split := ⟨[], fs, rfl, rfl, rfl⟩
  isOpen h := by cases h

/-! ### Steps -/

/-- A step that leaves the session where it is, and what is left as it is. -/
theorem Aligned.of_same (h : Aligned fs s) (hfault : s'.fault = s.fault)
    (hcalls : s'.calls = s.calls) (hphase : s'.phase = s.phase) (hheader : s'.header = s.header)
    (hleft : s'.left = s.left) (hopen : s'.isOpen = false → s.left = []) : Aligned fs s' where
  fault := hfault.trans h.fault
  split := by
    obtain ⟨done, rest, hfs, hc, ha⟩ := h.split
    refine ⟨done, rest, hfs, hcalls.trans hc, ?_⟩
    unfold Ahead at ha ⊢
    rw [hphase, hheader, hleft]
    exact ha
  isOpen ho := hleft.trans (hopen ho)

/-- A request is handed over. -/
theorem Aligned.hand {done rest : List Frame} {payload : List UInt8} (hfault : s.fault = none)
    (hfs : fs = done ++ f :: rest) (hcalls : s.calls = done.map Frame.call)
    (hheader : s.header = f.header) (hpayload : payload = f.payload) (hleft : s.left = stream rest)
    (hopen : s.isOpen = false → s.left = []) : Aligned fs (s.hand payload) where
  fault := hfault
  split := by
    refine ⟨done ++ [f], rest, by simp [hfs], ?_, hleft⟩
    show s.calls ++ [{ header := s.header, payload := payload }] = _
    rw [hcalls, hheader, hpayload, List.map_append]
    rfl
  isOpen := hopen

/-- A whole header is received. -/
theorem Aligned.receive (h : Aligned fs s) (hp : s.phase = .receiving) (hopen : s.isOpen = true)
    (hle : headerSize ≤ s.avail.length) :
    Aligned fs ({ s with
      m_pheader := s.m_pheader.overwrite (s.avail.take headerSize)
      avail := s.avail.drop headerSize }.processSingleRequest) := by
  obtain ⟨done, rest, hfs, hcalls, ha⟩ := h.split
  simp only [Ahead, hp] at ha
  cases rest with
  | nil =>
    have hlen := congrArg List.length ha
    simp only [Session.left, stream_nil, List.length_append, List.length_nil,
      headerSize] at hlen hle
    omega
  | cons f rest =>
    rw [stream_cons] at ha
    obtain ⟨htake, hdrop⟩ := take_drop_of_append ha hle
    rw [NetPacketHeader.length_bytes] at htake hdrop
    rw [htake]
    -- the session after the header, before it looks at the purpose
    generalize hs₁ : ({ s with
      m_pheader := s.m_pheader.overwrite f.header.bytes
      avail := s.avail.drop headerSize } : Session) = s₁
    have hheader : s₁.header = f.header := by simp [← hs₁, Session.header]
    have hleft : s₁.left = f.payload ++ stream rest := by simpa [← hs₁, Session.left] using hdrop
    have hfault₁ : s₁.fault = none := by simp [← hs₁, h.fault]
    have hcalls₁ : s₁.calls = done.map Frame.call := by simp [← hs₁, hcalls]
    have hopen₁ : s₁.isOpen = true := by simp [← hs₁, hopen]
    have hpurpose : Purpose.ofCode s₁.header.purpose = some f.purpose := by
      rw [hheader]
      exact Purpose.ofCode_code f.purpose
    unfold Session.processSingleRequest
    rw [hpurpose]
    have hclosed : ∀ {P : Prop}, s₁.isOpen = false → P := by
      intro P hc
      rw [hopen₁] at hc
      cases hc
    by_cases hheart : f.purpose = .Heart
    · rw [hheart]
      have hnil := f.heart_payload hheart
      refine Aligned.hand hfault₁ hfs hcalls₁ hheader hnil.symm ?_ hclosed
      rw [hleft, hnil, List.nil_append]
    · by_cases hfile : f.purpose = .SendFile
      · rw [hfile]
        exact ⟨hfault₁, ⟨done, f :: rest, hfs, hcalls₁, f, rest, rfl, hheader, hfile, hleft⟩,
          hclosed⟩
      · have hbody : Aligned fs { s₁ with phase := .body } :=
          ⟨hfault₁, ⟨done, f :: rest, hfs, hcalls₁, f, rest, rfl, hheader, hheart, hfile, hleft⟩,
            hclosed⟩
        cases hpur : f.purpose with
        | Heart => exact absurd hpur hheart
        | SendFile => exact absurd hpur hfile
        | _ => exact hbody

/-- An ordinary packet is read. -/
theorem Aligned.read_body (h : Aligned fs s) (hp : s.phase = .body)
    (hle : s.wanted ≤ s.avail.length) :
    Aligned fs ({ s with avail := s.avail.drop s.wanted }.afterRead (s.avail.take s.wanted)) := by
  obtain ⟨done, rest, hfs, hcalls, ha⟩ := h.split
  simp only [Ahead, hp] at ha
  obtain ⟨f, rest, rfl, hheader, hheart, hfile, hleft⟩ := ha
  obtain ⟨hpos, hmax, hlen⟩ := f.ordinary_length hheart hfile
  have hsize : s.header.data_size = f.data_size := congrArg NetPacketHeader.data_size hheader
  have hwant : s.wanted = f.payload.length := by
    simp only [Session.wanted, hp, hsize]
    omega
  rw [hwant] at hle ⊢
  obtain ⟨htake, hdrop⟩ := take_drop_of_append hleft hle
  have hok : refused (Int32.ofNat f.payload.length) s.header.data_size = false := by
    rw [hlen, hsize, ← Bool.not_eq_true, refused_all]
    simp only [BUF_SIZE] at hmax
    omega
  have hphase : ({ s with avail := s.avail.drop f.payload.length } : Session).phase = .body := hp
  rw [htake, Session.afterRead_body hphase hok]
  refine Aligned.hand h.fault hfs hcalls hheader rfl hdrop ?_
  intro hc
  have hnil := h.isOpen hc
  rw [hleft, List.append_eq_nil_iff] at hnil
  rw [hnil.1, List.length_nil] at hlen
  omega

/-- The description of a file is read. -/
theorem Aligned.read_fileInfo (h : Aligned fs s) (hp : s.phase = .fileInfo)
    (hle : s.wanted ≤ s.avail.length) :
    Aligned fs ({ s with avail := s.avail.drop s.wanted }.afterRead (s.avail.take s.wanted)) := by
  obtain ⟨done, rest, hfs, hcalls, ha⟩ := h.split
  simp only [Ahead, hp] at ha
  obtain ⟨f, rest, rfl, hheader, hfile, hleft⟩ := ha
  obtain ⟨hpos, hlen⟩ := f.file_length hfile
  have hwant : s.wanted = BUF_SIZE := by simp only [Session.wanted, hp]
  rw [hwant] at hle ⊢
  have hphase : ({ s with avail := s.avail.drop BUF_SIZE } : Session).phase = .fileInfo := hp
  rw [Session.afterRead_fileInfo hphase]
  have hne : s.left ≠ [] := by
    intro hnil
    rw [hleft, List.append_eq_nil_iff] at hnil
    rw [hnil.1, List.length_nil] at hlen
    omega
  refine ⟨h.fault, ⟨done, f :: rest, hfs, hcalls, f, rest, rfl, hheader, hfile, ?_, ?_⟩, ?_⟩
  · exact List.length_take_of_le hle
  · show s.avail.take BUF_SIZE ++ (s.avail.drop BUF_SIZE ++ s.incoming) = _
    rw [← List.append_assoc, List.take_append_drop]
    exact hleft
  · intro hc
    exact absurd (h.isOpen hc) hne

/-- A file is read. -/
theorem Aligned.read_fileData {info : List UInt8} (h : Aligned fs s) (hp : s.phase = .fileData info)
    (ho : s.overflows = false) (hle : s.wanted ≤ s.avail.length) :
    Aligned fs ({ s with avail := s.avail.drop s.wanted }.afterRead (s.avail.take s.wanted)) := by
  obtain ⟨done, rest, hfs, hcalls, ha⟩ := h.split
  simp only [Ahead, hp] at ha
  obtain ⟨f, rest, rfl, hheader, hfile, hinfo, hleft⟩ := ha
  obtain ⟨hpos, hlen⟩ := f.file_length hfile
  have hsize : s.header.data_size = f.data_size := congrArg NetPacketHeader.data_size hheader
  -- the payload is the description and then the file
  obtain ⟨hinfo', hleft⟩ := take_drop_of_append hleft.symm (by omega)
  have hpayload : f.payload = info ++ f.payload.drop info.length := by
    conv_lhs => rw [← List.take_append_drop info.length f.payload, hinfo']
  have hfilelen : (f.payload.drop info.length).length = f.data_size.toNat := by
    rw [List.length_drop]
    omega
  have hwant : s.wanted = (f.payload.drop info.length).length := by
    simp only [Session.wanted, hp, hsize, hfilelen]
  rw [hwant] at hle ⊢
  obtain ⟨htake, hdrop⟩ := take_drop_of_append hleft.symm hle
  have hok : refused (Int32.ofNat (f.payload.drop info.length).length) s.header.data_size =
      false := by
    rw [hfilelen, hsize, ← Bool.not_eq_true, refused_all]
    simp only [Session.overflows, hp, hsize, decide_eq_false_iff_not, UInt32.toNat_add] at ho
    have hlt := f.data_size.toNat_lt
    have hone : (1 : UInt32).toNat = 1 := rfl
    omega
  have hphase :
      ({ s with avail := s.avail.drop (f.payload.drop info.length).length } : Session).phase =
      .fileData info := hp
  rw [htake, Session.afterRead_fileData hphase hok]
  refine Aligned.hand h.fault hfs hcalls hheader hpayload.symm hdrop ?_
  intro hc
  have hnil := h.isOpen hc
  rw [← hleft, List.append_eq_nil_iff] at hnil
  rw [hnil.1, List.length_nil] at hfilelen
  omega

/-- A read completes. -/
theorem Aligned.read (h : Aligned fs s) (hr : s.reading = true) (ho : s.overflows = false)
    (hle : s.wanted ≤ s.avail.length) :
    Aligned fs ({ s with avail := s.avail.drop s.wanted }.afterRead (s.avail.take s.wanted)) := by
  rcases Session.reading_iff.mp hr with hp | hp | ⟨info, hp⟩
  · exact h.read_body hp hle
  · exact h.read_fileInfo hp hle
  · exact h.read_fileData hp ho hle

/-- A session that reads has before it what it wants to read. -/
theorem Aligned.wanted_le (h : Aligned fs s) (hr : s.reading = true) :
    0 < s.wanted ∧ s.wanted ≤ s.left.length := by
  obtain ⟨done, rest, -, -, ha⟩ := h.split
  rcases Session.reading_iff.mp hr with hp | hp | ⟨info, hp⟩
  · simp only [Ahead, hp] at ha
    obtain ⟨f, rest, -, hheader, hheart, hfile, hleft⟩ := ha
    obtain ⟨hpos, hmax, hlen⟩ := f.ordinary_length hheart hfile
    have hlen' := congrArg List.length hleft
    rw [List.length_append] at hlen'
    simp only [Session.wanted, hp, hheader, Frame.header]
    omega
  · simp only [Ahead, hp] at ha
    obtain ⟨f, rest, -, -, hfile, hleft⟩ := ha
    obtain ⟨hpos, hlen⟩ := f.file_length hfile
    have hlen' := congrArg List.length hleft
    rw [List.length_append] at hlen'
    simp only [Session.wanted, hp, BUF_SIZE] at *
    omega
  · simp only [Ahead, hp] at ha
    obtain ⟨f, rest, -, hheader, hfile, hinfo, hleft⟩ := ha
    obtain ⟨hpos, hlen⟩ := f.file_length hfile
    have hlen' := congrArg List.length hleft
    rw [List.length_append, List.length_append] at hlen'
    simp only [Session.wanted, hp, hheader, Frame.header]
    omega

/-- **Every step that meets `Whole` keeps the session in step with the stream.** -/
theorem Aligned.step (h : Aligned fs s) (hG : Whole run s e) (he : session run s e = some s') :
    Aligned fs s' := by
  cases e with
  | arrive n =>
    simp only [session] at he
    split at he <;> cases he
    rename_i hn
    have hleft : (s.avail ++ s.incoming.take n) ++ s.incoming.drop n = s.avail ++ s.incoming := by
      rw [List.append_assoc, List.take_append_drop]
    exact h.of_same rfl rfl rfl rfl hleft h.isOpen
  | receive n =>
    simp only [session] at he
    split at he <;> cases he
    rename_i hn
    obtain ⟨hp, hopen, -, -, hle⟩ := hn
    have hn : n = headerSize := hG
    subst hn
    exact h.receive hp hopen hle
  | receiveError =>
    simp only [session] at he
    split at he
    · rename_i hp
      simp only [Session.receiveError, h.fault] at he
      split at he
      · split at he <;> cases he
      · rename_i hopen
        cases he
        have hnil := h.isOpen (by simpa using hopen)
        obtain ⟨done, rest, hfs, hcalls, ha⟩ := h.split
        simp only [Ahead, hp] at ha
        have hrest : rest = [] := stream_eq_nil.mp (ha.symm.trans hnil)
        exact ⟨rfl, ⟨done, rest, hfs, hcalls, hrest, hnil⟩, h.isOpen⟩
    · cases he
  | read =>
    simp only [session] at he
    split at he
    · rename_i hr
      rw [if_neg (by simp [show s.overflows = false from hG])] at he
      split at he <;> cases he
      rename_i hle
      exact h.read hr hG hle.2
    · cases he
  | readError =>
    simp only [session] at he
    split at he <;> cases he
    rename_i hc
    obtain ⟨hr, -, hc⟩ := hc
    rcases hc with ⟨hclosed, -⟩ | ⟨-, -, hfault⟩
    · have hwant := h.wanted_le hr
      rw [h.isOpen hclosed, List.length_nil] at hwant
      omega
    · rw [h.fault] at hfault
      cases hfault
  | handle x =>
    simp only [session] at he
    split at he
    · rename_i call hp
      obtain ⟨done, rest, hfs, hcalls, ha⟩ := h.split
      simp only [Ahead, hp] at ha
      split at he <;> cases he
      · exact ⟨h.fault, ⟨done, rest, hfs, hcalls, ha⟩, h.isOpen⟩
      · rename_i hrun
        simp only [Whole, hp] at hG
        have hnil := hG hrun
        have hrest : rest = [] := stream_eq_nil.mp (ha.symm.trans hnil)
        exact ⟨h.fault, ⟨done, rest, hfs, hcalls, hrest, hnil⟩, h.isOpen⟩
    · cases he
  | evict =>
    simp only [session] at he
    split at he <;> cases he
    exact h.of_same rfl rfl rfl rfl rfl fun _ => hG

/-! ### Runs -/

/-- The session and its connection have come to rest: nothing happens unless the evaluator
evicts the connection. -/
def AtRest (run : Handlers H) (s : Session) : Prop := ∀ e, e ≠ .evict → session run s e = none

/-- A session that has something left can go on. -/
theorem Aligned.not_atRest [Inhabited H] (h : Aligned fs s) (hleft : s.left ≠ []) :
    ¬ AtRest run s := by
  suffices hgo : ∃ e : Event H, e ≠ .evict ∧ (session run s e).isSome = true by
    intro hrest
    obtain ⟨e, hne, he⟩ := hgo
    rw [hrest e hne] at he
    cases he
  have hopen : s.isOpen = true := by
    by_contra hc
    exact hleft (h.isOpen (by simpa using hc))
  by_cases hin : s.incoming = []
  · have havail : s.avail ≠ [] := by simpa [Session.left, hin] using hleft
    by_cases hr : s.reading = true
    · obtain ⟨-, hle⟩ := h.wanted_le hr
      rw [Session.left, hin, List.append_nil] at hle
      refine ⟨.read, by simp, ?_⟩
      simp only [session, hr, if_true]
      split
      · rfl
      · simp [hopen, hle]
    · obtain ⟨done, rest, -, -, ha⟩ := h.split
      cases hp : s.phase with
      | receiving =>
        have hpos : 1 ≤ s.avail.length := List.length_pos_iff.mpr havail
        exact ⟨.receive 1, by simp, by simp [session, hp, hopen, headerSize, hpos]⟩
      | handling call =>
        refine ⟨.handle default, by simp, ?_⟩
        simp only [session, hp]
        split <;> rfl
      | ended | escaped =>
        simp only [Ahead, hp] at ha
        exact absurd ha.2 hleft
      | overrun => simp only [Ahead, hp] at ha
      | body | fileInfo | fileData info => exact absurd (by simp [Session.reading, hp]) hr
  · refine ⟨.arrive 1, by simp, ?_⟩
    have hpos : 1 ≤ s.incoming.length := List.length_pos_iff.mpr hin
    simp [session, hpos]

/-- A session with nothing left has handed everything over. -/
theorem Aligned.calls_eq (h : Aligned fs s) (hleft : s.left = []) :
    s.calls = fs.map Frame.call := by
  obtain ⟨done, rest, rfl, hcalls, ha⟩ := h.split
  have hrest : rest = [] := by
    by_cases hr : s.reading = true
    · have hwant := h.wanted_le hr
      rw [hleft, List.length_nil] at hwant
      omega
    · unfold Session.reading at hr
      unfold Ahead at ha
      split at ha
      · exact stream_eq_nil.mp (ha.symm.trans hleft)
      · exact stream_eq_nil.mp (ha.symm.trans hleft)
      · simp_all
      · simp_all
      · simp_all
      · exact ha.1
      · exact ha.1
      · exact absurd ha id
  rw [hcalls, hrest, List.append_nil]

/-- **Whatever the segments, the handlers get the requests.** In a run whose steps meet
`Whole`, what has been handed over is at every moment the first of the requests sent, and
once the session is at rest it is all of them. -/
theorem calls_of_run [Inhabited H] (run : Handlers H) (raw : RawHeader) (fs : List Frame)
    {events : List (Event H)}
    (hrun : (session run).exec (Session.start raw (stream fs) none) events = some s)
    (hG : (session run).Guarded (Whole run) (Session.start raw (stream fs) none) events) :
    s.calls <+: fs.map Frame.call ∧ (AtRest run s → s.calls = fs.map Frame.call) := by
  have h : Aligned fs s :=
    (session run).exec_inv_guarded (I := Aligned fs) (fun t e t' ht hG he => ht.step hG he)
      (aligned_start raw fs) hG hrun
  constructor
  · obtain ⟨done, rest, hfs, hcalls, -⟩ := h.split
    exact ⟨rest.map Frame.call, by rw [hcalls, hfs, List.map_append]⟩
  · intro hrest
    by_cases hleft : s.left = []
    · exact h.calls_eq hleft
    · exact absurd hrest (h.not_atRest hleft)

/-- Handlers that return. -/
def quiet : Handlers Unit := fun _ _ entry _ => some entry

/-- A header of zeros. -/
def blank : RawHeader := ⟨List.replicate headerSize 0, by decide⟩

/-- A login whose packet has one byte. -/
def login : Frame := ⟨.Login, 1, [97], by decide⟩

/-- **A header cut in two.** Its first half is taken for a login with an empty packet, which
is refused, and its second half with the packet for a registration that never comes. -/
theorem calls_of_cut_header : ¬ ∀ (raw : RawHeader) (fs : List Frame) (events : List (Event Unit))
    (s : Session), (session quiet).exec (Session.start raw (stream fs) none) events = some s →
    AtRest quiet s → s.calls = fs.map Frame.call := by
  intro h
  obtain ⟨s, hrun, hin, havail, hphase, hfault, hopen, hwant, hover, hcalls⟩ : ∃ s,
      (session quiet).exec (Session.start blank (stream [login]) none)
        [.arrive 4, .receive 4, .read, .arrive 5, .receive 5] = some s ∧
      s.incoming = [] ∧ s.avail = [] ∧ s.phase = .body ∧ s.fault = none ∧ s.isOpen = true ∧
      s.wanted = 97 ∧ s.overflows = false ∧ s.calls = [] :=
    ⟨_, rfl, rfl, rfl, rfl, rfl, rfl, rfl, rfl, rfl⟩
  have hrest : AtRest quiet s := by
    intro e hne
    cases e with
    | arrive n =>
      simp [session, hin]
      omega
    | receive n => simp [session, hphase]
    | receiveError => simp [session, hphase]
    | read => simp [session, Session.reading, hphase, hover, havail, hwant]
    | readError => simp [session, hopen, hfault]
    | handle x => simp [session, hphase]
    | evict => exact absurd rfl hne
  have heq := h blank [login] _ s hrun hrest
  rw [hcalls] at heq
  cases heq

/-- A login and a heartbeat, in pieces that cut the packet but no header. -/
theorem calls_of_run_pieces : ∃ s : Session,
    (session quiet).exec (Session.start blank (stream [login, ⟨.Heart, 0, [], by decide⟩]) none)
      [.arrive 8, .receive 8, .arrive 1, .read, .handle (), .arrive 5, .arrive 3, .receive 8,
      .handle ()] =
      some s ∧ AtRest quiet s ∧
    s.calls = [login, ⟨.Heart, 0, [], by decide⟩].map Frame.call := by
  obtain ⟨s, hrun, hG, hin, havail, hphase, hfault, hopen⟩ : ∃ s,
      (session quiet).exec (Session.start blank (stream [login, ⟨.Heart, 0, [], by decide⟩]) none)
        [.arrive 8, .receive 8, .arrive 1, .read, .handle (), .arrive 5, .arrive 3, .receive 8,
          .handle ()] = some s ∧
      (session quiet).Guarded (Whole quiet)
        (Session.start blank (stream [login, ⟨.Heart, 0, [], by decide⟩]) none)
        [.arrive 8, .receive 8, .arrive 1, .read, .handle (), .arrive 5, .arrive 3, .receive 8,
          .handle ()] ∧
      s.incoming = [] ∧ s.avail = [] ∧ s.phase = .receiving ∧ s.fault = none ∧ s.isOpen = true := by
    exact ⟨_, rfl, by decide +kernel, rfl, rfl, rfl, rfl, rfl⟩
  have hrest : AtRest quiet s := by
    intro e hne
    cases e with
    | arrive n =>
      simp [session, hin]
      omega
    | receive n => simp [session, havail]; omega
    | receiveError => simp [session, Session.receiveError, hphase, hopen, hfault]
    | read => simp [session, Session.reading, hphase]
    | readError => simp [session, Session.reading, hphase]
    | handle x => simp [session, hphase]
    | evict => exact absurd rfl hne
  exact ⟨s, hrun, hrest, (calls_of_run quiet blank _ hrun hG).2 hrest⟩

end PickUpLight.Boost
