import PickUpLight.Epoll.MyServer

/-!
# Framing on the epoll server

What `Boost.Framing` does for a session, for a connection of the epoll server: the tasks of
a connection should dispatch the requests that were sent, whole and in order, whenever their
bytes arrive and whenever epoll wakes a task. Here a header may come in pieces, as long as
the next piece is there when `my_recv` asks for it: at the first `EAGAIN` the task gives up,
and what it has read of the header is lost with it (`dispatched_of_cut_header`). Files from
2^31 bytes on are lost as well: their length is negative as an `int`, `my_recv` reads
nothing, and the file is taken for requests.

`dispatched_of_run` is what holds in every state of a run that meets `Whole`.
-/

namespace PickUpLight.Epoll

open PickUpLight.Theory PickUpLight.Wire

variable {H : Type} {run : Handlers H} {s s' : Conn} {e : Event H} {f : Frame} {fs : List Frame}

/-- The bytes that have not been read. -/
def Conn.left (s : Conn) : List UInt8 := s.avail ++ s.incoming

/-- A step is one after which the connection is still in step with the stream: no task gives
up in the middle of a header, the file to be read is shorter than 2^31 bytes, and no handler
ends the process before everything has been read. -/
def Whole (run : Handlers H) (s : Conn) : Event H → Prop
  | .recvAgain =>
    match s.phase with
    | .receiving _ t => t.done = []
    | _ => True
  | .recv _ =>
    match s.phase with
    | .receiving .fileInfo _ => s.pheader.data_size.toNat < 2 ^ 31
    | _ => True
  | .handle h =>
    match s.phase with
    | .handling call => run call s.entry h = none → s.left = []
    | _ => True
  | _ => True

instance (run : Handlers H) (s : Conn) (e : Event H) : Decidable (Whole run s e) := by
  unfold Whole
  cases e with
  | recvAgain =>
    dsimp only
    split <;> infer_instance
  | recv n =>
    dsimp only
    split <;> infer_instance
  | handle h =>
    dsimp only
    split <;> infer_instance
  | _ => infer_instance

/-- What is ahead of a connection, where `rest` is what has not been handed over. -/
def Ahead (s : Conn) (rest : List Frame) : Prop :=
  match s.phase with
  | .watched | .handling _ => s.left = stream rest
  | .receiving .header t =>
    t.length = headerSize ∧ t.done.length < headerSize ∧ t.done ++ s.left = stream rest
  | .receiving .body t => ∃ f fs, rest = f :: fs ∧ s.pheader = f.header ∧ f.purpose ≠ .Heart ∧
      f.purpose ≠ .SendFile ∧ t.length = f.data_size.toNat ∧ t.done.length < f.data_size.toNat ∧
      t.done ++ s.left = f.payload ++ stream fs
  | .receiving .fileInfo t => ∃ f fs, rest = f :: fs ∧ s.pheader = f.header ∧
    f.purpose = .SendFile ∧
      t.length = BUF_SIZE ∧ t.done.length < BUF_SIZE ∧ t.done ++ s.left = f.payload ++ stream fs
  | .receiving (.fileData info) t => ∃ f fs, rest = f :: fs ∧ s.pheader = f.header ∧
      f.purpose = .SendFile ∧ f.data_size.toNat < 2 ^ 31 ∧ info.length = BUF_SIZE ∧
      t.length = f.data_size.toNat ∧ t.done.length < f.data_size.toNat ∧
      info ++ (t.done ++ s.left) = f.payload ++ stream fs
  | .escaped => rest = [] ∧ s.left = []
  | .closed | .dropped | .smashed => False

/-- **The invariant**: some requests have been handed over, the others are ahead. -/
structure Aligned (fs : List Frame) (s : Conn) : Prop where
  /-- The client goes on: it has not closed the connection. -/
  fault : s.fault = none
  /-- What has been handed over, and what is ahead. -/
  split : ∃ done rest, fs = done ++ rest ∧ s.calls = done.map Frame.call ∧ Ahead s rest

theorem aligned_start (ip : String) (fs : List Frame) :
    Aligned fs (Conn.start ip (stream fs) none) where
  fault := rfl
  split := ⟨[], fs, rfl, rfl, rfl⟩

/-! ### Lengths -/

theorem asInt_of_lt {n : UInt32} (h : n.toNat < 2 ^ 31) : asInt n = n.toNat := by
  have hn : n = UInt32.ofNat n.toNat := by simp
  rw [asInt, hn, UInt32.toInt32_ofNat', Int32.toInt_ofNat_of_lt (by simpa using h)]
  simp

/-- The length wanted is accepted when it fits an `int`. -/
theorem accepted_of_lt {n : UInt32} (hpos : 1 ≤ n.toNat) (h : n.toNat < 2 ^ 31) :
    refused (Int32.ofInt n.toNat) n = false := by
  rw [Int32.ofInt_eq_ofNat, ← Bool.not_eq_true, refused_all]
  omega

/-! ### Steps of the task -/

/-- The task goes back to the head of its loop. -/
theorem Aligned.nextHeader {done rest : List Frame} (hfault : s.fault = none)
    (hfs : fs = done ++ rest) (hcalls : s.calls = done.map Frame.call)
    (hleft : s.left = stream rest) :
    Aligned fs s.nextHeader where
  fault := hfault
  split := ⟨done, rest, hfs, hcalls, rfl, by decide, hleft⟩

/-- A request is handed over. -/
theorem Aligned.hand {done rest : List Frame} {payload : List UInt8} (hfault : s.fault = none)
    (hfs : fs = done ++ f :: rest) (hcalls : s.calls = done.map Frame.call)
    (hheader : s.pheader = f.header) (hpayload : payload = f.payload)
    (hleft : s.left = stream rest) :
    Aligned fs (s.hand payload) where
  fault := hfault
  split := by
    refine ⟨done ++ [f], rest, by simp [hfs], ?_, hleft⟩
    show s.calls ++ [{ header := s.pheader, payload := payload }] = _
    rw [hcalls, hheader, hpayload, List.map_append]
    rfl

/-- The loop for the bytes to hand over begins. -/
theorem startPayload_eq {front : List UInt8} {dest : Dest} (hpos : 1 ≤ s.pheader.data_size.toNat)
    (hlt : s.pheader.data_size.toNat < 2 ^ 31) :
    s.startPayload dest front =
      { s with phase := .receiving dest { length := s.pheader.data_size.toNat, done := [] } } := by
  have hleft : ({ length := asInt s.pheader.data_size, done := [] } : Transfer).bytes_left > 0 := by
    simp only [Transfer.bytes_left, asInt_of_lt hlt, List.length_nil]
    omega
  simp only [Conn.startPayload, Transfer.loop, hleft, if_true]
  rw [asInt_of_lt hlt]

/-- A whole header has been received. -/
theorem Aligned.request {done rest : List Frame} (hfault : s.fault = none)
    (hfs : fs = done ++ f :: rest) (hcalls : s.calls = done.map Frame.call)
    (hheader : s.pheader = f.header)
    (hleft : s.left = f.payload ++ stream rest) : Aligned fs s.processSingleRequest := by
  have hpurpose : Purpose.ofCode s.pheader.purpose = some f.purpose := by
    rw [hheader]
    exact Purpose.ofCode_code f.purpose
  have hsize : s.pheader.data_size = f.data_size := congrArg NetPacketHeader.data_size hheader
  unfold Conn.processSingleRequest
  rw [hpurpose]
  by_cases hheart : f.purpose = .Heart
  · rw [hheart]
    have hnil := f.heart_payload hheart
    refine Aligned.hand hfault hfs hcalls hheader hnil.symm ?_
    rw [hleft, hnil, List.nil_append]
  · by_cases hfile : f.purpose = .SendFile
    · rw [hfile]
      exact ⟨hfault,
        ⟨done, f :: rest, hfs, hcalls, f, rest, rfl, hheader, hfile, rfl, by decide, hleft⟩⟩
    · obtain ⟨hpos, hmax, hlen⟩ := f.ordinary_length hheart hfile
      have hbody : Aligned fs (s.startPayload .body []) := by
        simp only [BUF_SIZE] at hmax
        have hpos' : 1 ≤ s.pheader.data_size.toNat := by rwa [hsize]
        have hlt : s.pheader.data_size.toNat < 2 ^ 31 := by
          rw [hsize]
          omega
        rw [startPayload_eq hpos' hlt, hsize]
        exact ⟨hfault,
          ⟨done, f :: rest, hfs, hcalls, f, rest, rfl, hheader, hheart, hfile, rfl, hpos, hleft⟩⟩
      cases hpur : f.purpose with
      | Heart => exact absurd hpur hheart
      | SendFile => exact absurd hpur hfile
      | _ => exact hbody

/-- A `recv` keeps together what has been read and what is left. -/
theorem append_left_recv {t : Transfer} (n : ℕ) :
    (t.done ++ s.avail.take n) ++ ({ s with avail := s.avail.drop n } : Conn).left =
      t.done ++ s.left := by
  show (t.done ++ s.avail.take n) ++ (s.avail.drop n ++ s.incoming) =
    t.done ++ (s.avail ++ s.incoming)
  rw [List.append_assoc, ← List.append_assoc (s.avail.take n), List.take_append_drop]

/-- A `recv` of a header. -/
theorem Aligned.recv_header {t : Transfer} {n : ℕ} (h : Aligned fs s)
    (hp : s.phase = .receiving .header t) (hn : n ≤ t.bytes_left) (hle : n ≤ s.avail.length) :
    Aligned fs
      ({ s with avail := s.avail.drop n }.turn .header (t.after (.bytes (s.avail.take n)))) := by
  obtain ⟨done, rest, hfs, hcalls, ha⟩ := h.split
  simp only [Ahead, hp] at ha
  obtain ⟨hlen, hlt, hleft⟩ := ha
  have hdata : ((s.avail.take n).length : ℤ) ≤ t.bytes_left := by
    rw [List.length_take_of_le hle]
    exact hn
  have hleft' := (append_left_recv n).trans hleft
  rcases Transfer.after_bytes hdata with ⟨hmore, hafter⟩ | ⟨hlast, hafter⟩
  · rw [hafter, Conn.turn, if_neg (by simp)]
    rw [hlen] at hmore
    exact ⟨h.fault, ⟨done, rest, hfs, hcalls, hlen, by exact_mod_cast hmore, hleft'⟩⟩
  · rw [hlen] at hlast hafter
    rw [hafter, Conn.turn, if_neg (by simp)]
    cases rest with
    | nil =>
      have hnil := congrArg List.length hleft'
      rw [List.length_append, stream_nil, List.length_nil] at hnil
      simp only [headerSize] at hlast
      omega
    | cons f rest =>
      rw [stream_cons] at hleft'
      obtain ⟨hbytes, hrest⟩ := List.append_inj hleft' (by
        rw [NetPacketHeader.length_bytes]
        omega)
      have hret : ((headerSize : ℕ) : ℤ) > 0 := by decide
      simp only [Conn.afterRecv, Conn.afterHeader, hret, if_true, ne_eq, not_true_eq_false,
        if_false]
      exact Aligned.request h.fault hfs hcalls (by rw [hbytes, NetPacketHeader.ofBytes_bytes]) hrest

/-- A `recv` of an ordinary packet. -/
theorem Aligned.recv_body {t : Transfer} {n : ℕ} (h : Aligned fs s)
    (hp : s.phase = .receiving .body t) (hn : n ≤ t.bytes_left) (hle : n ≤ s.avail.length) :
    Aligned fs
      ({ s with avail := s.avail.drop n }.turn .body (t.after (.bytes (s.avail.take n)))) := by
  obtain ⟨done, rest, hfs, hcalls, ha⟩ := h.split
  simp only [Ahead, hp] at ha
  obtain ⟨f, rest, rfl, hheader, hheart, hfile, hlen, hlt, hleft⟩ := ha
  obtain ⟨hpos, hmax, hpayload⟩ := f.ordinary_length hheart hfile
  have hsize : s.pheader.data_size = f.data_size := congrArg NetPacketHeader.data_size hheader
  have hdata : ((s.avail.take n).length : ℤ) ≤ t.bytes_left := by
    rw [List.length_take_of_le hle]
    exact hn
  have hleft' := (append_left_recv n).trans hleft
  rcases Transfer.after_bytes hdata with ⟨hmore, hafter⟩ | ⟨hlast, hafter⟩
  · rw [hlen] at hmore
    have hsmall : ¬ (t.done ++ s.avail.take n).length > BUF_SIZE := by omega
    rw [hafter, Conn.turn, if_neg (fun hc => hsmall hc.2)]
    exact ⟨h.fault, ⟨done, f :: rest, hfs, hcalls, f, rest, rfl, hheader, hheart, hfile, hlen,
      by exact_mod_cast hmore, hleft'⟩⟩
  · rw [hlen] at hlast hafter
    have hsmall : ¬ (t.done ++ s.avail.take n).length > BUF_SIZE := by omega
    rw [hafter, Conn.turn, if_neg (fun hc => hsmall hc.2)]
    obtain ⟨hbytes, hrest⟩ := List.append_inj hleft' (by omega)
    have hok : refused (Int32.ofInt f.data_size.toNat) s.pheader.data_size = false := by
      simp only [BUF_SIZE] at hmax
      rw [hsize]
      exact accepted_of_lt hpos (by omega)
    simp only [Conn.afterRecv, Conn.afterPayload, hok, Bool.false_eq_true, if_false]
    exact Aligned.hand h.fault hfs hcalls hheader hbytes hrest

/-- A `recv` of the description of a file. -/
theorem Aligned.recv_fileInfo {t : Transfer} {n : ℕ} (h : Aligned fs s)
    (hp : s.phase = .receiving .fileInfo t) (hn : n ≤ t.bytes_left) (hle : n ≤ s.avail.length)
    (hlt : s.pheader.data_size.toNat < 2 ^ 31) :
    Aligned fs
      ({ s with avail := s.avail.drop n }.turn .fileInfo (t.after (.bytes (s.avail.take n)))) := by
  obtain ⟨done, rest, hfs, hcalls, ha⟩ := h.split
  simp only [Ahead, hp] at ha
  obtain ⟨f, rest, rfl, hheader, hfile, hlen, -, hleft⟩ := ha
  obtain ⟨hpos, hpayload⟩ := f.file_length hfile
  have hsize : s.pheader.data_size = f.data_size := congrArg NetPacketHeader.data_size hheader
  have hdata : ((s.avail.take n).length : ℤ) ≤ t.bytes_left := by
    rw [List.length_take_of_le hle]
    exact hn
  have hleft' := (append_left_recv n).trans hleft
  rcases Transfer.after_bytes hdata with ⟨hmore, hafter⟩ | ⟨hlast, hafter⟩
  · rw [hafter, Conn.turn, if_neg (by simp)]
    rw [hlen] at hmore
    exact ⟨h.fault,
      ⟨done, f :: rest, hfs, hcalls, f, rest, rfl, hheader, hfile, hlen, by exact_mod_cast hmore,
      hleft'⟩⟩
  · rw [hlen] at hlast hafter
    rw [hafter, Conn.turn, if_neg (by simp)]
    have hret : ¬ ((BUF_SIZE : ℤ) = -1 ∨ (BUF_SIZE : ℤ) = 0 ∨ (BUF_SIZE : ℤ) ≠ BUF_SIZE) := by
      decide
    simp only [Conn.afterRecv, hret, if_false]
    have hpos' : 1 ≤ s.pheader.data_size.toNat := by rwa [hsize]
    rw [@startPayload_eq { s with avail := s.avail.drop n } _ _ hpos' hlt]
    exact ⟨h.fault, ⟨done, f :: rest, hfs, hcalls, f, rest, rfl, hheader, hfile, by rwa [← hsize],
      by exact_mod_cast hlast, by rw [hsize], hpos, hleft'⟩⟩

/-- A `recv` of a file. -/
theorem Aligned.recv_fileData {info : List UInt8} {t : Transfer} {n : ℕ} (h : Aligned fs s)
    (hp : s.phase = .receiving (.fileData info) t) (hn : n ≤ t.bytes_left)
    (hle : n ≤ s.avail.length) :
    Aligned fs
      ({ s with avail := s.avail.drop n }.turn (.fileData info)
      (t.after (.bytes (s.avail.take n)))) := by
  obtain ⟨done, rest, hfs, hcalls, ha⟩ := h.split
  simp only [Ahead, hp] at ha
  obtain ⟨f, rest, rfl, hheader, hfile, hsmall, hinfo, hlen, hlt, hleft⟩ := ha
  obtain ⟨hpos, hpayload⟩ := f.file_length hfile
  have hsize : s.pheader.data_size = f.data_size := congrArg NetPacketHeader.data_size hheader
  have hdata : ((s.avail.take n).length : ℤ) ≤ t.bytes_left := by
    rw [List.length_take_of_le hle]
    exact hn
  have hleft' := hleft
  rw [← append_left_recv n] at hleft'
  rcases Transfer.after_bytes hdata with ⟨hmore, hafter⟩ | ⟨hlast, hafter⟩
  · rw [hafter, Conn.turn, if_neg (by simp)]
    rw [hlen] at hmore
    exact ⟨h.fault, ⟨done, f :: rest, hfs, hcalls, f, rest, rfl, hheader, hfile, hsmall, hinfo,
      hlen, by exact_mod_cast hmore, hleft'⟩⟩
  · rw [hlen] at hlast hafter
    rw [hafter, Conn.turn, if_neg (by simp)]
    rw [← List.append_assoc] at hleft'
    obtain ⟨hbytes, hrest⟩ := List.append_inj hleft' (by
      rw [List.length_append]
      omega)
    have hok : refused (Int32.ofInt f.data_size.toNat) s.pheader.data_size = false := by
      rw [hsize]
      exact accepted_of_lt hpos hsmall
    simp only [Conn.afterRecv, Conn.afterPayload, hok, Bool.false_eq_true, if_false]
    exact Aligned.hand h.fault hfs hcalls hheader hbytes hrest

/-- A task that is in a `my_recv` has something left to ask for. -/
theorem Aligned.done_lt {dest : Dest} {t : Transfer} (h : Aligned fs s)
    (hp : s.phase = .receiving dest t) :
    (t.done.length : ℤ) < t.length ∧ (dest = .body → t.done.length ≤ BUF_SIZE) := by
  obtain ⟨done, rest, -, -, ha⟩ := h.split
  cases dest with
  | header =>
    simp only [Ahead, hp] at ha
    exact ⟨by rw [ha.1]; exact_mod_cast ha.2.1, by simp⟩
  | body =>
    simp only [Ahead, hp] at ha
    obtain ⟨f, rest, -, -, hheart, hfile, hlen, hlt, -⟩ := ha
    obtain ⟨hpos, hmax, -⟩ := f.ordinary_length hheart hfile
    exact ⟨by rw [hlen]; exact_mod_cast hlt, fun _ => by omega⟩
  | fileInfo =>
    simp only [Ahead, hp] at ha
    obtain ⟨f, rest, -, -, -, hlen, hlt, -⟩ := ha
    exact ⟨by rw [hlen]; exact_mod_cast hlt, by simp⟩
  | fileData info =>
    simp only [Ahead, hp] at ha
    obtain ⟨f, rest, -, -, -, -, -, hlen, hlt, -⟩ := ha
    exact ⟨by rw [hlen]; exact_mod_cast hlt, by simp⟩

/-- The client goes on, so no `recv` finds anything else. -/
theorem Aligned.not_atFault (h : Aligned fs s) (fault : Fault) : ¬ s.atFault fault := by
  rintro ⟨-, -, hf⟩
  rw [h.fault] at hf
  cases hf

/-- **Every step that meets `Whole` keeps the connection in step with the stream.** -/
theorem Aligned.step (h : Aligned fs s) (hG : Whole run s e) (he : conn run s e = some s') :
    Aligned fs s' := by
  cases e with
  | arrive n =>
    simp only [conn] at he
    split at he <;> cases he
    obtain ⟨done, rest, hfs, hcalls, ha⟩ := h.split
    have hleft : ({ s with
        avail := s.avail ++ s.incoming.take n
        incoming := s.incoming.drop n } : Conn).left = s.left := by
      show (s.avail ++ s.incoming.take n) ++ s.incoming.drop n = s.avail ++ s.incoming
      rw [List.append_assoc, List.take_append_drop]
    refine ⟨h.fault, done, rest, hfs, hcalls, ?_⟩
    unfold Ahead at ha ⊢
    rw [hleft]
    exact ha
  | wake =>
    simp only [conn] at he
    split at he <;> cases he
    rename_i hc
    obtain ⟨done, rest, hfs, hcalls, ha⟩ := h.split
    simp only [Ahead, hc.1] at ha
    exact Aligned.nextHeader h.fault hfs hcalls ha
  | recv n =>
    simp only [conn] at he
    split at he
    · rename_i dest t hp
      split at he <;> cases he
      rename_i hc
      obtain ⟨-, hn, hle⟩ := hc
      cases dest with
      | header => exact h.recv_header hp hn hle
      | body => exact h.recv_body hp hn hle
      | fileInfo =>
        simp only [Whole, hp] at hG
        exact h.recv_fileInfo hp hn hle hG
      | fileData info => exact h.recv_fileData hp hn hle
    · cases he
  | recvEof =>
    simp only [conn] at he
    split at he
    · rw [if_neg (by simp [h.not_atFault])] at he
      cases he
    · cases he
  | recvInterrupted =>
    simp only [conn] at he
    split at he <;> cases he
    rename_i dest t hp
    obtain ⟨hlt, hbody⟩ := h.done_lt hp
    rw [Transfer.after_interrupted hlt, Conn.turn, if_neg]
    · have hsame : ({ s with phase := .receiving dest t } : Conn) = s := by rw [← hp]
      rw [hsame]
      exact h
    · rintro ⟨hd, hlong⟩
      have := hbody hd
      omega
  | recvAgain =>
    simp only [conn] at he
    split at he
    · rename_i t hp
      split at he <;> cases he
      obtain ⟨done, rest, hfs, hcalls, ha⟩ := h.split
      simp only [Ahead, hp] at ha
      simp only [Whole, hp] at hG
      obtain ⟨-, -, hleft⟩ := ha
      rw [hG, List.nil_append] at hleft
      exact ⟨h.fault, ⟨done, rest, hfs, hcalls, hleft⟩⟩
    · cases he
  | recvError =>
    simp only [conn] at he
    split at he
    · rw [if_neg (h.not_atFault .error)] at he
      cases he
    · cases he
  | handle x =>
    simp only [conn] at he
    split at he
    · rename_i call hp
      obtain ⟨done, rest, hfs, hcalls, ha⟩ := h.split
      simp only [Ahead, hp] at ha
      split at he <;> cases he
      · exact Aligned.nextHeader h.fault hfs hcalls ha
      · rename_i hrun
        simp only [Whole, hp] at hG
        have hnil := hG hrun
        have hrest : rest = [] := stream_eq_nil.mp (ha.symm.trans hnil)
        exact ⟨h.fault, ⟨done, rest, hfs, hcalls, hrest, hnil⟩⟩
    · cases he

/-! ### Runs -/

/-- The connection has come to rest: nothing happens but interruptions. -/
def AtRest (run : Handlers H) (s : Conn) : Prop := ∀ e, e ≠ .recvInterrupted → conn run s e = none

/-- A connection that has something left can go on. -/
theorem Aligned.not_atRest [Inhabited H] (h : Aligned fs s) (hleft : s.left ≠ []) :
    ¬ AtRest run s := by
  suffices hgo : ∃ e : Event H, e ≠ .recvInterrupted ∧ (conn run s e).isSome = true by
    intro hrest
    obtain ⟨e, hne, he⟩ := hgo
    rw [hrest e hne] at he
    cases he
  by_cases havail : s.avail = []
  · have hin : s.incoming ≠ [] := by simpa [Conn.left, havail] using hleft
    have hpos : 1 ≤ s.incoming.length := List.length_pos_iff.mpr hin
    exact ⟨.arrive 1, by simp, by simp [conn, hpos]⟩
  · have hpos : 1 ≤ s.avail.length := List.length_pos_iff.mpr havail
    obtain ⟨done, rest, -, -, ha⟩ := h.split
    cases hp : s.phase with
    | watched => exact ⟨.wake, by simp, by simp [conn, hp, havail]⟩
    | receiving dest t =>
      obtain ⟨hlt, -⟩ := h.done_lt hp
      have hwant : ((1 : ℕ) : ℤ) ≤ t.bytes_left := by
        simp only [Transfer.bytes_left]
        omega
      refine ⟨.recv 1, by simp, ?_⟩
      simp only [conn, hp]
      rw [if_pos ⟨Nat.one_pos, hwant, hpos⟩]
      rfl
    | handling call =>
      refine ⟨.handle default, by simp, ?_⟩
      simp only [conn, hp]
      split <;> rfl
    | escaped =>
      simp only [Ahead, hp] at ha
      exact absurd ha.2 hleft
    | closed | dropped | smashed => simp only [Ahead, hp] at ha

/-- A connection with nothing left has handed everything over: no request that is ahead of
its task is short of bytes. -/
theorem Aligned.calls_eq (h : Aligned fs s) (hleft : s.left = []) :
    s.calls = fs.map Frame.call := by
  obtain ⟨done, rest, rfl, hcalls, ha⟩ := h.split
  have hnil : rest = [] := by
    cases hp : s.phase with
    | watched | handling call =>
      simp only [Ahead, hp] at ha
      exact stream_eq_nil.mp (ha.symm.trans hleft)
    | receiving dest t =>
      cases dest with
      | header =>
        simp only [Ahead, hp] at ha
        obtain ⟨-, hlt, ha⟩ := ha
        cases rest with
        | nil => rfl
        | cons f rest =>
          have hlen := congrArg List.length ha
          simp only [hleft, stream_cons, List.append_nil, List.length_append,
            NetPacketHeader.length_bytes] at hlen
          omega
      | body =>
        simp only [Ahead, hp] at ha
        obtain ⟨f, rest, -, -, hheart, hfile, -, hlt, ha⟩ := ha
        obtain ⟨-, -, hpayload⟩ := f.ordinary_length hheart hfile
        have hlen := congrArg List.length ha
        simp only [hleft, List.append_nil, List.length_append] at hlen
        omega
      | fileInfo =>
        simp only [Ahead, hp] at ha
        obtain ⟨f, rest, -, -, hfile, -, hlt, ha⟩ := ha
        obtain ⟨-, hpayload⟩ := f.file_length hfile
        have hlen := congrArg List.length ha
        simp only [hleft, List.append_nil, List.length_append] at hlen
        omega
      | fileData info =>
        simp only [Ahead, hp] at ha
        obtain ⟨f, rest, -, -, hfile, -, hinfo, -, hlt, ha⟩ := ha
        obtain ⟨-, hpayload⟩ := f.file_length hfile
        have hlen := congrArg List.length ha
        simp only [hleft, List.append_nil, List.length_append] at hlen
        omega
    | escaped =>
      simp only [Ahead, hp] at ha
      exact ha.1
    | closed | dropped | smashed => simp only [Ahead, hp] at ha
  rw [hcalls, hnil, List.append_nil]

/-- **Whenever the bytes come, the handlers get the requests.** In a run whose steps meet
`Whole`, what the tasks have dispatched is at every moment the first of the requests sent, and
once the connection is at rest it is all of them, and no byte is left. -/
theorem dispatched_of_run [Inhabited H] (run : Handlers H) (ip : String) (fs : List Frame)
    {events : List (Event H)}
    (hrun : (conn run).exec (Conn.start ip (stream fs) none) events = some s)
    (hG : (conn run).Guarded (Whole run) (Conn.start ip (stream fs) none) events) :
    s.calls <+: fs.map Frame.call ∧
      (AtRest run s → s.calls = fs.map Frame.call ∧ s.left = []) := by
  have h : Aligned fs s :=
    (conn run).exec_inv_guarded (I := Aligned fs) (fun t e t' ht hG he => ht.step hG he)
      (aligned_start ip fs) hG hrun
  constructor
  · obtain ⟨done, rest, hfs, hcalls, -⟩ := h.split
    exact ⟨rest.map Frame.call, by rw [hcalls, hfs, List.map_append]⟩
  · intro hrest
    by_cases hleft : s.left = []
    · exact ⟨h.calls_eq hleft, hleft⟩
    · exact absurd hrest (h.not_atRest hleft)

/-- Handlers that return. -/
def quiet : Handlers Unit := fun _ entry _ => some entry

theorem announces_login : Announces .Login 1 1 := by decide

/-- A login whose packet has one byte. -/
def login : Frame := ⟨.Login, 1, [97], announces_login⟩

/-- A heartbeat. -/
def heart : Frame := ⟨.Heart, 0, [], by decide⟩

/-- A connection epoll watches, from which nothing more comes, is at rest. -/
theorem atRest_of_watched (hphase : s.phase = .watched) (hin : s.incoming = [])
    (havail : s.avail = []) (hfault : s.fault = none) : AtRest run s := by
  intro e hne
  cases e with
  | arrive n =>
    simp [conn, hin]
    omega
  | wake => simp [conn, Conn.atFault, havail, hfault]
  | recvInterrupted => exact absurd rfl hne
  | _ => simp [conn, hphase]

/-- **A header cut in two.** The first task reads half of the header, finds no more and gives
up; the second takes the other half, and the packet, for the beginning of a header, and
gives up as well. -/
theorem dispatched_of_cut_header : ¬ ∀ (fs : List Frame) (events : List (Event Unit)) (s : Conn),
    (conn quiet).exec (Conn.start "" (stream fs) none) events = some s →
    AtRest quiet s → s.calls = fs.map Frame.call := by
  intro h
  have hrun : (conn quiet).exec (Conn.start "" (stream [login]) none)
      [.arrive 4, .wake, .recv 4, .recvAgain, .arrive 5, .wake, .recv 5, .recvAgain] =
      some (Conn.start "" [] none) := by
    decide +kernel
  have heq := h [login] _ _ hrun (atRest_of_watched rfl rfl rfl rfl)
  cases heq

/-- A login and a heartbeat: the packet comes late and in pieces, the second header right
behind it, and a second task finds nothing. -/
theorem dispatched_of_run_pieces : ∃ s : Conn,
    (conn quiet).exec (Conn.start "" (stream [login, heart]) none)
      [.arrive 8, .wake, .recv 3, .recv 5, .recvInterrupted, .arrive 1, .recv 1, .handle (),
      .recvAgain,
        .arrive 8, .wake, .recv 8, .handle (), .recvAgain] = some s ∧ AtRest quiet s ∧
    s.calls = [login, heart].map Frame.call := by
  have hG : (conn quiet).Guarded (Whole quiet) (Conn.start "" (stream [login, heart]) none)
      [.arrive 8, .wake, .recv 3, .recv 5, .recvInterrupted, .arrive 1, .recv 1, .handle (),
        .recvAgain, .arrive 8, .wake, .recv 8, .handle (), .recvAgain] := by
    decide +kernel
  have hrun : (conn quiet).exec (Conn.start "" (stream [login, heart]) none)
      [.arrive 8, .wake, .recv 3, .recv 5, .recvInterrupted, .arrive 1, .recv 1, .handle (),
        .recvAgain, .arrive 8, .wake, .recv 8, .handle (), .recvAgain] =
      some { Conn.start "" [] none with calls := [login, heart].map Frame.call } := by
    decide +kernel
  have hrest : AtRest quiet { Conn.start "" [] none with calls := [login, heart].map Frame.call } :=
    atRest_of_watched rfl rfl rfl rfl
  exact ⟨_, hrun, hrest, ((dispatched_of_run quiet "" _ hrun hG).2 hrest).1⟩

end PickUpLight.Epoll
