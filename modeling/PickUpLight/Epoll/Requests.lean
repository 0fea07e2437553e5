import PickUpLight.Epoll.Framing
import PickUpLight.Wire.Buffer

/-!
# One request on the epoll server

What `processSingleRequest` does with a header, whatever header it is, and with what follows it
on the stream, as in `Boost.Requests`. Here every length goes through the `int` of
`my_recv`, so a length of 2^31 or more asks for nothing, and a packet is not limited by its
buffer.
-/

namespace PickUpLight.Epoll

open PickUpLight.Theory PickUpLight.Wire

variable {H : Type} {run : Handlers H} {s s' : Conn} {e : Event H} {h : NetPacketHeader}
  {bytes : List UInt8} {calls : List Call}

/-- The number of bytes `processSingleRequest` asks for, for a header. -/
def demand (h : NetPacketHeader) : ℕ :=
  match Purpose.ofCode h.purpose with
  | none | some .Heart => 0
  | some .SendFile => BUF_SIZE + (asInt h.data_size).toNat
  | some _ => (asInt h.data_size).toNat

/-- What a handler gets, if one is called once the bytes have been read. -/
def handed (h : NetPacketHeader) (bytes : List UInt8) : Option Call :=
  match Purpose.ofCode h.purpose with
  | none => none
  | some .Heart => some { header := h, payload := [] }
  | some _ => if 0 < asInt h.data_size then some { header := h, payload := bytes } else none

/-- The request has been served: what it asks for has been read and handed over. -/
def Served (h : NetPacketHeader) (bytes : List UInt8) (calls : List Call) (s : Conn) : Prop :=
  demand h ≤ bytes.length ∧ s.left = bytes.drop (demand h) ∧
    s.calls = calls ++ (handed h (bytes.take (demand h))).toList

/-- The request has been given up: the stream ended before what it asks for. -/
def Short (h : NetPacketHeader) (bytes : List UInt8) (calls : List Call) (s : Conn) : Prop :=
  bytes.length < demand h ∧ s.left = [] ∧ s.calls = calls

/-- **A request on its way**: `bytes` is what followed the header on the stream, `calls` what
had been handed over before. -/
def Serving (h : NetPacketHeader) (bytes : List UInt8) (calls : List Call) (s : Conn) : Prop :=
  match s.phase with
  | .receiving .header t => t = { length := headerSize, done := [] } ∧
      (Served h bytes calls s ∨ Short h bytes calls s)
  | .receiving .body t => s.pheader = h ∧ h.IsOrdinary ∧
      t.length = asInt h.data_size ∧ t.done.length < t.length ∧ t.done.length ≤ BUF_SIZE ∧
      t.done ++ s.left = bytes ∧ s.calls = calls
  | .receiving .fileInfo t => s.pheader = h ∧ h.IsFile ∧
      t.length = BUF_SIZE ∧ t.done.length < t.length ∧ t.done ++ s.left = bytes ∧ s.calls = calls
  | .receiving (.fileData info) t => s.pheader = h ∧ h.IsFile ∧
      info.length = BUF_SIZE ∧ t.length = asInt h.data_size ∧ t.done.length < t.length ∧
      info ++ (t.done ++ s.left) = bytes ∧ s.calls = calls
  | .handling call => handed h (bytes.take (demand h)) = some call ∧ Served h bytes calls s
  | .escaped => Served h bytes calls s
  | .smashed => h.IsOrdinary ∧
      BUF_SIZE < asInt h.data_size ∧ s.calls = calls
  | .watched | .closed | .dropped => False

/-- The steps up to the next header: while it is awaited, bytes may arrive. -/
def Within (s : Conn) (e : Event H) : Prop :=
  ∀ t, s.phase = .receiving .header t → ∃ n, e = .arrive n

theorem demand_idle (hi : h.IsIdle) : demand h = 0 := by
  rcases hi with hp | hp <;> simp only [demand, hp]

theorem demand_ordinary (ho : h.IsOrdinary) :
    demand h = (asInt h.data_size).toNat := by
  obtain ⟨p, hp, hord⟩ := ho
  simp only [demand, hp]
  cases p <;> first | rfl | cases hord

theorem handed_ordinary (ho : h.IsOrdinary) (bytes : List UInt8) :
    handed h bytes = if 0 < asInt h.data_size then some { header := h, payload := bytes } else
      none := by
  obtain ⟨p, hp, hord⟩ := ho
  simp only [handed, hp]
  cases p <;> first | rfl | cases hord

theorem demand_file (hf : h.IsFile) :
    demand h = BUF_SIZE + (asInt h.data_size).toNat := by
  simp only [demand, show Purpose.ofCode h.purpose = _ from hf]

theorem handed_file (hf : h.IsFile) (bytes : List UInt8) :
    handed h bytes = if 0 < asInt h.data_size then some { header := h, payload := bytes } else
      none := by
  simp only [handed, show Purpose.ofCode h.purpose = _ from hf]

/-! ### Lengths -/

/-- A length of 2^31 or more is negative as an `int`. -/
theorem asInt_neg {n : UInt32} (hn : 2 ^ 31 ≤ n.toNat) : asInt n < 0 := by
  have hlt := n.toNat_lt
  have hbv : n.toInt32.toBitVec.toNat = n.toNat := rfl
  show n.toInt32.toBitVec.toInt < 0
  rw [BitVec.toInt_eq_toNat_cond, hbv]
  split <;> omega

/-- A length asks for bytes exactly when it fits an `int` and is not zero. -/
theorem asInt_pos {n : UInt32} : 0 < asInt n ↔ 1 ≤ n.toNat ∧ n.toNat < 2 ^ 31 := by
  by_cases hn : n.toNat < 2 ^ 31
  · rw [asInt_of_lt hn]
    omega
  · have hneg := asInt_neg (Nat.le_of_not_lt hn)
    omega

/-- The length wanted is accepted. -/
theorem accepted {n : UInt32} (hn : 0 < asInt n) : refused (Int32.ofInt (asInt n)) n = false := by
  obtain ⟨hpos, hlt⟩ := asInt_pos.mp hn
  rw [asInt_of_lt hlt]
  exact accepted_of_lt hpos hlt

/-- Any other length is refused, also none at all and an error. -/
theorem refused_short {n : UInt32} {k : ℕ} (hk : (k : ℤ) < asInt n) :
    refused (Int32.ofInt k) n = true := by
  have hn : 0 < asInt n := by omega
  obtain ⟨hpos, hlt⟩ := asInt_pos.mp hn
  rw [asInt_of_lt hlt] at hk
  rw [Int32.ofInt_eq_ofNat, refused_ofNat]
  omega

theorem refused_error (n : UInt32) : refused (Int32.ofInt (-1)) n = true := rfl

theorem refused_none (n : UInt32) : refused (Int32.ofInt 0) n = true := rfl

/-! ### Steps -/

/-- The task goes back to the head of its loop, with the request served or given up. -/
theorem serving_nextHeader (hs : Served h bytes calls s ∨ Short h bytes calls s) :
    Serving h bytes calls s.nextHeader :=
  ⟨rfl, hs⟩

/-- What has been read is handed over. -/
theorem serving_hand {payload : List UInt8} (hheader : s.pheader = h)
    (hdemand : demand h ≤ bytes.length) (hleft : s.left = bytes.drop (demand h))
    (hcalls : s.calls = calls) (hpayload : payload = bytes.take (demand h))
    (hhanded : handed h payload = some { header := h, payload := payload }) :
    Serving h bytes calls (s.hand payload) := by
  subst hpayload
  simp only [Serving, Conn.hand, hheader]
  refine ⟨hhanded, hdemand, hleft, ?_⟩
  rw [hhanded, hcalls]
  rfl

/-- A length that asks for nothing: the request is refused at once. -/
theorem startPayload_nothing (hneg : ¬ 0 < asInt s.pheader.data_size) (dest : Dest)
    (front : List UInt8) :
    s.startPayload dest front = s.nextHeader := by
  have hleft :
      ¬ ({ length := asInt s.pheader.data_size, done := [] } : Transfer).bytes_left > 0 := by
    simp only [Transfer.bytes_left, List.length_nil]
    omega
  have hret : asInt s.pheader.data_size -
      ({ length := asInt s.pheader.data_size, done := [] } : Transfer).bytes_left = 0 := by
    simp [Transfer.bytes_left]
  simp only [Conn.startPayload, Transfer.loop, hleft, if_false]
  rw [hret, Conn.afterPayload, if_pos (refused_none _)]

/-- The request begins. -/
theorem serving_start (hheader : s.pheader = h) (hleft : s.left = bytes)
    (hcalls : s.calls = calls) :
    Serving h bytes calls s.processSingleRequest := by
  unfold Conn.processSingleRequest
  rw [hheader]
  have hord : h.IsOrdinary → Serving h bytes calls (s.startPayload .body []) := by
    intro ho
    by_cases hpos : 0 < asInt h.data_size
    · obtain ⟨hone, hlt⟩ := asInt_pos.mp hpos
      rw [startPayload_eq (by rwa [hheader]) (by rwa [hheader]), hheader, ← asInt_of_lt hlt]
      exact ⟨rfl, ho, rfl, hpos, Nat.zero_le _, hleft, hcalls⟩
    · rw [startPayload_nothing (by rwa [hheader])]
      refine serving_nextHeader (Or.inl ?_)
      have hdemand : demand h = 0 := by
        rw [demand_ordinary ho]
        omega
      simp only [Served, hdemand, handed_ordinary ho, if_neg hpos]
      simpa using ⟨hleft, hcalls⟩
  cases hp : Purpose.ofCode h.purpose with
  | none =>
    refine serving_nextHeader (Or.inl ?_)
    simp [Served, demand, handed, hp, hcalls, hleft]
  | some p =>
    cases p with
    | Heart =>
      simp [Serving, Served, Conn.hand, hheader, demand, handed, hp, hcalls, Conn.left, ← hleft]
    | SendFile => exact ⟨rfl, hp, rfl, by decide, hleft, hcalls⟩
    | _ => exact hord ⟨_, hp, rfl⟩

/-- A step that leaves the connection where it is, and what is left as it is. -/
theorem Serving.of_same (hs : Serving h bytes calls s) (hphase : s'.phase = s.phase)
    (hheader : s'.pheader = s.pheader) (hleft : s'.left = s.left) (hcalls : s'.calls = s.calls) :
    Serving h bytes calls s' := by
  unfold Serving Served Short at hs ⊢
  rw [hphase, hheader, hleft, hcalls]
  exact hs

/-- A `recv` of an ordinary packet. -/
theorem Serving.recv_body {t : Transfer} {n : ℕ} (hs : Serving h bytes calls s)
    (hp : s.phase = .receiving .body t) (hn : n ≤ t.bytes_left) (hle : n ≤ s.avail.length) :
    Serving h bytes calls
      ({ s with avail := s.avail.drop n }.turn .body (t.after (.bytes (s.avail.take n)))) := by
  simp only [Serving, hp] at hs
  obtain ⟨hheader, hord, hlen, hlt, hsmall, hleft, hcalls⟩ := hs
  have hpos : 0 < asInt h.data_size := by omega
  have hdata : ((s.avail.take n).length : ℤ) ≤ t.bytes_left := by
    rw [List.length_take_of_le hle]
    exact hn
  have hleft' := (append_left_recv n).trans hleft
  rcases Transfer.after_bytes hdata with ⟨hmore, hafter⟩ | ⟨hlast, hafter⟩
  · rw [hafter, Conn.turn]
    by_cases hlong : (t.done ++ s.avail.take n).length > BUF_SIZE
    · rw [if_pos ⟨rfl, hlong⟩]
      exact ⟨hord, by omega, hcalls⟩
    · rw [if_neg fun hc => hlong hc.2]
      exact ⟨hheader, hord, hlen, hmore, Nat.le_of_not_lt hlong, hleft', hcalls⟩
  · rw [hafter, Conn.turn]
    by_cases hlong : (t.done ++ s.avail.take n).length > BUF_SIZE
    · rw [if_pos ⟨rfl, hlong⟩]
      exact ⟨hord, by omega, hcalls⟩
    · rw [if_neg fun hc => hlong hc.2]
      have hok : refused (Int32.ofInt (asInt h.data_size)) s.pheader.data_size = false := by
        rw [hheader]
        exact accepted hpos
      have hdemand : demand h = (t.done ++ s.avail.take n).length := by
        rw [demand_ordinary hord]
        omega
      simp only [Conn.afterRecv, Conn.afterPayload, hlen, hok, Bool.false_eq_true, if_false]
      refine serving_hand hheader ?_ ?_ hcalls ?_ ?_
      · rw [hdemand, ← hleft']
        exact (List.prefix_append _ _).length_le
      · rw [hdemand, ← hleft', List.drop_left' rfl]
      · rw [hdemand, ← hleft', List.take_left' rfl]
      · rw [handed_ordinary hord, if_pos hpos]

/-- A `recv` of the description of a file. -/
theorem Serving.recv_fileInfo {t : Transfer} {n : ℕ} (hs : Serving h bytes calls s)
    (hp : s.phase = .receiving .fileInfo t) (hn : n ≤ t.bytes_left) (hle : n ≤ s.avail.length) :
    Serving h bytes calls
      ({ s with avail := s.avail.drop n }.turn .fileInfo (t.after (.bytes (s.avail.take n)))) := by
  simp only [Serving, hp] at hs
  obtain ⟨hheader, hcode, hlen, hlt, hleft, hcalls⟩ := hs
  have hdata : ((s.avail.take n).length : ℤ) ≤ t.bytes_left := by
    rw [List.length_take_of_le hle]
    exact hn
  have hleft' := (append_left_recv n).trans hleft
  rcases Transfer.after_bytes hdata with ⟨hmore, hafter⟩ | ⟨hlast, hafter⟩
  · rw [hafter, Conn.turn, if_neg (by simp)]
    exact ⟨hheader, hcode, hlen, hmore, hleft', hcalls⟩
  · rw [hlen] at hlast hafter
    rw [hafter, Conn.turn, if_neg (by simp)]
    have hret : ¬ ((BUF_SIZE : ℤ) = -1 ∨ (BUF_SIZE : ℤ) = 0 ∨ (BUF_SIZE : ℤ) ≠ BUF_SIZE) := by
      decide
    simp only [Conn.afterRecv, hret, if_false]
    have hlast : (t.done ++ s.avail.take n).length = BUF_SIZE := by exact_mod_cast hlast
    by_cases hpos : 0 < asInt h.data_size
    · obtain ⟨hone, hsmall⟩ := asInt_pos.mp hpos
      rw [startPayload_eq (s := { s with avail := s.avail.drop n }) (by rwa [hheader])
        (by rwa [hheader])]
      show Serving h bytes calls { s with
        avail := s.avail.drop n
        phase := .receiving (.fileData (t.done ++ s.avail.take n))
          { length := s.pheader.data_size.toNat, done := [] } }
      rw [hheader, ← asInt_of_lt hsmall]
      exact ⟨rfl, hcode, hlast, rfl, hpos, hleft', hcalls⟩
    · have hdemand : demand h = (t.done ++ s.avail.take n).length := by
        rw [demand_file hcode, hlast]
        omega
      rw [startPayload_nothing (s := { s with avail := s.avail.drop n }) (by rwa [hheader])]
      refine serving_nextHeader (Or.inl ⟨?_, ?_, ?_⟩)
      · rw [hdemand, ← hleft']
        exact (List.prefix_append _ _).length_le
      · rw [hdemand, ← hleft', List.drop_left' rfl]
      · rw [handed_file hcode, if_neg hpos]
        simpa using hcalls

/-- A `recv` of a file. -/
theorem Serving.recv_fileData {info : List UInt8} {t : Transfer} {n : ℕ}
    (hs : Serving h bytes calls s) (hp : s.phase = .receiving (.fileData info) t)
    (hn : n ≤ t.bytes_left) (hle : n ≤ s.avail.length) :
    Serving h bytes calls
      ({ s with avail := s.avail.drop n }.turn (.fileData info)
      (t.after (.bytes (s.avail.take n)))) := by
  simp only [Serving, hp] at hs
  obtain ⟨hheader, hcode, hinfo, hlen, hlt, hleft, hcalls⟩ := hs
  have hpos : 0 < asInt h.data_size := by omega
  have hdata : ((s.avail.take n).length : ℤ) ≤ t.bytes_left := by
    rw [List.length_take_of_le hle]
    exact hn
  have hleft' := hleft
  rw [← append_left_recv n] at hleft'
  rcases Transfer.after_bytes hdata with ⟨hmore, hafter⟩ | ⟨hlast, hafter⟩
  · rw [hafter, Conn.turn, if_neg (by simp)]
    exact ⟨hheader, hcode, hinfo, hlen, hmore, hleft', hcalls⟩
  · rw [hafter, Conn.turn, if_neg (by simp)]
    have hok : refused (Int32.ofInt (asInt h.data_size)) s.pheader.data_size = false := by
      rw [hheader]
      exact accepted hpos
    rw [← List.append_assoc] at hleft'
    have hdemand : demand h = (info ++ (t.done ++ s.avail.take n)).length := by
      rw [demand_file hcode, List.length_append, hinfo]
      omega
    simp only [Conn.afterRecv, Conn.afterPayload, hlen, hok, Bool.false_eq_true, if_false]
    refine serving_hand hheader ?_ ?_ hcalls ?_ ?_
    · rw [hdemand, ← hleft']
      exact (List.prefix_append _ _).length_le
    · rw [hdemand, ← hleft', List.drop_left' rfl]
    · rw [hdemand, ← hleft', List.take_left' rfl]
    · rw [handed_file hcode, if_pos hpos]

/-- A `my_recv` that is under way has bytes left to ask for. -/
theorem Serving.done_lt {dest : Dest} {t : Transfer} (hs : Serving h bytes calls s)
    (hp : s.phase = .receiving dest t) :
    (t.done.length : ℤ) < t.length ∧ (dest = .body → t.done.length ≤ BUF_SIZE) := by
  cases dest with
  | header =>
    simp only [Serving, hp] at hs
    obtain ⟨rfl, -⟩ := hs
    exact ⟨by decide, by simp⟩
  | body =>
    simp only [Serving, hp] at hs
    exact ⟨hs.2.2.2.1, fun _ => hs.2.2.2.2.1⟩
  | fileInfo =>
    simp only [Serving, hp] at hs
    exact ⟨hs.2.2.2.1, by simp⟩
  | fileData info =>
    simp only [Serving, hp] at hs
    exact ⟨hs.2.2.2.2.1, by simp⟩

/-- The stream ends, in order or with an error, before all the bytes asked for have come. -/
theorem Serving.give_up {dest : Dest} {t : Transfer} {ret : ℤ} (hs : Serving h bytes calls s)
    (hp : s.phase = .receiving dest t) (hne : dest ≠ .header) (hleft : s.left = [])
    (hret : ret = -1 ∨ ret = t.done.length) :
    Serving h bytes calls (s.turn dest (.returned ret t.done)) := by
  obtain ⟨hlt, hbody⟩ := hs.done_lt hp
  have hshort : refused (Int32.ofInt ret) s.pheader.data_size = true ∨ dest = .fileInfo := by
    rcases hret with rfl | rfl
    · exact Or.inl (refused_error _)
    · cases dest with
      | header => exact absurd rfl hne
      | fileInfo => exact Or.inr rfl
      | body | fileData info =>
        left
        simp only [Serving, hp] at hs
        apply refused_short
        rw [hs.1]
        omega
  have hsmall : ¬ (dest = .body ∧ t.done.length > BUF_SIZE) := fun hc => by
    have := hbody hc.1
    omega
  rw [Conn.turn, if_neg hsmall]
  cases dest with
  | header => exact absurd rfl hne
  | body =>
    simp only [Serving, hp] at hs
    obtain ⟨hheader, hord, hlen, -, -, rfl, hcalls⟩ := hs
    simp only [Conn.afterRecv, Conn.afterPayload, hshort.resolve_right (by simp), if_true]
    refine serving_nextHeader (Or.inr ⟨?_, hleft, hcalls⟩)
    rw [demand_ordinary hord, hleft, List.append_nil]
    omega
  | fileInfo =>
    simp only [Serving, hp] at hs
    obtain ⟨hheader, hcode, hlen, -, rfl, hcalls⟩ := hs
    have hcond : ret = -1 ∨ ret = 0 ∨ ret ≠ BUF_SIZE := by omega
    simp only [Conn.afterRecv, hcond, if_true]
    refine serving_nextHeader (Or.inr ⟨?_, hleft, hcalls⟩)
    rw [demand_file hcode, hleft, List.append_nil]
    omega
  | fileData info =>
    simp only [Serving, hp] at hs
    obtain ⟨hheader, hcode, hinfo, hlen, -, rfl, hcalls⟩ := hs
    simp only [Conn.afterRecv, Conn.afterPayload, hshort.resolve_right (by simp), if_true]
    refine serving_nextHeader (Or.inr ⟨?_, hleft, hcalls⟩)
    rw [demand_file hcode, hleft, List.append_nil, List.length_append, hinfo]
    omega

/-- **Every step up to the next header.** -/
theorem Serving.step (hs : Serving h bytes calls s) (hw : Within s e)
    (he : conn run s e = some s') :
    Serving h bytes calls s' := by
  have hne : ∀ {dest t}, s.phase = .receiving dest t → (∀ n, e ≠ .arrive n) → dest ≠ .header := by
    rintro dest t hp ha rfl
    obtain ⟨n, rfl⟩ := hw t hp
    exact ha n rfl
  cases e with
  | arrive n =>
    simp only [conn] at he
    split at he <;> cases he
    have hleft : (s.avail ++ s.incoming.take n) ++ s.incoming.drop n = s.avail ++ s.incoming := by
      rw [List.append_assoc, List.take_append_drop]
    exact hs.of_same rfl rfl hleft rfl
  | wake =>
    simp only [conn] at he
    split at he <;> cases he
    rename_i hc
    simp only [Serving, hc.1] at hs
  | recv n =>
    simp only [conn] at he
    split at he
    · rename_i dest t hp
      split at he <;> cases he
      rename_i hc
      obtain ⟨-, hn, hle⟩ := hc
      cases dest with
      | header => exact absurd rfl (hne hp (by simp))
      | body => exact hs.recv_body hp hn hle
      | fileInfo => exact hs.recv_fileInfo hp hn hle
      | fileData info => exact hs.recv_fileData hp hn hle
    · cases he
  | recvEof =>
    simp only [conn] at he
    split at he
    · rename_i dest t hp
      split at he <;> cases he
      rename_i hc
      have hleft : s.left = [] := by
        rcases hc with hc | hc <;> simp [Conn.left, hc.1, hc.2.1]
      refine hs.give_up hp (hne hp (by simp)) hleft (Or.inr ?_)
      simp only [Transfer.bytes_left]
      omega
    · cases he
  | recvInterrupted =>
    simp only [conn] at he
    split at he <;> cases he
    rename_i dest t hp
    obtain ⟨hlt, hbody⟩ := hs.done_lt hp
    rw [Transfer.after_interrupted hlt, Conn.turn, if_neg]
    · exact hs.of_same hp.symm rfl rfl rfl
    · rintro ⟨hd, hlong⟩
      have := hbody hd
      omega
  | recvAgain =>
    simp only [conn] at he
    split at he
    · rename_i t hp
      exact absurd rfl (hne hp (by simp))
    · cases he
  | recvError =>
    simp only [conn] at he
    split at he
    · rename_i dest t hp
      split at he <;> cases he
      rename_i hc
      have hleft : s.left = [] := by simp [Conn.left, hc.1, hc.2.1]
      exact hs.give_up hp (hne hp (by simp)) hleft (Or.inl rfl)
    · cases he
  | handle x =>
    simp only [conn] at he
    split at he
    · rename_i call hp
      simp only [Serving, hp] at hs
      split at he <;> cases he
      · exact serving_nextHeader (Or.inl hs.2)
      · exact hs.2
    · cases he

/-! ### Runs -/

/-- **Every run up to the next header.** -/
theorem Serving.of_run {events : List (Event H)} (hs : Serving h bytes calls s)
    (hw : (conn run).Guarded Within s events) (hrun : (conn run).exec s events = some s') :
    Serving h bytes calls s' :=
  (conn run).exec_inv_guarded (fun _ _ _ ht hG he => ht.step hG he) hs hw hrun

/-- A `recv` of what has arrived completes. -/
theorem conn_recv {dest : Dest} {t : Transfer} {n : ℕ} (hp : s.phase = .receiving dest t)
    (hpos : 0 < n) (hn : n ≤ t.bytes_left) (hle : n ≤ s.avail.length) : conn run s (.recv n) =
      some ({ s with avail := s.avail.drop n }.turn dest (t.after (.bytes (s.avail.take n)))) := by
  simp only [conn, hp, hpos, hn, hle, and_self, if_true]

/-- A packet that fits its buffer is handed over. -/
theorem conn_hand {n : ℕ} (hp : s.phase = .receiving .body { length := n, done := [] })
    (hpos : 0 < n)
    (hsmall : n ≤ BUF_SIZE) (hok : refused (Int32.ofInt n) s.pheader.data_size = false)
    (hle : n ≤ s.avail.length) :
    conn run s (.recv n) = some ({ s with avail := s.avail.drop n }.hand (s.avail.take n)) := by
  rw [conn_recv hp hpos (by simp [Transfer.bytes_left]) hle]
  have hlen : (s.avail.take n).length = n := List.length_take_of_le hle
  have hdata :
      ((s.avail.take n).length : ℤ) ≤ ({ length := n, done := [] } : Transfer).bytes_left := by
    simp [Transfer.bytes_left, hlen]
  rcases Transfer.after_bytes hdata with ⟨hmore, -⟩ | ⟨-, hafter⟩
  · exact absurd hmore (by rw [List.nil_append, hlen]; exact Int.lt_irrefl _)
  · rw [hafter, List.nil_append, Conn.turn, if_neg (by simp [hlen, hsmall])]
    simp only [Conn.afterRecv, Conn.afterPayload, hok, Bool.false_eq_true, if_false]

/-- A packet longer than its buffer. -/
theorem conn_smashed {n : ℕ} (hp : s.phase = .receiving .body { length := n, done := [] })
    (hlong : BUF_SIZE < n) (hle : n ≤ s.avail.length) :
    conn run s (.recv n) = some { s with avail := s.avail.drop n, phase := .smashed } := by
  rw [conn_recv hp (by omega) (by simp [Transfer.bytes_left]) hle]
  have hlen : ([] ++ s.avail.take n).length = n := by
    rw [List.nil_append]
    exact List.length_take_of_le hle
  have hleft : ¬ ({ length := n, done := [] ++ s.avail.take n } : Transfer).bytes_left > 0 := by
    simp only [Transfer.bytes_left, hlen]
    omega
  simp only [Transfer.after, Transfer.loop, hleft, if_false, Conn.turn, hlen]
  rw [if_pos ⟨trivial, hlong⟩]

/-- A file whose length asks for nothing is refused when its description has been read. -/
theorem conn_fileInfo_nothing
      (hp : s.phase = .receiving .fileInfo { length := BUF_SIZE, done := [] })
    (hneg : ¬ 0 < asInt s.pheader.data_size) (hle : BUF_SIZE ≤ s.avail.length) :
    conn run s (.recv BUF_SIZE) = some { s with avail := s.avail.drop BUF_SIZE }.nextHeader := by
  rw [conn_recv hp (by decide) (by simp [Transfer.bytes_left]) hle]
  have hlen : (([] ++ s.avail.take BUF_SIZE).length : ℤ) = BUF_SIZE := by
    rw [List.nil_append, List.length_take_of_le hle]
  have hdata : ((s.avail.take BUF_SIZE).length : ℤ) ≤
      ({ length := BUF_SIZE, done := [] } : Transfer).bytes_left := by
    rw [List.length_take_of_le hle]
    simp [Transfer.bytes_left]
  rcases Transfer.after_bytes hdata with ⟨hmore, -⟩ | ⟨-, hafter⟩
  · exact absurd hmore (by rw [hlen]; exact Int.lt_irrefl _)
  · rw [hafter, Conn.turn, if_neg (by simp)]
    have hret : ¬ ((BUF_SIZE : ℤ) = -1 ∨ (BUF_SIZE : ℤ) = 0 ∨ (BUF_SIZE : ℤ) ≠ BUF_SIZE) := by
      decide
    simp only [Conn.afterRecv, hret, if_false]
    rw [startPayload_nothing hneg (s := { s with avail := s.avail.drop BUF_SIZE })]

/-- What a handler got, if one has been called since. -/
theorem Serving.handed {call : Call} (hs : Serving h bytes calls s)
    (hcalls : s.calls = calls ++ [call]) :
    demand h ≤ bytes.length ∧ Epoll.handed h (bytes.take (demand h)) = some call := by
  have hsame : s.calls ≠ calls := by simp [hcalls]
  have hserved : Served h bytes calls s := by
    unfold Serving at hs
    split at hs
    · exact hs.2.resolve_right fun hshort => hsame hshort.2.2
    · exact absurd hs.2.2.2.2.2.2 hsame
    · exact absurd hs.2.2.2.2.2 hsame
    · exact absurd hs.2.2.2.2.2.2 hsame
    · exact hs.2
    · exact hs
    · exact absurd hs.2.2 hsame
    · exact hs.elim
    · exact hs.elim
    · exact hs.elim
  obtain ⟨hle, -, hlist⟩ := hserved
  exact ⟨hle, eq_some_of_append (hcalls.symm.trans hlist)⟩

/-- A request that is being read can go on, as long as its bytes come. -/
theorem Serving.not_atRest {dest : Dest} {t : Transfer} (hs : Serving h bytes calls s)
    (hp : s.phase = .receiving dest t) (hne : dest ≠ .header) (hle : demand h ≤ bytes.length) :
    ¬ AtRest run s := by
  intro hrest
  have hleft : s.left ≠ [] := by
    intro hnil
    cases dest with
    | header => exact absurd rfl hne
    | body =>
      simp only [Serving, hp] at hs
      obtain ⟨-, hord, hlen, hlt, -, rfl, -⟩ := hs
      rw [demand_ordinary hord, hnil, List.append_nil] at hle
      omega
    | fileInfo =>
      simp only [Serving, hp] at hs
      obtain ⟨-, hcode, hlen, hlt, rfl, -⟩ := hs
      rw [demand_file hcode, hnil, List.append_nil] at hle
      omega
    | fileData info =>
      simp only [Serving, hp] at hs
      obtain ⟨-, hcode, hinfo, hlen, hlt, rfl, -⟩ := hs
      rw [demand_file hcode, hnil, List.append_nil, List.length_append] at hle
      omega
  by_cases hin : s.incoming = []
  · have hpos : 1 ≤ s.avail.length := by
      rw [Conn.left, hin, List.append_nil] at hleft
      exact List.length_pos_iff.mpr hleft
    have hlt := (hs.done_lt hp).1
    have hbytes : 1 ≤ t.bytes_left := by
      simp only [Transfer.bytes_left]
      omega
    have hrecv := hrest (.recv 1) (by simp)
    simp [conn, hp, hpos, hbytes] at hrecv
  · have harrive := hrest (.arrive 1) (by simp)
    have hpos : 1 ≤ s.incoming.length := List.length_pos_iff.mpr hin
    simp [conn, hpos] at harrive

end PickUpLight.Epoll
