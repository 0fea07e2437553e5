import PickUpLight.Boost.Framing
import PickUpLight.Wire.Buffer

/-!
# One request on the Boost server

What `processSingleRequest` does with a header, whatever header it is, and with what follows it
on the stream: `demand` is the number of bytes it reads, `handed` what it gives to a handler.
`Serving` says so for every state between the header and the next one, and
`Serving.step` is the one lemma about the steps; how long the bytes take to arrive does not matter.
-/

namespace PickUpLight.Boost

open PickUpLight.Theory PickUpLight.Wire

variable {H : Type} {run : Handlers H} {s s' : Session} {e : Event H} {h : NetPacketHeader}
  {bytes : List UInt8} {calls : List Call}

/-- The number of bytes `processSingleRequest` reads for a header. -/
def demand (h : NetPacketHeader) : ℕ :=
  match Purpose.ofCode h.purpose with
  | none | some .Heart => 0
  | some .SendFile => BUF_SIZE + h.data_size.toNat
  | some _ => min h.data_size.toNat BUF_SIZE

/-- What a handler gets, if one is called once the bytes have been read. -/
def handed (h : NetPacketHeader) (bytes : List UInt8) : Option Call :=
  match Purpose.ofCode h.purpose with
  | none => none
  | some .Heart => some { header := h, payload := [] }
  | some .SendFile =>
    if refused (Int32.ofNat h.data_size.toNat) h.data_size then none
    else some { header := h, payload := bytes }
  | some _ =>
    if refused (Int32.ofNat (min h.data_size.toNat BUF_SIZE)) h.data_size then none
    else some { header := h, payload := bytes }

/-- The request has been served: what it asks for has been read and handed over. -/
def Served (h : NetPacketHeader) (bytes : List UInt8) (calls : List Call) (s : Session) : Prop :=
  demand h ≤ bytes.length ∧ s.left = bytes.drop (demand h) ∧
    s.calls = calls ++ (handed h (bytes.take (demand h))).toList

/-- **A request on its way**: `bytes` is what followed the header on the stream, `calls` what
had been handed over before. -/
def Serving (h : NetPacketHeader) (bytes : List UInt8) (calls : List Call) (s : Session) : Prop :=
  match s.phase with
  | .body => s.header = h ∧ h.IsOrdinary ∧
      s.left = bytes ∧ s.calls = calls
  | .fileInfo => s.header = h ∧ h.IsFile ∧ s.left = bytes ∧ s.calls = calls
  | .fileData info => s.header = h ∧ h.IsFile ∧ info.length = BUF_SIZE ∧
      info ++ s.left = bytes ∧ s.calls = calls
  | .handling call => handed h (bytes.take (demand h)) = some call ∧ Served h bytes calls s
  | .receiving | .ended => Served h bytes calls s
  | .escaped => (s.calls = calls ∧ (s.isOpen = false ∨ bytes.length < demand h)) ∨
    Served h bytes calls s
  | .overrun => h.IsFile ∧ h.data_size.toNat = 2 ^ 32 - 1 ∧ s.calls = calls

theorem demand_idle (hi : h.IsIdle) : demand h = 0 := by
  rcases hi with hp | hp <;> simp only [demand, hp]

theorem demand_ordinary (ho : h.IsOrdinary) :
    demand h = min h.data_size.toNat BUF_SIZE := by
  obtain ⟨p, hp, hord⟩ := ho
  simp only [demand, hp]
  cases p <;> first | rfl | cases hord

theorem handed_ordinary (ho : h.IsOrdinary) (bytes : List UInt8) : handed h bytes =
      if refused (Int32.ofNat (min h.data_size.toNat BUF_SIZE)) h.data_size then none
      else some { header := h, payload := bytes } := by
  obtain ⟨p, hp, hord⟩ := ho
  simp only [handed, hp]
  cases p <;> first | rfl | cases hord

theorem demand_file (hf : h.IsFile) :
    demand h = BUF_SIZE + h.data_size.toNat := by
  simp only [demand, show Purpose.ofCode h.purpose = _ from hf]

theorem handed_file (hf : h.IsFile) (bytes : List UInt8) :
    handed h bytes = if refused (Int32.ofNat h.data_size.toNat) h.data_size then none
      else some { header := h, payload := bytes } := by
  simp only [handed, show Purpose.ofCode h.purpose = _ from hf]

/-! ### Steps -/

/-- The request begins. -/
theorem serving_start (hheader : s.header = h) (hleft : s.left = bytes) (hcalls : s.calls = calls) :
    Serving h bytes calls s.processSingleRequest := by
  unfold Session.processSingleRequest
  rw [hheader]
  cases hp : Purpose.ofCode h.purpose with
  | none => simp [Serving, Served, demand, handed, hp, hcalls, Session.left, ← hleft]
  | some p =>
    cases p with
    | Heart =>
      simp [Serving, Served, Session.hand, hheader, demand, handed, hp, hcalls, Session.left,
      ← hleft]
    | SendFile => exact ⟨hheader, hp, hleft, hcalls⟩
    | _ => exact ⟨hheader, ⟨_, hp, rfl⟩, hleft, hcalls⟩

/-- A step that leaves the session where it is, and what is left as it is. -/
theorem Serving.of_same (hs : Serving h bytes calls s) (hphase : s'.phase = s.phase)
    (hheader : s'.header = s.header) (hleft : s'.left = s.left) (hcalls : s'.calls = s.calls)
    (hopen : s.isOpen = false → s'.isOpen = false) : Serving h bytes calls s' := by
  unfold Serving Served at hs ⊢
  rw [hphase, hheader, hleft, hcalls]
  split at hs
  all_goals first
    | exact hs
    | exact hs.imp_left fun hno => ⟨hno.1, hno.2.imp_left hopen⟩

/-- What is left after a read. -/
theorem Session.left_read (hle : s.wanted ≤ s.avail.length) :
    s.avail.drop s.wanted ++ s.incoming = s.left.drop s.wanted := by
  rw [Session.left, List.drop_append_of_le_length hle]

/-- What a read returns. -/
theorem Session.take_read (hle : s.wanted ≤ s.avail.length) :
    s.avail.take s.wanted = s.left.take s.wanted := by
  rw [Session.left, List.take_append_of_le_length hle]

/-- The end of the request: what has been read is refused, or handed over. -/
theorem Serving.of_read {data payload : List UInt8} (hheader : s.header = h)
    (hdemand : demand h ≤ bytes.length) (hleft : s.left = bytes.drop (demand h))
    (hcalls : s.calls = calls) (hpayload : payload = bytes.take (demand h))
    (hhanded : handed h (bytes.take (demand h)) =
      if refused (Int32.ofNat data.length) s.header.data_size
      then none else some { header := h, payload := bytes.take (demand h) }) :
    Serving h bytes calls (if refused (Int32.ofNat data.length) s.header.data_size
      then { s with phase := .receiving } else s.hand payload) := by
  split at hhanded
  · rename_i hr
    rw [if_pos hr]
    refine ⟨hdemand, hleft, ?_⟩
    rw [hhanded]
    simpa using hcalls
  · rename_i hr
    rw [if_neg hr]
    subst hpayload
    simp only [Serving, Session.hand, hheader]
    refine ⟨hhanded, hdemand, hleft, ?_⟩
    rw [hhanded, hcalls]
    rfl

/-- A read completes. -/
theorem Serving.read (hs : Serving h bytes calls s) (hr : s.reading = true)
    (hle : s.wanted ≤ s.avail.length) :
    Serving h bytes calls
      ({ s with avail := s.avail.drop s.wanted }.afterRead (s.avail.take s.wanted)) := by
  have hleft := Session.left_read hle
  have htake := Session.take_read hle
  have hlen : s.wanted ≤ s.left.length := by
    rw [Session.left, List.length_append]
    omega
  rcases Session.reading_iff.mp hr with hp | hp | ⟨info, hp⟩
  · simp only [Serving, hp] at hs
    obtain ⟨hheader, hord, rfl, hcalls⟩ := hs
    have hwant : s.wanted = demand h := by
      rw [demand_ordinary hord]
      simp only [Session.wanted, hp, hheader]
    rw [hwant] at hleft htake hlen ⊢
    simp only [Session.afterRead, hp]
    refine Serving.of_read (s := { s with avail := s.avail.drop (demand h) }) ?_ hlen hleft
      hcalls htake ?_
    · exact hheader
    · rw [htake, handed_ordinary hord, List.length_take_of_le hlen, demand_ordinary hord]
      show _ = if refused _ s.header.data_size = true then none else _
      rw [hheader]
  · simp only [Serving, hp] at hs
    obtain ⟨hheader, hcode, rfl, hcalls⟩ := hs
    have hwant : s.wanted = BUF_SIZE := by simp only [Session.wanted, hp]
    rw [hwant] at hleft htake hlen ⊢
    simp only [Session.afterRead, hp]
    refine ⟨hheader, hcode, ?_, ?_, hcalls⟩
    · rw [htake]
      exact List.length_take_of_le hlen
    · rw [htake]
      show _ ++ (s.avail.drop BUF_SIZE ++ s.incoming) = _
      rw [hleft, List.take_append_drop]
  · simp only [Serving, hp] at hs
    obtain ⟨hheader, hcode, hinfo, rfl, hcalls⟩ := hs
    have hwant : s.wanted = h.data_size.toNat := by simp only [Session.wanted, hp, hheader]
    have hdemand : demand h = info.length + h.data_size.toNat := by rw [demand_file hcode, hinfo]
    rw [hwant] at hleft htake hlen ⊢
    simp only [Session.afterRead, hp]
    refine Serving.of_read (s := { s with avail := s.avail.drop h.data_size.toNat }) hheader ?_
      ?_ hcalls ?_ ?_
    · rw [hdemand, List.length_append]
      omega
    · rw [hdemand, List.drop_length_add_append]
      exact hleft
    · rw [hdemand, List.take_length_add_append, htake]
    · rw [htake, handed_file hcode, List.length_take_of_le hlen]
      show _ = if refused _ s.header.data_size = true then none else _
      rw [hheader]

/-- What is left is less than is wanted: the stream has ended too early. -/
theorem Serving.short (hs : Serving h bytes calls s) (hr : s.reading = true)
    (hshort : s.left.length < s.wanted) :
    bytes.length < demand h := by
  rcases Session.reading_iff.mp hr with hp | hp | ⟨info, hp⟩ <;> simp only [Serving, hp] at hs
  · obtain ⟨hheader, ho, rfl, -⟩ := hs
    rw [demand_ordinary ho]
    simpa only [Session.wanted, hp, hheader] using hshort
  · obtain ⟨hheader, hf, rfl, -⟩ := hs
    simp only [Session.wanted, hp] at hshort
    rw [demand_file hf]
    omega
  · obtain ⟨hheader, hf, hinfo, rfl, -⟩ := hs
    simp only [Session.wanted, hp, hheader] at hshort
    rw [demand_file hf, List.length_append]
    omega

/-- While the session reads, nothing has been handed over. -/
theorem Serving.calls_reading (hs : Serving h bytes calls s) (hr : s.reading = true) :
    s.calls = calls := by
  rcases Session.reading_iff.mp hr with hp | hp | ⟨info, hp⟩ <;> simp only [Serving, hp] at hs
  · exact hs.2.2.2
  · exact hs.2.2.2
  · exact hs.2.2.2.2

/-- A read throws: the socket has been closed, or the stream has ended too early. -/
theorem Serving.readError (hs : Serving h bytes calls s) (hr : s.reading = true)
    (hwhy : s.isOpen = false ∨ s.left.length < s.wanted) :
    Serving h bytes calls { s with phase := .escaped } :=
  .inl ⟨hs.calls_reading hr, hwhy.imp_right fun hshort => hs.short hr hshort⟩

/-- **Every step but the receipt of another header.** -/
theorem Serving.step (hs : Serving h bytes calls s) (hne : ∀ n, e ≠ .receive n)
    (he : session run s e = some s') : Serving h bytes calls s' := by
  cases e with
  | arrive n =>
    simp only [session] at he
    split at he <;> cases he
    have hleft : (s.avail ++ s.incoming.take n) ++ s.incoming.drop n = s.avail ++ s.incoming := by
      rw [List.append_assoc, List.take_append_drop]
    exact hs.of_same rfl rfl hleft rfl id
  | receive n => exact absurd rfl (hne n)
  | receiveError =>
    simp only [session] at he
    split at he
    · rename_i hp
      simp only [Serving, hp] at hs
      unfold Session.receiveError at he
      split at he
      · split at he
        · split at he <;> cases he <;> exact hs
        · cases he
      · cases he
        exact hs
    · cases he
  | read =>
    simp only [session] at he
    split at he
    · rename_i hr
      split at he
      · rename_i hover
        cases he
        -- only the file has a block that is too small
        have hover := hover.1
        unfold Session.overflows at hover
        split at hover
        · rename_i info hp
          simp only [Serving, hp] at hs ⊢
          obtain ⟨hheader, hcode, -, -, hcalls⟩ := hs
          refine ⟨hcode, ?_, hcalls⟩
          simp only [hheader, decide_eq_true_eq, UInt32.toNat_add] at hover
          have hlt := h.data_size.toNat_lt
          have hone : (1 : UInt32).toNat = 1 := rfl
          omega
        · cases hover
      · split at he <;> cases he
        rename_i hle
        exact hs.read hr hle.2
    · cases he
  | readError =>
    simp only [session] at he
    split at he <;> cases he
    rename_i hc
    exact hs.readError hc.1 (hc.2.2.imp And.left fun hshort => by
      rw [Session.left, hshort.2.1, List.append_nil]
      exact hshort.1)
  | handle x =>
    simp only [session] at he
    split at he
    · rename_i call hp
      simp only [Serving, hp] at hs
      split at he <;> cases he
      · exact hs.2
      · exact Or.inr hs.2
    · cases he
  | evict =>
    simp only [session] at he
    split at he <;> cases he
    exact hs.of_same rfl rfl rfl rfl fun _ => rfl

/-! ### Runs -/

/-- **Every run up to the next header.** -/
theorem Serving.of_run {events : List (Event H)} (hs : Serving h bytes calls s)
    (hne : ∀ e ∈ events, ∀ n, e ≠ .receive n) (hrun : (session run).exec s events = some s') :
    Serving h bytes calls s' :=
  (session run).exec_inv_guarded (fun _ _ _ ht hG he => ht.step hG he) hs
    ((session run).guarded_of_forall hne) hrun

/-- What a handler got, if one has been called since. -/
theorem Serving.handed {call : Call} (hs : Serving h bytes calls s)
    (hcalls : s.calls = calls ++ [call]) :
    demand h ≤ bytes.length ∧ Boost.handed h (bytes.take (demand h)) = some call := by
  have hsame : s.calls ≠ calls := by simp [hcalls]
  have hserved : Served h bytes calls s := by
    unfold Serving at hs
    split at hs
    · exact absurd hs.2.2.2 hsame
    · exact absurd hs.2.2.2 hsame
    · exact absurd hs.2.2.2.2 hsame
    · exact hs.2
    · exact hs
    · exact hs
    · exact hs.resolve_left fun hnone => hsame hnone.1
    · exact absurd hs.2.2 hsame
  obtain ⟨hle, -, hlist⟩ := hserved
  exact ⟨hle, eq_some_of_append (hcalls.symm.trans hlist)⟩

/-- A request that is being read can go on, as long as its bytes come. -/
theorem Serving.not_atRest (hs : Serving h bytes calls s) (hr : s.reading = true)
    (hopen : s.isOpen = true) (hle : demand h ≤ bytes.length) : ¬ AtRest run s := by
  intro hrest
  by_cases hin : s.incoming = []
  · have hwant : s.wanted ≤ s.avail.length := by
      have hleft : s.left = s.avail := by rw [Session.left, hin, List.append_nil]
      rw [← hleft]
      rcases Session.reading_iff.mp hr with hp | hp | ⟨info, hp⟩ <;> simp only [Serving, hp] at hs
      · obtain ⟨hheader, hord, hbytes, -⟩ := hs
        rw [hbytes]
        rw [demand_ordinary hord] at hle
        simpa only [Session.wanted, hp, hheader] using hle
      · obtain ⟨hheader, hcode, hbytes, -⟩ := hs
        rw [hbytes]
        rw [demand_file hcode] at hle
        simp only [Session.wanted, hp]
        omega
      · obtain ⟨hheader, hcode, hinfo, hbytes, -⟩ := hs
        have hlen := congrArg List.length hbytes
        rw [List.length_append] at hlen
        rw [demand_file hcode] at hle
        simp only [Session.wanted, hp, hheader]
        omega
    have hread := hrest .read (by simp)
    simp only [session, hr, hopen, hwant, if_true] at hread
    split at hread <;> simp at hread
  · have harrive := hrest (.arrive 1) (by simp)
    have hpos : 1 ≤ s.incoming.length := List.length_pos_iff.mpr hin
    simp [session, hpos] at harrive

/-- A read of what has arrived completes. -/
theorem session_read (hr : s.reading = true) (hover : s.overflows = false) (hopen : s.isOpen = true)
    (hle : s.wanted ≤ s.avail.length) : session run s .read =
      some ({ s with avail := s.avail.drop s.wanted }.afterRead (s.avail.take s.wanted)) := by
  simp only [session, hr, hover, hopen, hle, if_true, Bool.false_eq_true, false_and, if_false,
    true_or, and_self]

/-- A read into a block that is too small. -/
theorem session_overrun (hr : s.reading = true) (hover : s.overflows = true) (hne : s.avail ≠ []) :
    session run s .read = some { s with phase := .overrun } := by
  simp only [session, hr, hover, hne, if_true, ne_eq, not_false_eq_true, and_self]

/-- A packet longer than the buffer is read as far as the buffer goes, and refused. -/
theorem read_long (hp : s.phase = .body) (hopen : s.isOpen = true)
    (hlong : BUF_SIZE < s.header.data_size.toNat) (hle : BUF_SIZE ≤ s.avail.length) :
    ∃ s', session run s .read = some s' ∧ s'.phase = .receiving := by
  have hwant : s.wanted = BUF_SIZE := by
    simp only [Session.wanted, hp]
    exact Nat.min_eq_right (Nat.le_of_lt hlong)
  have hrefused : refused (Int32.ofNat BUF_SIZE) s.header.data_size = true := by
    rw [refused_ofNat]
    simp only [BUF_SIZE] at hlong ⊢
    omega
  have hread : session run s .read = _ :=
    session_read (by simp [Session.reading, hp]) (by simp [Session.overflows, hp]) hopen
      (by rwa [hwant])
  refine ⟨_, hread, ?_⟩
  rw [hwant]
  simp only [Session.afterRead, hp, List.length_take_of_le hle]
  have hheader : ({ s with avail := s.avail.drop BUF_SIZE } : Session).header = s.header := rfl
  rw [← hp, hheader, if_pos hrefused]

/-- The socket is open until the session ends, unless the evaluator closes it. -/
theorem isOpen_of_run {events : List (Event H)} (ho : s.phase = .ended ∨ s.isOpen = true)
    (hne : ∀ e ∈ events, e ≠ .evict ∧ ∀ n, e ≠ .receive n)
    (hrun : (session run).exec s events = some s') : s'.phase = .ended ∨ s'.isOpen = true := by
  refine (session run).exec_inv_guarded (I := fun t => t.phase = .ended ∨ t.isOpen = true)
    (G := fun _ e => e ≠ .evict ∧ ∀ n, e ≠ .receive n) ?_ ho ((session run).guarded_of_forall hne)
      hrun
  rintro t e t' ht ⟨hevict, hreceive⟩ he
  cases e with
  | evict => exact absurd rfl hevict
  | receive n => exact absurd rfl (hreceive n)
  | arrive n =>
    simp only [session] at he
    split at he <;> cases he
    exact ht
  | receiveError =>
    simp only [session, Session.receiveError] at he
    split at he
    · split at he
      · split at he
        · split at he <;> cases he <;> exact Or.inl rfl
        · cases he
      · cases he
        exact Or.inl rfl
    · cases he
  | read =>
    simp only [session] at he
    split at he
    · rename_i htr
      have hopen : t.isOpen = true := ht.resolve_left fun hp => by simp [Session.reading, hp] at htr
      split at he
      · cases he
        exact Or.inr hopen
      · split at he <;> cases he
        right
        unfold Session.afterRead Session.hand
        split
        · split <;> exact hopen
        · exact hopen
        · split <;> exact hopen
        · exact hopen
    · cases he
  | readError =>
    simp only [session] at he
    split at he <;> cases he
    rename_i hc
    exact Or.inr (ht.resolve_left fun hp => by simp [Session.reading, hp] at hc)
  | handle x =>
    simp only [session] at he
    split at he
    · rename_i call hp
      have hopen : t.isOpen = true := ht.resolve_left fun hp' => by simp [hp'] at hp
      split at he <;> cases he <;> exact Or.inr hopen
    · cases he

end PickUpLight.Boost
