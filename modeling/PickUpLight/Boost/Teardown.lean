import PickUpLight.Boost.Proper
import PickUpLight.Boost.Requests

/-!
# How sessions end

A session cleans up in one place: where its `async_receive` completes with `eof`, it is taken off
the evaluator's map and its socket is closed. An exception that a `read`, the parser or a `write`
throws leaves the completion handler, and any other error of an `async_receive` is printed and
forgotten. `endsClean_iff` says for which clients a session ends clean: they close the connection in
order, and what they have sent is proper requests, each of them whole.

The network delivers headers in one piece, and the sweep evicts the connection between two requests,
if it does (`Undisturbed`). `Busy.step` says what a step does to a request, and the two directions
of the theorem are both read off it.
-/

namespace PickUpLight.Boost

open PickUpLight.Theory PickUpLight.Wire PickUpLight.Control PickUpLight.Heartbeat
  PickUpLight.Replies
open Program (Ends)

/-! ### Handlers -/

/-- What a handler meets. It sends one reply at most. -/
structure Surroundings where
  /-- The reply can be written. -/
  delivers : Bool
  /-- The answer to the `n`-th effect, if it is no send and is not about the session's entry. -/
  answers : ℕ → (e : Effect) → e.Answer

/-- The surroundings of a handler, with the session's entry in the map, and its socket, which may be
closed. -/
def respond (isOpen : Bool) (x : Surroundings) (s : ℕ × Option Info) :
    (e : Effect) → (ℕ × Option Info) × e.Answer
  | .set_0 => ((s.1 + 1, s.2.map fun info => { info with num := 0 }), s.2.isSome)
  | .add_userId userId =>
    ((s.1 + 1, s.2.map fun info => { info with userId := userId }), s.2.isSome)
  | .send _ | .sendFile _ | .sendNoFile => ((s.1 + 1, s.2), isOpen && x.delivers)
  | e => ((s.1 + 1, s.2), x.answers s.1 e)

/-- The handlers of a session. -/
def handlers (lib : Nlohmann) : Handlers Surroundings := fun call isOpen entry x =>
  let (_, s, value) := Program.run (respond isOpen x) (0, entry) (dispatch lib .boost call)
  value.map fun _ => s.2

/-- What a handler meets while the socket is open and has its entry. -/
def attend (x : Surroundings) (n : ℕ) : (e : Effect) → ℕ × e.Answer
  | .set_0 | .add_userId _ => (n + 1, true)
  | .send _ | .sendFile _ | .sendNoFile => (n + 1, x.delivers)
  | e => (n + 1, x.answers n e)

/-- With the entry, a handler does what it does without. -/
theorem ends_respond (x : Surroundings) {n : ℕ} {entry : Option Info} (h : entry.isSome = true)
    {α : Type} {p : Handler α} {Q : ℕ × Option Info → α → Prop}
    (hQ : ∀ s a, s.2.isSome = true → Q s a) :
    Ends (respond true x) Q (n, entry) p ↔ Ends (attend x) (fun _ _ => True) n p := by
  refine Program.ends_related (r := fun s n => s.1 = n ∧ s.2.isSome = true) ?_ ?_ ⟨rfl, h⟩
  · rintro ⟨n, entry⟩ _ e ⟨rfl, hentry⟩
    cases e <;> simp_all [respond, attend]
  · rintro s n a ⟨-, hentry⟩
    exact iff_of_true (hQ s a hentry) trivial

variable {lib : Nlohmann}

section Handlers

variable {x : Surroundings} {entry entry' : Option Info} {call : Call}

/-- The handler of a proper request returns, and the session keeps its entry. -/
theorem handlers_proper (hlib : lib.Writes) (hx : Attending (attend x) x.delivers)
    (h : entry.isSome = true) (hproper : Proper lib (attend x) x.delivers 0 call) :
    ∃ entry', handlers lib call true entry x = some entry' ∧ entry'.isSome = true := by
  rw [← returns_dispatch_iff hx hlib, ← ends_respond x h fun _ _ hsome => hsome,
    Program.ends_iff_run] at hproper
  obtain ⟨a, ha, hsome⟩ := hproper
  refine ⟨_, ?_, hsome⟩
  show Option.map _ (Program.run (respond true x) (0, entry) (dispatch lib .boost call)).2.2 = _
  rw [ha, Option.map_some]

/-- The handler of any other request does not. -/
theorem proper_of_handlers (hlib : lib.Writes) (hx : Attending (attend x) x.delivers)
    (h : entry.isSome = true) (hreturns : handlers lib call true entry x = some entry') :
    Proper lib (attend x) x.delivers 0 call ∧ entry'.isSome = true := by
  obtain ⟨a, ha, -⟩ := Option.map_eq_some_iff.mp hreturns
  have hproper : Proper lib (attend x) x.delivers 0 call := by
    rw [← returns_dispatch_iff hx hlib, ← ends_respond (Q := fun _ _ => True) x h
      fun _ _ _ => trivial, Program.ends_iff_run]
    exact ⟨a, ha, trivial⟩
  obtain ⟨entry'', hentry, hsome⟩ := handlers_proper hlib hx h hproper
  rw [hreturns] at hentry
  cases hentry
  exact ⟨hproper, hsome⟩

end Handlers

/-! ### Clients -/

/-- The session has ended without an exception, it is off the map, and its socket is closed. -/
def Session.Clean (s : Session) : Prop := s.phase = .ended ∧ s.entry = none ∧ s.isOpen = false

/-- A step is one the network and the sweep leave alone: a header is received in one piece, or what
there is of it, and the sweep does not evict the connection in the middle of a request. The handlers
meet their surroundings. -/
def Undisturbed (surroundings : ℕ → Surroundings) (s : Session) : Event Surroundings → Prop
  | .receive n => n = min headerSize s.left.length
  | .handle x => x = surroundings (s.calls.length - 1)
  | .evict => s.phase = .receiving
  | _ => True

/-- A run of a session whose client sends `bytes`, and then `fault`. -/
def Runs (lib : Nlohmann) (surroundings : ℕ → Surroundings) (bytes : List UInt8) (fault : Fault)
    (events : List (Event Surroundings)) (s : Session) : Prop :=
  ∃ raw, (session (handlers lib)).exec (Session.start raw bytes (some fault)) events = some s ∧
    (session (handlers lib)).Guarded (Undisturbed surroundings)
      (Session.start raw bytes (some fault)) events

/-- **A client's session ends clean**, whatever the memory of its header and however its bytes
arrive. -/
structure EndsClean (lib : Nlohmann) (surroundings : ℕ → Surroundings) (bytes : List UInt8)
    (fault : Fault) : Prop where
  /-- Its end is clean. -/
  clean : ∀ events s, Runs lib surroundings bytes fault events s → s.done = true → s.Clean
  /-- Until then, it goes on. -/
  goesOn : ∀ events s, Runs lib surroundings bytes fault events s → s.done = false →
    ∃ e s', Undisturbed surroundings s e ∧ session (handlers lib) s e = some s'
  /-- It does not go on for ever. -/
  bounded : ∃ limit, ∀ events s, Runs lib surroundings bytes fault events s → events.length ≤ limit

/-- A request is whole and proper: what its header announces follows, there is a block for it, and
if it is handed over, its handler returns. It is the `k`-th that is handed over. -/
structure ProperRequest (lib : Nlohmann) (surroundings : ℕ → Surroundings) (k : ℕ)
    (h : NetPacketHeader) (bytes : List UInt8) : Prop where
  /-- What follows. -/
  whole : demand h ≤ bytes.length
  /-- The block. -/
  block : h.IsFile → h.data_size.toNat ≠ 2 ^ 32 - 1
  /-- The handler. -/
  proper : ∀ call, handed h (bytes.take (demand h)) = some call →
    Proper lib (attend (surroundings k)) (surroundings k).delivers 0 call

/-- **Bytes that are proper requests**, one after the other: `raw` is the memory of the header, and
`k` the number of those that have been handed over. -/
inductive AllProper (lib : Nlohmann) (surroundings : ℕ → Surroundings) :
    RawHeader → ℕ → List UInt8 → Prop where
  /-- There are no more. -/
  | nil (raw : RawHeader) (k : ℕ) : AllProper lib surroundings raw k []
  /-- A request, and those behind it. -/
  | cons {raw raw' : RawHeader} {k : ℕ} {bytes rest : List UInt8} (hne : bytes ≠ [])
    (hraw : raw' = raw.overwrite (bytes.take headerSize)) (hrest : rest = bytes.drop headerSize)
    (hproper : ProperRequest lib surroundings k raw'.header rest)
    (hall : AllProper lib surroundings raw'
      (k + (handed raw'.header (rest.take (demand raw'.header))).toList.length)
      (rest.drop (demand raw'.header))) : AllProper lib surroundings raw k bytes

/-- The first request, and those behind it. -/
theorem AllProper.head {surroundings : ℕ → Surroundings} {raw : RawHeader} {k : ℕ}
    {bytes : List UInt8} (h : AllProper lib surroundings raw k bytes) (hne : bytes ≠ []) :
    let raw' := raw.overwrite (bytes.take headerSize)
    let rest := bytes.drop headerSize
    ProperRequest lib surroundings k raw'.header rest ∧
      AllProper lib surroundings raw'
        (k + (handed raw'.header (rest.take (demand raw'.header))).toList.length)
        (rest.drop (demand raw'.header)) := by
  cases h with
  | nil => exact absurd rfl hne
  | cons _ hraw hrest hproper hall =>
    subst hraw hrest
    exact ⟨hproper, hall⟩

/-- A whole packet, and proper requests behind it. -/
theorem AllProper.packet {surroundings : ℕ → Surroundings} {header : NetPacketHeader}
    {body bytes : List UInt8} {k : ℕ} (hwhole : demand header = body.length)
    (hblock : header.IsFile → header.data_size.toNat ≠ 2 ^ 32 - 1)
    (hproper : ∀ call, handed header body = some call →
      Proper lib (attend (surroundings k)) (surroundings k).delivers 0 call)
    (hall : ∀ raw, AllProper lib surroundings raw (k + (handed header body).toList.length) bytes)
    (raw : RawHeader) :
    AllProper lib surroundings raw k (header.bytes ++ (body ++ bytes)) := by
  have hlen := header.length_bytes
  have htake : (header.bytes ++ (body ++ bytes)).take headerSize = header.bytes :=
    List.take_left' hlen
  have hbody : (body ++ bytes).take (demand header) = body := List.take_left' hwhole.symm
  have hnext : (body ++ bytes).drop (demand header) = bytes := List.drop_left' hwhole.symm
  refine @AllProper.cons _ _ raw (raw.overwrite header.bytes) k _ (body ++ bytes) ?_
    (by rw [htake]) (List.drop_left' hlen).symm ?_ ?_
  · intro hnil
    have hzero := congrArg List.length hnil
    rw [List.length_append, hlen] at hzero
    exact absurd hzero (by simp [headerSize])
  · rw [RawHeader.header_overwrite]
    refine ⟨by rw [hwhole, List.length_append]; exact Nat.le_add_right _ _, hblock, ?_⟩
    rwa [hbody]
  · rw [RawHeader.header_overwrite, hbody, hnext]
    exact hall _

variable {surroundings : ℕ → Surroundings} {s s' : Session} {e : Event Surroundings}
  {raw : RawHeader} {bytes : List UInt8} {calls : List Call} {fault : Fault}

/-! ### One request -/

/-- A request is under way, for the header in the memory: the socket is open and has its entry. -/
structure Busy (raw : RawHeader) (bytes : List UInt8) (calls : List Call) (fault : Fault)
    (s : Session) : Prop where
  header : s.m_pheader = raw
  fault : s.fault = some fault
  isOpen : s.isOpen = true
  entry : s.entry.isSome = true
  serving : Serving raw.header bytes calls s

/-- **What a step comes to while a request is under way.** -/
inductive Outcome (lib : Nlohmann) (surroundings : ℕ → Surroundings) (raw : RawHeader)
    (bytes : List UInt8) (calls : List Call) (fault : Fault) (s : Session) : Prop where
  /-- It still is. -/
  | busy (hreceiving : s.phase ≠ .receiving) (hdone : s.done = false)
    (h : Busy raw bytes calls fault s)
  /-- The session waits for the next header: the request was proper. -/
  | served (hreceiving : s.phase = .receiving) (h : Busy raw bytes calls fault s)
    (hproper : ProperRequest lib surroundings calls.length raw.header bytes)
  /-- An exception has escaped, or the block was too small: it was not. -/
  | failed (hphase : s.phase = .escaped ∨ s.phase = .overrun)
    (hnot : ¬ ProperRequest lib surroundings calls.length raw.header bytes)

/-- What becomes of what has been read. -/
theorem afterRead_cases (hr : s.reading = true) (data : List UInt8) :
    s.afterRead data = { s with phase := .receiving } ∧ s.phase ≠ .fileInfo ∨
      (∃ payload, s.afterRead data = s.hand payload) ∨
        s.afterRead data = { s with phase := .fileData data } := by
  rcases Session.reading_iff.mp hr with hp | hp | ⟨info, hp⟩ <;> simp only [Session.afterRead, hp]
  · split
    · exact .inl ⟨rfl, by simp⟩
    · exact .inr (.inl ⟨_, rfl⟩)
  · exact .inr (.inr trivial)
  · split
    · exact .inl ⟨rfl, by simp⟩
    · exact .inr (.inl ⟨_, rfl⟩)

/-- A request that has been read to its end without a handler is proper. -/
theorem Busy.unhanded (h : Busy raw bytes calls fault s) (hr : s.reading = true)
    (hinfo : s.phase ≠ .fileInfo) (hover : ¬ (s.overflows = true ∧ s.avail ≠ []))
    (hwanted : s.wanted ≤ s.avail.length) (hserved : Served raw.header bytes calls s')
    (hcalls : s'.calls = s.calls) :
    ProperRequest lib surroundings calls.length raw.header bytes := by
  obtain ⟨hwhole, -, hlist⟩ := hserved
  have hnone : handed raw.header (bytes.take (demand raw.header)) = none := by
    rw [hcalls, h.serving.calls_reading hr] at hlist
    simpa using hlist
  refine ⟨hwhole, fun hfile hsize => ?_, fun call hcall => ?_⟩
  · have hserving := h.serving
    rcases Session.reading_iff.mp hr with hp | hp | ⟨info, hp⟩
    · simp only [Serving, hp] at hserving
      exact hserving.2.1.not_isFile hfile
    · exact hinfo hp
    · simp only [Serving, hp] at hserving
      -- the block is too small, and there is something to be read
      have hwant : s.wanted = 2 ^ 32 - 1 := by simp only [Session.wanted, hp, hserving.1, hsize]
      refine hover ⟨?_, ?_⟩
      · simp only [Session.overflows, hp, hserving.1, decide_eq_true_eq, UInt32.toNat_add, hsize]
        decide
      · rintro hnil
        rw [hwant, hnil] at hwanted
        exact absurd hwanted (by decide)
  · rw [hnone] at hcall
    cases hcall

/-- **What a step does to a request.** -/
theorem Busy.step (hlib : lib.Writes)
    (hsurr : ∀ k, Attending (attend (surroundings k)) (surroundings k).delivers)
    (h : Busy raw bytes calls fault s) (hreceiving : s.phase ≠ .receiving) (hdone : s.done = false)
    (hG : Undisturbed surroundings s e) (he : session (handlers lib) s e = some s') :
    Outcome lib surroundings raw bytes calls fault s' := by
  have hstep : (∀ n, e ≠ .receive n) → Serving raw.header bytes calls s' :=
    fun hne => h.serving.step hne he
  cases e with
  | arrive n =>
    have hserving := hstep (by simp)
    clear hstep
    simp only [session] at he
    split at he <;> cases he
    exact .busy hreceiving hdone ⟨h.header, h.fault, h.isOpen, h.entry, hserving⟩
  | receive n =>
    simp only [session] at he
    split at he
    · rename_i hc
      exact absurd hc.1 hreceiving
    · cases he
  | receiveError => simp [session, hreceiving] at he
  | read =>
    have hserving := hstep (by simp)
    clear hstep
    simp only [session] at he
    split at he
    · rename_i hr
      split at he
      · cases he
        exact .failed (.inr rfl) fun hproper => hproper.block hserving.1 hserving.2.1
      · rename_i hover
        split at he <;> cases he
        rename_i hwanted
        let t : Session := { s with avail := s.avail.drop s.wanted }
        rcases afterRead_cases (s := t) hr (s.avail.take s.wanted) with
          ⟨heq, hinfo⟩ | ⟨payload, heq⟩ | heq
        · change Serving _ _ _ (t.afterRead _) at hserving
          show Outcome _ _ _ _ _ _ (t.afterRead _)
          rw [heq] at hserving ⊢
          exact .served rfl ⟨h.header, h.fault, h.isOpen, h.entry, hserving⟩
            (h.unhanded hr hinfo hover hwanted.2 hserving rfl)
        · change Serving _ _ _ (t.afterRead _) at hserving
          show Outcome _ _ _ _ _ _ (t.afterRead _)
          rw [heq] at hserving ⊢
          exact .busy (by rintro ⟨⟩) rfl ⟨h.header, h.fault, h.isOpen, h.entry, hserving⟩
        · change Serving _ _ _ (t.afterRead _) at hserving
          show Outcome _ _ _ _ _ _ (t.afterRead _)
          rw [heq] at hserving ⊢
          exact .busy (by rintro ⟨⟩) rfl ⟨h.header, h.fault, h.isOpen, h.entry, hserving⟩
    · cases he
  | readError =>
    simp only [session] at he
    split at he <;> cases he
    rename_i hc
    refine .failed (.inl rfl) fun hproper => ?_
    rcases hc.2.2 with ⟨hclosed, -⟩ | ⟨hshort, hin, -⟩
    · rw [h.isOpen] at hclosed
      cases hclosed
    · have hleft : s.left.length < s.wanted := by rwa [Session.left, hin, List.append_nil]
      exact absurd hproper.whole (Nat.not_le.mpr (h.serving.short hc.1 hleft))
  | handle x =>
    have hserving := hstep (by simp)
    clear hstep
    obtain ⟨call, hphase⟩ : ∃ call, s.phase = .handling call := by
      simp only [session] at he
      split at he
      · exact ⟨_, ‹_›⟩
      · cases he
    have hhanded := h.serving
    simp only [Serving, hphase] at hhanded
    obtain ⟨hcall, hwhole, -, hlist⟩ := hhanded
    have hx : x = surroundings calls.length := by
      rw [hcall] at hlist
      change x = surroundings (s.calls.length - 1) at hG
      rw [hG, hlist]
      simp
    subst hx
    simp only [session, hphase, h.isOpen] at he
    split at he
    · rename_i entry' hreturns
      cases he
      obtain ⟨hproper, hsome⟩ := proper_of_handlers hlib (hsurr _) h.entry hreturns
      refine .served rfl ⟨h.header, h.fault, rfl, hsome, hserving⟩
        ⟨hwhole, fun hfile hsize => ?_, fun call' hcall' => ?_⟩
      · rw [handed_file hfile, if_pos ((refused_all _).mpr (.inl hsize))] at hcall
        cases hcall
      · rw [hcall] at hcall'
        cases hcall'
        exact hproper
    · rename_i hthrows
      cases he
      refine .failed (.inl rfl) fun hproper => ?_
      obtain ⟨entry', hreturns, -⟩ :=
        handlers_proper hlib (hsurr _) h.entry (hproper.proper call hcall)
      rw [hthrows] at hreturns
      cases hreturns
  | evict => exact absurd hG hreceiving

/-- **A header is received**, and its request begins. -/
theorem outcome_receive {n : ℕ} (hfault : s.fault = some fault) (hentry : s.entry.isSome = true)
    (hG : Undisturbed surroundings s (.receive n))
    (he : session (handlers lib) s (.receive n) = some s') :
    s.left ≠ [] ∧ Outcome lib surroundings (s.m_pheader.overwrite (s.left.take headerSize))
      (s.left.drop headerSize)
      s.calls fault s' := by
  simp only [session] at he
  split at he <;> cases he
  rename_i hc
  obtain ⟨-, hopen, hpos, -, hle⟩ := hc
  change n = min headerSize s.left.length at hG
  have htake : s.avail.take n = s.left.take headerSize := by
    rw [← List.take_append_of_le_length hle, ← Session.left, hG, ← List.take_eq_take_min]
  have hdrop : s.avail.drop n ++ s.incoming = s.left.drop headerSize := by
    rw [← List.drop_append_of_le_length hle, ← Session.left, hG, ← List.drop_eq_drop_min]
  refine ⟨fun hnil => ?_, ?_⟩
  · rw [hnil] at hG
    simp at hG
    omega
  generalize ht :
    ({ s with m_pheader := s.m_pheader.overwrite (s.avail.take n), avail := s.avail.drop n } :
    Session) = t
  have hheader : t.m_pheader = s.m_pheader.overwrite (s.left.take headerSize) := by rw [← ht, htake]
  have hopen : t.isOpen = true := by rw [← ht, hopen]
  have hfault : t.fault = some fault := by rw [← ht, hfault]
  have hentry : t.entry.isSome = true := by rw [← ht, hentry]
  have hserving : Serving (s.m_pheader.overwrite (s.left.take headerSize)).header
      (s.left.drop headerSize) s.calls t.processSingleRequest :=
    serving_start (by rw [Session.header, hheader]) (by rw [← ht]; exact hdrop) (by rw [← ht])
  rw [← hheader] at hserving ⊢
  cases hp : Purpose.ofCode t.header.purpose with
  | none =>
    simp only [Session.processSingleRequest, hp] at hserving ⊢
    have hidle : t.m_pheader.header.IsIdle := .inl hp
    refine .served rfl ⟨rfl, hfault, hopen, hentry, hserving⟩
      ⟨?_, fun hfile => absurd hfile hidle.not_isFile, ?_⟩
    · rw [demand_idle hidle]
      exact Nat.zero_le _
    · intro call hcall
      have hnone : Purpose.ofCode t.m_pheader.header.purpose = none := hp
      simp only [handed, hnone] at hcall
      cases hcall
  | some p =>
    cases p <;> simp only [Session.processSingleRequest, hp] at hserving ⊢ <;>
      exact .busy (by rintro ⟨⟩) rfl ⟨rfl, hfault, hopen, hentry, hserving⟩

/-! ### Sessions that end clean -/

/-- **The invariant** of the sessions of orderly clients. -/
inductive InOrder (lib : Nlohmann) (surroundings : ℕ → Surroundings) (s : Session) : Prop where
  /-- Between two requests: what is left are proper ones. -/
  | between (hphase : s.phase = .receiving) (hfault : s.fault = some .eof) (hopen : s.isOpen = true)
    (hentry : s.entry.isSome = true)
    (hall : AllProper lib surroundings s.m_pheader s.calls.length s.left)
  /-- In a proper request. -/
  | within {bytes : List UInt8} {calls : List Call} (hphase : s.phase ≠ .receiving)
    (hdone : s.done = false)
    (hbusy : Busy s.m_pheader bytes calls .eof s)
    (hproper : ProperRequest lib surroundings calls.length s.m_pheader.header bytes)
    (hall : AllProper lib surroundings s.m_pheader (calls.length +
      (handed s.m_pheader.header (bytes.take (demand s.m_pheader.header))).toList.length)
        (bytes.drop (demand s.m_pheader.header)))
  /-- At its end, or evicted between two requests. -/
  | finished (hphase : s.phase = .receiving ∨ s.phase = .ended) (hopen : s.isOpen = false)
    (hentry : s.entry = none)

theorem InOrder.of_outcome (h : Outcome lib surroundings raw bytes calls .eof s)
    (hproper : ProperRequest lib surroundings calls.length raw.header bytes)
    (hall : AllProper lib surroundings raw
      (calls.length + (handed raw.header (bytes.take (demand raw.header))).toList.length)
      (bytes.drop (demand raw.header))) : InOrder lib surroundings s := by
  cases h with
  | busy hreceiving hdone hbusy =>
    obtain rfl := hbusy.header
    exact .within hreceiving hdone hbusy hproper hall
  | served hreceiving hbusy _ =>
    obtain rfl := hbusy.header
    have hserving := hbusy.serving
    simp only [Serving, hreceiving] at hserving
    obtain ⟨-, hleft, hcalls⟩ := hserving
    refine .between hreceiving hbusy.fault hbusy.isOpen hbusy.entry ?_
    rw [hleft, hcalls, List.length_append]
    exact hall
  | failed hphase hnot => exact absurd hproper hnot

theorem InOrder.step (hlib : lib.Writes)
    (hsurr : ∀ k, Attending (attend (surroundings k)) (surroundings k).delivers)
    (h : InOrder lib surroundings s) (hG : Undisturbed surroundings s e)
    (he : session (handlers lib) s e = some s') :
    InOrder lib surroundings s' := by
  cases h with
  | between hphase hfault hopen hentry hall =>
    cases e with
    | arrive n =>
      simp only [session] at he
      split at he <;> cases he
      refine .between hphase hfault hopen hentry ?_
      rwa [Session.left, List.append_assoc, List.take_append_drop]
    | receive n =>
      obtain ⟨hne, houtcome⟩ := outcome_receive hfault hentry hG he
      obtain ⟨hproper, hrest⟩ := hall.head hne
      exact .of_outcome houtcome hproper hrest
    | receiveError =>
      simp only [session, hphase, if_true, Session.receiveError, hopen, hfault] at he
      split at he
      · cases he
        exact .finished (.inr rfl) rfl rfl
      · cases he
    | read | readError => simp [session, Session.reading, hphase] at he
    | handle x => simp [session, hphase] at he
    | evict =>
      simp only [session] at he
      split at he <;> cases he
      exact .finished (.inl hphase) rfl rfl
  | within hphase hdone hbusy hproper hall =>
    exact .of_outcome (hbusy.step hlib hsurr hphase hdone hG he) hproper hall
  | finished hphase hopen hentry =>
    cases e with
    | arrive n =>
      simp only [session] at he
      split at he <;> cases he
      exact .finished hphase hopen hentry
    | receive n => simp [session, hopen] at he
    | receiveError =>
      simp only [session, Session.receiveError, hopen] at he
      split at he <;> cases he
      exact .finished (.inr rfl) rfl hentry
    | read | readError => rcases hphase with hp | hp <;> simp [session, Session.reading, hp] at he
    | handle x => rcases hphase with hp | hp <;> simp [session, hp] at he
    | evict => simp [session, hentry] at he

/-- A read completes or throws, once everything has arrived. -/
theorem exists_read (lib : Nlohmann) (hr : s.reading = true) (hopen : s.isOpen = true)
    (hin : s.incoming = []) (hfault : s.fault = some fault) :
    (session (handlers lib) s .read).isSome = true ∨
      (session (handlers lib) s .readError).isSome = true := by
  by_cases hover : s.overflows = true ∧ s.avail ≠ []
  · left
    simp only [session, hr, if_true, if_pos hover, Option.isSome_some]
  · by_cases hwanted : s.wanted ≤ s.avail.length
    · left
      have hread : (s.isOpen = true ∨ s.wanted = 0) ∧ s.wanted ≤ s.avail.length :=
        ⟨.inl hopen, hwanted⟩
      simp only [session, hr, if_true, if_neg hover, if_pos hread, Option.isSome_some]
    · right
      have hshort : s.avail.length < s.wanted := Nat.lt_of_not_le hwanted
      simp [session, hr, hover, hshort, hin, hfault]

/-- **A session goes on until it is at its end**, and needs no eviction for it. -/
theorem exists_step (lib : Nlohmann) (surroundings : ℕ → Surroundings)
    (hfault : s.fault = some fault) (hopen : s.isOpen = true) (hdone : s.done = false) :
    ∃ e, e ≠ .evict ∧ Undisturbed surroundings s e ∧
      (session (handlers lib) s e).isSome = true := by
  by_cases hin : s.incoming = []
  · cases hphase : s.phase with
    | receiving =>
      cases havail : s.avail with
      | nil =>
        refine ⟨.receiveError, by simp, trivial, ?_⟩
        cases fault <;> simp [session, hphase, Session.receiveError, hopen, havail, hin, hfault]
      | cons b l =>
        refine ⟨.receive (min headerSize s.left.length), by simp, rfl, ?_⟩
        have hpos : 0 < min headerSize (l.length + 1) := Nat.lt_min.mpr ⟨by decide, Nat.succ_pos _⟩
        simp [session, hphase, hopen, Session.left, havail, hin, hpos]
    | handling call =>
      refine ⟨.handle (surroundings (s.calls.length - 1)), by simp, rfl, ?_⟩
      simp only [session, hphase]
      split <;> rfl
    | body | fileInfo | fileData =>
      have hr : s.reading = true := by simp [Session.reading, hphase]
      rcases exists_read lib hr hopen hin hfault with hread | hthrows
      · exact ⟨.read, by simp, trivial, hread⟩
      · exact ⟨.readError, by simp, trivial, hthrows⟩
    | ended | escaped | overrun => simp [Session.done, hphase] at hdone
  · refine ⟨.arrive s.incoming.length, by simp, trivial, ?_⟩
    simp [session, List.length_pos_of_ne_nil hin]

/-- What a phase has before it, up to the next header. -/
def Phase.ahead : Phase → ℕ
  | .receiving => 1
  | .handling _ => 3
  | .body | .fileData _ => 4
  | .fileInfo => 5
  | .ended | .escaped | .overrun => 0

/-- An entry may be evicted. -/
def evictions (entry : Option Info) : ℕ := entry.toList.length

/-- There is one entry at most. -/
theorem evictions_le (entry : Option Info) : evictions entry ≤ 1 := by
  cases entry <;> simp [evictions]

/-- What a session has before it: every byte arrives and is received, and may be a request of its
own. -/
def Session.ahead (s : Session) : ℕ :=
  6 * s.incoming.length + 5 * s.avail.length + evictions s.entry + s.phase.ahead

theorem ahead_processSingleRequest (s : Session) :
    s.processSingleRequest.ahead ≤ { s with phase := .fileInfo }.ahead := by
  unfold Session.processSingleRequest
  split <;> simp only [Session.ahead, Session.hand, Phase.ahead] <;> omega

/-- A read leads on. -/
theorem ahead_afterRead (hr : s.reading = true) (data : List UInt8) :
    (s.afterRead data).ahead < s.ahead := by
  rcases Session.reading_iff.mp hr with hp | hp | ⟨info, hp⟩ <;> simp only [Session.afterRead, hp]
  · split <;> simp only [Session.ahead, Session.hand, Phase.ahead, hp] <;> omega
  · simp only [Session.ahead, Phase.ahead, hp]
    omega
  · split <;> simp only [Session.ahead, Session.hand, Phase.ahead, hp] <;> omega

/-- A session that reads is not at its end. -/
theorem ahead_stop {phase : Phase} (hr : s.reading = true) (hstop : phase.ahead = 0) :
    { s with phase := phase }.ahead < s.ahead := by
  have hpos : 0 < s.phase.ahead := by
    rcases Session.reading_iff.mp hr with hp | hp | ⟨info, hp⟩ <;> simp only [hp, Phase.ahead] <;>
      omega
  simp only [Session.ahead, hstop]
  omega

/-- Every step is one step less. -/
theorem ahead_lt (he : session (handlers lib) s e = some s') : s'.ahead < s.ahead := by
  cases e with
  | arrive n =>
    simp only [session] at he
    split at he <;> cases he
    simp only [Session.ahead, List.length_append, List.length_take, List.length_drop]
    omega
  | receive n =>
    simp only [session] at he
    split at he <;> cases he
    rename_i hc
    refine (ahead_processSingleRequest _).trans_lt ?_
    simp only [Session.ahead, List.length_drop, Phase.ahead, hc.1]
    omega
  | receiveError =>
    simp only [session] at he
    split at he
    · rename_i hphase
      have hless : ∀ entry fault isOpen, evictions entry ≤ evictions s.entry →
          { s with phase := .ended, entry := entry, fault := fault, isOpen := isOpen }.ahead <
            s.ahead := by
        intro entry fault isOpen hle
        simp only [Session.ahead, hphase, Phase.ahead]
        omega
      unfold Session.receiveError at he
      split at he
      · split at he
        · split at he <;> cases he
          · exact hless none s.fault false (Nat.zero_le _)
          · exact hless s.entry s.fault s.isOpen le_rfl
        · cases he
      · cases he
        exact hless s.entry s.fault false le_rfl
    · cases he
  | read =>
    simp only [session] at he
    split at he
    · rename_i hr
      split at he
      · cases he
        exact ahead_stop hr rfl
      · split at he <;> cases he
        have hread :=
          ahead_afterRead (s := { s with avail := s.avail.drop s.wanted }) hr
            (s.avail.take s.wanted)
        refine hread.trans_le ?_
        simp only [Session.ahead, List.length_drop]
        omega
    · cases he
  | readError =>
    simp only [session] at he
    split at he <;> cases he
    rename_i hc
    exact ahead_stop hc.1 rfl
  | handle x =>
    simp only [session] at he
    split at he
    · rename_i hphase
      split at he <;> cases he
      · rename_i entry' _
        have hle := evictions_le entry'
        simp only [Session.ahead, hphase, Phase.ahead]
        omega
      · simp only [Session.ahead, hphase, Phase.ahead]
        omega
    · cases he
  | evict =>
    simp only [session] at he
    split at he <;> cases he
    rename_i hc
    obtain ⟨info, hentry⟩ := Option.isSome_iff_exists.mp hc.1
    simp [Session.ahead, evictions, hentry]

/-- **Clients that send proper requests.** -/
theorem endsClean_of_allProper (hlib : lib.Writes)
    (hsurr : ∀ k, Attending (attend (surroundings k)) (surroundings k).delivers)
    (hall : ∀ raw, AllProper lib surroundings raw 0 bytes) :
    EndsClean lib surroundings bytes .eof := by
  have hrun : ∀ events s, Runs lib surroundings bytes .eof events s →
      InOrder lib surroundings s := by
    rintro events s ⟨raw, hrun, hG⟩
    exact (session (handlers lib)).exec_inv_guarded (fun _ _ _ hs hG he => hs.step hlib hsurr hG he)
      (.between rfl rfl rfl rfl (hall raw)) hG hrun
  refine ⟨fun events s hr hdone => ?_, fun events s hr hdone => ?_, 6 * bytes.length + 2, ?_⟩
  · cases hrun events s hr with
    | between hphase => simp [Session.done, hphase] at hdone
    | within _ hnot => exact absurd (hnot.symm.trans hdone) (by decide)
    | finished hphase hopen hentry =>
      refine ⟨hphase.resolve_left fun hp => ?_, hentry, hopen⟩
      simp [Session.done, hp] at hdone
  · have hstep : s.fault = some .eof → s.isOpen = true →
        ∃ e s', Undisturbed surroundings s e ∧ session (handlers lib) s e = some s' := by
      intro hfault hopen
      obtain ⟨e, -, hG, he⟩ := exists_step lib surroundings hfault hopen hdone
      obtain ⟨s', hs'⟩ := Option.isSome_iff_exists.mp he
      exact ⟨e, s', hG, hs'⟩
    cases hrun events s hr with
    | between _ hfault hopen => exact hstep hfault hopen
    | within _ _ hbusy => exact hstep hbusy.fault hbusy.isOpen
    | finished hphase hopen =>
      have hreceiving : s.phase = .receiving := by
        refine hphase.resolve_right fun hp => ?_
        simp [Session.done, hp] at hdone
      exact ⟨.receiveError, _,
        trivial, by simp only [session, hreceiving, if_true, Session.receiveError, hopen]; rfl⟩
  · rintro events s ⟨raw, hexec, -⟩
    have hlen :=
      (session (handlers lib)).exec_length_le (I := fun _ => True)
        (fun _ _ _ _ he => ⟨trivial, ahead_lt he⟩)
      trivial hexec
    simpa [Session.ahead, Session.start, Phase.ahead, evictions] using hlen

/-! ### Clients whose sessions end clean -/

/-- Everything that is on its way has arrived. -/
def Session.arrived (s : Session) : Session := { s with avail := s.left, incoming := [] }

@[simp] theorem left_arrived : s.arrived.left = s.left := List.append_nil _

theorem exists_arrived (lib : Nlohmann) (surroundings : ℕ → Surroundings) (s : Session) :
    ∃ events, (session (handlers lib)).exec s events = some s.arrived ∧
      (session (handlers lib)).Guarded (Undisturbed surroundings) s events := by
  by_cases hin : s.incoming = []
  · refine ⟨[], ?_, trivial⟩
    rw [Machine.exec_nil, Session.arrived, Session.left, hin, List.append_nil, ← hin]
  · refine ⟨[.arrive s.incoming.length], ?_, by simp [Undisturbed]⟩
    rw [Machine.exec_singleton]
    simp [session, List.length_pos_of_ne_nil hin, Session.arrived, Session.left]

/-- **A request comes to its end**: the session waits for the next header, or it has failed. -/
theorem Busy.settles (hlib : lib.Writes)
    (hsurr : ∀ k, Attending (attend (surroundings k)) (surroundings k).delivers)
    (h : Outcome lib surroundings raw bytes calls fault s) :
    ∃ events t, (session (handlers lib)).exec s events = some t ∧
      (session (handlers lib)).Guarded (Undisturbed surroundings) s events ∧
        ((t.phase = .receiving ∧ Busy raw bytes calls fault t ∧
          ProperRequest lib surroundings calls.length raw.header bytes) ∨ t.phase = .escaped ∨
          t.phase = .overrun) := by
  induction hn : s.ahead using Nat.strong_induction_on generalizing s with
  | _ n ih =>
    cases h with
    | busy hreceiving hdone hbusy =>
      obtain ⟨e, -, hG, he⟩ := exists_step lib surroundings hbusy.fault hbusy.isOpen hdone
      obtain ⟨s', hs'⟩ := Option.isSome_iff_exists.mp he
      obtain ⟨events, t, hrun, hguarded, ht⟩ :=
        ih s'.ahead (hn ▸ ahead_lt hs') (hbusy.step hlib hsurr hreceiving hdone hG hs') rfl
      exact ⟨e :: events, t, (Machine.exec_cons_iff _).mpr ⟨s', hs', hrun⟩,
        (Machine.guarded_cons_iff _ hs').mpr ⟨hG, hguarded⟩, ht⟩
    | served hreceiving hbusy hproper =>
      exact ⟨[], s, rfl, trivial, .inl ⟨hreceiving, hbusy, hproper⟩⟩
    | failed hphase hnot => exact ⟨[], s, rfl, trivial, .inr hphase⟩

/-- A run goes on. -/
theorem Runs.trans {events events' : List (Event Surroundings)}
    (h : Runs lib surroundings bytes fault events s)
    (hrun : (session (handlers lib)).exec s events' = some s')
    (hG : (session (handlers lib)).Guarded (Undisturbed surroundings) s events') :
    Runs lib surroundings bytes fault (events ++ events') s' := by
  obtain ⟨raw, hexec, hguarded⟩ := h
  exact ⟨raw, Machine.exec_trans _ hexec hrun, (Machine.guarded_append_iff _ hexec).mpr
    ⟨hguarded, hG⟩⟩

/-- One more step. -/
theorem Runs.step {events : List (Event Surroundings)}
    (h : Runs lib surroundings bytes fault events s) (hG : Undisturbed surroundings s e)
    (he : session (handlers lib) s e = some s') :
    Runs lib surroundings bytes fault (events ++ [e]) s' :=
  h.trans ((Machine.exec_singleton _ _ _).trans he) (Machine.guarded_singleton _ |>.mpr hG)

/-- A header can be received once everything has arrived. -/
theorem exists_received (lib : Nlohmann) (hphase : s.phase = .receiving) (hopen : s.isOpen = true)
    (hleft : s.left ≠ []) :
    ∃ t, session (handlers lib) s.arrived (.receive (min headerSize s.arrived.left.length)) =
      some t := by
  have hpos : 0 < min headerSize s.left.length :=
    Nat.lt_min.mpr ⟨by decide, List.length_pos_of_ne_nil hleft⟩
  rw [left_arrived]
  simp only [session, Session.arrived, hphase, hopen, hpos, Nat.min_le_left, Nat.min_le_right,
    and_self, if_true]
  exact ⟨_, rfl⟩

/-- A receive fails where nothing is left. -/
theorem Runs.receiveError {events : List (Event Surroundings)} {value : ℕ}
    (h : Runs lib surroundings bytes fault events s.arrived)
    (hphase : s.phase = .receiving) (hopen : s.isOpen = true) (hleft : s.left = [])
    (hfault : s.fault = some (.other value)) :
    Runs lib surroundings bytes fault (events ++ [.receiveError])
      { s.arrived with phase := .ended } := by
  refine h.step trivial ?_
  simp [session, Session.arrived, hphase, Session.receiveError, hopen, hleft, hfault]

/-- **What is left between two requests are proper ones**, if the session ends clean. -/
theorem EndsClean.left (hlib : lib.Writes)
    (hsurr : ∀ k, Attending (attend (surroundings k)) (surroundings k).delivers)
    (h : EndsClean lib surroundings bytes fault) {events : List (Event Surroundings)}
    (hruns : Runs lib surroundings bytes fault events s) (hphase : s.phase = .receiving)
    (hopen : s.isOpen = true) (hentry : s.entry.isSome = true) (hfault : s.fault = some fault) :
    fault = .eof ∧ AllProper lib surroundings s.m_pheader s.calls.length s.left := by
  induction hn : s.left.length using Nat.strong_induction_on generalizing s events with
  | _ n ih =>
    obtain ⟨events₁, harrived, hG₁⟩ := exists_arrived lib surroundings s
    have hruns₁ := hruns.trans harrived hG₁
    by_cases hleft : s.left = []
    · refine ⟨?_, hleft ▸ .nil _ _⟩
      cases fault with
      | eof => rfl
      | other value =>
        -- the error is printed, and the entry stays
        have hlost := hruns₁.receiveError hphase hopen hleft hfault
        have hclean := (h.clean _ _ hlost rfl).2.1
        exact absurd hclean (Option.isSome_iff_ne_none.mp hentry)
    · obtain ⟨u, hu⟩ := exists_received lib hphase hopen hleft
      have hreceived := hruns₁.step (e := .receive (min headerSize s.arrived.left.length)) rfl hu
      obtain ⟨-, houtcome⟩ := outcome_receive (s := s.arrived) hfault hentry rfl hu
      rw [left_arrived] at houtcome
      obtain ⟨events₂, t, hrun, hG₂, hend⟩ := Busy.settles hlib hsurr houtcome
      have hruns₂ := hreceived.trans hrun hG₂
      rcases hend with ⟨hreceiving, hbusy, hproper⟩ | hfailed
      · have hserving := hbusy.serving
        simp only [Serving, hreceiving] at hserving
        obtain ⟨-, hrest, hcalls⟩ := hserving
        have hshorter : t.left.length < n := by
          rw [hrest, List.length_drop, List.length_drop, ← hn]
          have hpos := List.length_pos_of_ne_nil hleft
          have hheader : 0 < headerSize := by decide
          omega
        obtain ⟨heof, hall⟩ :=
          ih _ hshorter hruns₂ hreceiving hbusy.isOpen hbusy.entry hbusy.fault rfl
        rw [hbusy.header, hrest, hcalls, List.length_append] at hall
        exact ⟨heof, .cons hleft rfl rfl hproper hall⟩
      · have hdone : t.done = true := by rcases hfailed with hp | hp <;> rw [Session.done, hp]
        have hended := (h.clean _ _ hruns₂ hdone).1
        rcases hfailed with hp | hp <;> rw [hp] at hended <;> cases hended

/-- **Which clients' sessions end clean**: those of clients that close the connection in order and
have sent proper requests, each of them whole. -/
theorem endsClean_iff (lib : Nlohmann) (hlib : lib.Writes) (surroundings : ℕ → Surroundings)
    (hsurr : ∀ k, Attending (attend (surroundings k)) (surroundings k).delivers)
    (bytes : List UInt8) (fault : Fault) :
    EndsClean lib surroundings bytes fault ↔ fault = .eof ∧
      ∀ raw, AllProper lib surroundings raw 0 bytes := by
  constructor
  · intro hclean
    have hleft : ∀ raw, fault = .eof ∧ AllProper lib surroundings raw 0 bytes := by
      intro raw
      have hstart : Runs lib surroundings bytes fault [] (Session.start raw bytes (some fault)) :=
        ⟨raw, rfl, trivial⟩
      exact hclean.left hlib hsurr hstart rfl rfl rfl rfl
    exact ⟨(hleft ⟨List.replicate headerSize 0, rfl⟩).1, fun raw => (hleft raw).2⟩
  · rintro ⟨rfl, hall⟩
    exact endsClean_of_allProper hlib hsurr hall

/-- A request to log in. -/
def loginRequest : Json := .obj [("id", .str "1"), ("pw", .str "2")]

/-- A database that answers no query, and a connection that takes the replies. -/
def unanswered (_ : ℕ) : Surroundings where
  delivers := true
  answers _ e := (sameFiles [] () e).2

theorem attending_unanswered (k : ℕ) : Attending (attend (unanswered k)) true := by
  refine ⟨⟨?_, ?_, ?_, ?_⟩, ?_, ?_, fun _ => ⟨rfl, fun _ => rfl⟩,
    fun _ => ⟨fun _ => rfl, fun _ => rfl, rfl⟩⟩
  · intro _ _ _ _ _ _ h
    cases h
  · intro _ _ _ _ h
    cases h
  · intro _ _ _ _ h
    cases h
  · intro _ _ _ _ _ _ h
    cases h
  · intro _ _ _ h
    cases h
  · intro _ _ h
    cases h

/-- A heartbeat and a login. -/
theorem endsClean_iff_login : EndsClean (knowing [loginRequest]) unanswered
    (NetPacketHeader.bytes { purpose := 0, data_size := 0 } ++
      (NetPacketHeader.bytes { purpose := 2, data_size := 19 } ++ loginRequest.text)) .eof := by
  rw [endsClean_iff _ (writes_knowing _) _ attending_unanswered]
  let login : Call := { header := { purpose := 2, data_size := 19 }, payload := loginRequest.text }
  have hbuffer : cString (buffer login.payload) = some loginRequest.text :=
    (cString_buffer (by decide)).mpr (by decide)
  have hproper : Proper (knowing [loginRequest]) (attend (unanswered 1)) true 0 login :=
    ⟨_, loginRequest, hbuffer, by simp [knowing],
      texts_cons.mpr ⟨⟨"1", rfl⟩, texts_cons.mpr ⟨⟨"2", rfl⟩, texts_nil⟩⟩, rfl⟩
  have hlogin : ∀ raw, AllProper (knowing [loginRequest]) unanswered raw 1
      (login.header.bytes ++ (login.payload ++ [])) := by
    refine AllProper.packet (by decide) (by rintro ⟨⟩) ?_ fun raw => .nil raw _
    intro call hcall
    obtain rfl : call = login := by
      rw [← Option.some.injEq, ← hcall]
      decide
    exact hproper
  rw [List.append_nil] at hlogin
  let heart : NetPacketHeader := { purpose := 0, data_size := 0 }
  have hheart : ∀ raw, AllProper (knowing [loginRequest]) unanswered raw 0
      (heart.bytes ++ ([] ++ (login.header.bytes ++ login.payload))) := by
    refine AllProper.packet rfl (by rintro ⟨⟩) ?_ hlogin
    rintro call ⟨⟩
    trivial
  exact ⟨rfl, hheart⟩

/-- **A request half sent**: the header of a login, and the end where ten bytes are announced. -/
theorem login_half_sent : ¬ ∃ lib surroundings,
    EndsClean lib surroundings (NetPacketHeader.bytes { purpose := 2, data_size := 10 }) .eof := by
  rintro ⟨lib, surroundings, hclean⟩
  let header : NetPacketHeader := { purpose := 2, data_size := 10 }
  let raw : RawHeader := ⟨List.replicate headerSize 0, rfl⟩
  let s := Session.start raw header.bytes (some .eof)
  let t : Session := { s with m_pheader := raw.overwrite header.bytes, incoming := [] }
  have hheader : t.header = header := raw.header_overwrite header
  have hbody : t.processSingleRequest = { t with phase := .body } := by
    unfold Session.processSingleRequest
    rw [hheader]
    rfl
  have hshort : 0 < ({ t with phase := .body } : Session).wanted := by
    show 0 < min t.header.data_size.toNat BUF_SIZE
    rw [hheader]
    decide
  have hruns : Runs lib surroundings header.bytes .eof [] s := ⟨raw, rfl, trivial⟩
  have harrived : Runs lib surroundings header.bytes .eof [.arrive headerSize] s.arrived :=
    hruns.step trivial rfl
  have hreceived : Runs lib surroundings header.bytes .eof [.arrive headerSize, .receive headerSize]
      { t with phase := .body } := by
    refine harrived.step rfl ?_
    rw [← hbody]
    rfl
  have hcut : session (handlers lib) { t with phase := .body } .readError =
      some { t with phase := .escaped } :=
    if_pos ⟨rfl, fun hover => hover.2 rfl, .inr ⟨hshort, rfl, rfl⟩⟩
  have hended := (hclean.clean _ _ (hreceived.step (e := .readError) trivial hcut) rfl).1
  cases hended

end PickUpLight.Boost
