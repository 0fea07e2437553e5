import PickUpLight.Theory.Machine
import PickUpLight.Wire.Transfer

/-!
# The loops of `my_recv` and `my_send`

`my_recv` and `my_send` (`config.cpp`) differ in the system call only, so they are one loop here,
with what the call does to its surroundings as a parameter: `recv` puts the next bytes of the stream
at `ptr`, and `send` adds the bytes at `ptr` to what has been sent. Bytes are counted from `buf` on;
the stream is endless, since where it ends is up to what `recv` returns.

`transfers_exactly`: whatever the calls return, the bytes transferred are the first ones, each of
them once. The loop of `my_recv` does to `Transfer` what `Transfer.after` says (`toTurn_my_recv`).
-/

namespace PickUpLight.Wire

open PickUpLight.Theory

/-- What a call of `recv` or `send` returns. -/
inductive Ret where
  /-- The number of bytes it has transferred. -/
  | count (n : ℕ)
  /-- -1, with this `errno`. -/
  | error (errno : ℕ)
  deriving DecidableEq, Repr

/-- `EINTR`. -/
def EINTR : ℕ := 4

/-- `EAGAIN`. -/
def EAGAIN : ℕ := 11

/-- The bytes transferred by one call. -/
def Ret.moved : Ret → ℕ
  | count n => n
  | error _ => 0

/-- The bytes transferred by some calls. -/
def total (script : List Ret) : ℕ := (script.map Ret.moved).sum

/-- A call of `recv` or `send`. -/
structure SysCall where
  /-- From where on. -/
  ptr : ℕ
  /-- For how many bytes. -/
  len : ℤ
  deriving DecidableEq, Repr

/-- The variables of a loop. -/
structure Loop (σ : Type) where
  length : ℤ
  bytes_left : ℤ
  ptr : ℕ
  /-- The surroundings. -/
  world : σ
  /-- History: the calls. -/
  calls : List SysCall
  /-- What the function returns, once it does. -/
  result : Option ℤ

namespace Loop

variable {σ : Type}

/-- The condition of the loop. -/
def check (s : Loop σ) : Loop σ :=
  if s.bytes_left > 0 then s else { s with result := some (s.length - s.bytes_left) }

/-- A call of `my_recv` or `my_send`. -/
def enter (length : ℤ) (world : σ) : Loop σ :=
  { length := length, bytes_left := length, ptr := 0, world := world, calls := []
    result := none : Loop σ }.check

/-- A call of `recv` or `send` is made. -/
def ask (s : Loop σ) : Loop σ :=
  { s with calls := s.calls ++ [{ ptr := s.ptr, len := s.bytes_left }] }

/-- **The loop as a machine**: a turn of it, from what the call returns. -/
def turn (io : ℕ → ℕ → σ → σ) : Machine (Loop σ) Ret := fun s ret =>
  if s.result.isSome then none
  else
    match ret with
    | .count 0 => some { s.ask with result := some (s.length - s.bytes_left) }
    | .count n =>
      if n ≤ s.bytes_left then
        some { s.ask with
          bytes_left := s.bytes_left - n
          ptr := s.ptr + n
          world := io s.ptr n s.world }.check
      else none
    | .error errno =>
      if errno = EINTR then some s.ask.check else some { s.ask with result := some (-1) }

variable {s s' : Loop σ} {io : ℕ → ℕ → σ → σ} {ret : Ret}

@[simp] theorem length_check : s.check.length = s.length := by
  unfold check
  split <;> rfl

@[simp] theorem bytes_left_check : s.check.bytes_left = s.bytes_left := by
  unfold check
  split <;> rfl

@[simp] theorem ptr_check : s.check.ptr = s.ptr := by
  unfold check
  split <;> rfl

@[simp] theorem world_check : s.check.world = s.world := by
  unfold check
  split <;> rfl

@[simp] theorem calls_check : s.check.calls = s.calls := by
  unfold check
  split <;> rfl

theorem result_check (h : s.result = none) :
    s.check.result = if s.bytes_left > 0 then none else some (s.length - s.bytes_left) := by
  unfold check
  split
  · exact h
  · rfl

/-- The turns of the loop. -/
theorem turn_cases (hstep : turn io s ret = some s') : s.result = none ∧
    (ret = .count 0 ∧ s' = { s.ask with result := some (s.length - s.bytes_left) } ∨
    (∃ n : ℕ, 0 < n ∧ n ≤ s.bytes_left ∧ ret = .count n ∧ s' = { s.ask with
      bytes_left := s.bytes_left - n
      ptr := s.ptr + n
      world := io s.ptr n s.world }.check) ∨
    ret = .error EINTR ∧ s' = s.ask.check ∨
    ∃ errno, errno ≠ EINTR ∧ ret = .error errno ∧ s' = { s.ask with result := some (-1) }) := by
  unfold turn at hstep
  split at hstep
  · cases hstep
  · rename_i hnone
    refine ⟨Option.not_isSome_iff_eq_none.mp hnone, ?_⟩
    cases ret with
    | count n =>
      cases n with
      | zero => exact .inl ⟨rfl, (Option.some.inj hstep).symm⟩
      | succ n =>
        obtain ⟨hle, hs⟩ := Option.ite_none_right_eq_some.mp hstep
        exact .inr (.inl ⟨n + 1, Nat.succ_pos n, hle, rfl, (Option.some.inj hs).symm⟩)
    | error errno =>
      by_cases hintr : errno = EINTR
      · simp only [hintr, if_true, Option.some.injEq] at hstep
        exact .inr (.inr (.inl ⟨congrArg Ret.error hintr, hstep.symm⟩))
      · simp only [hintr, if_false, Option.some.injEq] at hstep
        exact .inr (.inr (.inr ⟨errno, hintr, rfl, hstep.symm⟩))

end Loop

/-! ### What a loop transfers -/

/-- The calls of a loop: each starts at the first byte that has not been transferred, and is for all
that are missing. -/
def callsOf (length : ℕ) (script : List Ret) : List SysCall :=
  (List.range script.length).map fun i =>
    { ptr := total (script.take i), len := length - total (script.take i) }

/-- **A loop transfers one piece**, from the first byte on. -/
structure Exact {σ : Type} (length : ℕ) (script : List Ret) (s : Loop σ) : Prop where
  /-- The variables. -/
  length_eq : s.length = length
  ptr_eq : s.ptr = total script
  left_eq : s.bytes_left = length - total script
  /-- No more is transferred than is asked for. -/
  le : total script ≤ length
  /-- The calls. -/
  calls_eq : s.calls = callsOf length script
  /-- None is for nothing. -/
  asks : ∀ c ∈ s.calls, 0 < c.len
  /-- While the loop runs, bytes are missing, and there have been transfers and interruptions
  only. -/
  running : s.result = none → total script < length ∧ ∀ ret ∈ script, 0 < ret.moved ∨
    ret = .error EINTR
  /-- A number that is returned is that of the bytes transferred: all of them, unless a call has
  transferred none. -/
  returned : ∀ r, s.result = some r → 0 ≤ r → r = total script ∧ (r = length ∨ .count 0 ∈ script)
  /-- Otherwise it is -1, and the last call has failed. -/
  failed : ∀ r, s.result = some r → r < 0 → r = -1 ∧ ∃ errno, errno ≠ EINTR ∧
    script.getLast? = some (.error errno)

section Exact

variable {σ : Type} {length : ℕ} {script : List Ret} {s s' : Loop σ} {io : ℕ → ℕ → σ → σ}
  {ret : Ret} {w : σ}

@[simp] theorem total_append (script : List Ret) (ret : Ret) :
    total (script ++ [ret]) = total script + ret.moved := by
  simp [total]

theorem callsOf_append (length : ℕ) (script : List Ret) (ret : Ret) :
    callsOf length (script ++ [ret]) =
    callsOf length script ++ [{ ptr := total script, len := length - total script }] := by
  rw [callsOf, List.length_append, List.length_singleton, List.range_succ, List.map_append,
    List.map_singleton, List.take_left' rfl, callsOf]
  congr 1
  refine List.map_congr_left fun i hi => ?_
  rw [List.take_append_of_le_length (List.mem_range.mp hi).le]

/-- The condition of the loop is tested: the loop goes on, or it returns, and then nothing is
missing. -/
theorem exact_check (hnone : s.result = none) (hlength : s.length = length)
    (hptr : s.ptr = total script) (hleft : s.bytes_left = length - total script)
    (hle : total script ≤ length)
    (hcalls : s.calls = callsOf length script ∧ ∀ c ∈ s.calls, 0 < c.len)
    (hscript : ∀ ret ∈ script, 0 < ret.moved ∨ ret = .error EINTR) :
    Exact length script s.check := by
  have hresult := Loop.result_check hnone
  have hreturned : ∀ r, s.check.result = some r → r = total script ∧ r = length := by
    intro r hr
    rw [hresult] at hr
    split at hr
    · cases hr
    · have hr := Option.some.inj hr
      omega
  refine ⟨?_, ?_, ?_, hle, ?_, ?_, fun hrunning => ⟨?_, hscript⟩, fun r hr _ => ?_,
    fun r hr hneg => ?_⟩
  · rw [Loop.length_check, hlength]
  · rw [Loop.ptr_check, hptr]
  · rw [Loop.bytes_left_check, hleft]
  · rw [Loop.calls_check, hcalls.1]
  · rw [Loop.calls_check]
    exact hcalls.2
  · rw [hresult] at hrunning
    split at hrunning
    · omega
    · cases hrunning
  · exact (hreturned r hr).imp_right .inl
  · have := hreturned r hr
    omega

/-- Before the first call. -/
theorem exact_enter (length : ℕ) (w : σ) : Exact length [] (Loop.enter length w) :=
  exact_check rfl rfl rfl (by simp [total]) (Nat.zero_le _) ⟨rfl, by simp⟩ (by simp)

/-- The call that is made. -/
theorem Exact.calls_ask (h : Exact length script s) (hnone : s.result = none) (ret : Ret) :
    s.ask.calls = callsOf length (script ++ [ret]) ∧ ∀ c ∈ s.ask.calls, 0 < c.len := by
  have hmissing := (h.running hnone).1
  constructor
  · rw [callsOf_append, ← h.calls_eq, ← h.left_eq, ← h.ptr_eq]
    rfl
  · intro c hc
    rcases List.mem_append.mp hc with hc | hc
    · exact h.asks c hc
    · rw [List.mem_singleton.mp hc]
      have hleft := h.left_eq
      show 0 < s.bytes_left
      omega

/-- The function returns at once after a call that transfers nothing. -/
theorem Exact.returns {r : ℤ} (h : Exact length script s) (hnone : s.result = none)
    (hmoved : ret.moved = 0)
    (hr : r = total script ∧ ret = .count 0 ∨ r = -1 ∧ ∃ errno, errno ≠ EINTR ∧
      ret = .error errno) :
    Exact length (script ++ [ret]) { s.ask with result := some r } := by
  have hcalls := h.calls_ask hnone ret
  have htotal : total (script ++ [ret]) = total script := by rw [total_append, hmoved, Nat.add_zero]
  refine ⟨h.length_eq, htotal ▸ h.ptr_eq, htotal ▸ h.left_eq, htotal ▸ h.le, hcalls.1, hcalls.2, ?_,
    ?_, ?_⟩
  · intro hrunning
    cases hrunning
  · intro r' hr' hpos
    obtain rfl : r = r' := Option.some.inj hr'
    obtain ⟨hr, rfl⟩ | ⟨rfl, -⟩ := hr
    · exact ⟨htotal ▸ hr, .inr List.mem_concat_self⟩
    · cases hpos
  · intro r' hr' hneg
    obtain rfl : r = r' := Option.some.inj hr'
    obtain ⟨hr, -⟩ | ⟨hr, errno, hintr, rfl⟩ := hr
    · omega
    · exact ⟨hr, errno, hintr, List.getLast?_concat⟩

/-- **What a turn preserves.** -/
theorem Exact.turn (h : Exact length script s) (hstep : Loop.turn io s ret = some s') :
    Exact length (script ++ [ret]) s' := by
  obtain ⟨hnone, hcases⟩ := Loop.turn_cases hstep
  obtain ⟨hmissing, hscript⟩ := h.running hnone
  have hcalls := h.calls_ask hnone ret
  have hlength := h.length_eq
  have hptr := h.ptr_eq
  have hleft := h.left_eq
  -- the turns after which the loop goes on, if bytes are missing
  have hgoes : 0 < ret.moved ∨ ret = .error EINTR → ∀ r ∈ script ++ [ret], 0 < r.moved ∨
      r = .error EINTR := by
    intro hret r hr
    rcases List.mem_append.mp hr with hr | hr
    · exact hscript r hr
    · rw [List.mem_singleton.mp hr]
      exact hret
  obtain ⟨rfl, rfl⟩ | ⟨n, hpos, hle, rfl, rfl⟩ | ⟨rfl, rfl⟩ | ⟨errno, hintr, rfl, rfl⟩ := hcases
  · exact h.returns hnone rfl (.inl ⟨by omega, rfl⟩)
  · refine exact_check hnone hlength ?_ ?_ ?_ hcalls (hgoes (.inl hpos))
    · rw [total_append, ← hptr]
      rfl
    · rw [total_append, Ret.moved]
      push_cast
      omega
    · rw [total_append, Ret.moved]
      omega
  · refine exact_check hnone hlength ?_ ?_ ?_ hcalls (hgoes (.inr rfl))
    · rw [total_append, ← hptr]
      rfl
    · rw [total_append]
      exact hleft
    · rw [total_append]
      exact hmissing.le
  · exact h.returns hnone rfl (.inr ⟨rfl, errno, hintr, rfl⟩)

/-- **What a run preserves**, with what `io` does to the surroundings as the bytes are
transferred. -/
theorem exec_exact {P : ℕ → σ → Prop} (h₀ : P 0 w)
    (hio : ∀ done n w', P done w' → P (done + n) (io done n w'))
    (hrun : (Loop.turn io).exec (Loop.enter length w) script = some s) :
    Exact length script s ∧ P (total script) s.world := by
  refine (Loop.turn io).exec_history (P := fun script s => Exact length script s ∧
    P (total script) s.world)
    ⟨exact_enter length w, ?_⟩ ?_ hrun
  · rw [Loop.enter, Loop.world_check]
    exact h₀
  · rintro script s ret s' - ⟨hexact, hworld⟩ hstep
    refine ⟨hexact.turn hstep, ?_⟩
    obtain ⟨-, ⟨rfl, rfl⟩ | ⟨n, -, -, rfl, rfl⟩ | ⟨rfl, rfl⟩ | ⟨errno, -, rfl, rfl⟩⟩ :=
      Loop.turn_cases hstep
    · rwa [total_append]
    · rw [total_append, Loop.world_check, ← hexact.ptr_eq]
      rw [← hexact.ptr_eq] at hworld
      exact hio _ _ _ hworld
    · rwa [total_append, Loop.world_check]
    · rwa [total_append]

/-- The loop goes on from whatever a call may return. -/
theorem Exact.goesOn (h : Exact length script s) (hnone : s.result = none)
    (hret : total script + ret.moved ≤ length) :
    (Loop.turn io s ret).isSome := by
  have hleft := h.left_eq
  cases ret with
  | count n =>
    cases n with
    | zero => simp [Loop.turn, hnone]
    | succ n =>
      have hle : ((n + 1 : ℕ) : ℤ) ≤ s.bytes_left := by
        rw [Ret.moved] at hret
        omega
      simp only [Loop.turn, hnone, Option.isSome_none, Bool.false_eq_true, if_false, if_pos hle,
        Option.isSome_some]
  | error errno =>
    simp only [Loop.turn, hnone, Option.isSome_none, Bool.false_eq_true, if_false]
    split <;> rfl

end Exact

/-! ### The two loops -/

/-- What `recv` changes: the memory from `buf` on, and how far the stream has been read. -/
structure Receiving where
  buf : ℕ → UInt8
  taken : ℕ

/-- `recv`, which returns `n`: the next bytes of the stream. -/
def recv (stream : ℕ → UInt8) (ptr n : ℕ) (w : Receiving) : Receiving where
  buf := fun i => if ptr ≤ i ∧ i < ptr + n then stream (w.taken + (i - ptr)) else w.buf i
  taken := w.taken + n

/-- `send`, which returns `n`: the bytes from `ptr` on are sent. -/
def send (buf : ℕ → UInt8) (ptr n : ℕ) (sent : List UInt8) : List UInt8 :=
  sent ++ (List.range n).map fun i => buf (ptr + i)

def my_recv (stream : ℕ → UInt8) : Machine (Loop Receiving) Ret := Loop.turn (recv stream)

def my_send (buf : ℕ → UInt8) : Machine (Loop (List UInt8)) Ret := Loop.turn (send buf)

/-- The memory after so many bytes have been received. -/
def Received (stream : ℕ → UInt8) (w : Receiving) (done : ℕ) (w' : Receiving) : Prop :=
  w'.taken = w.taken + done ∧ ∀ i, w'.buf i = if i < done then stream (w.taken + i) else w.buf i

theorem Received.recv {stream : ℕ → UInt8} {w w' : Receiving} {done : ℕ}
    (h : Received stream w done w') (n : ℕ) :
    Received stream w (done + n) (recv stream done n w') := by
  obtain ⟨htaken, hbuf⟩ := h
  refine ⟨?_, fun i => ?_⟩
  · rw [PickUpLight.Wire.recv, htaken, Nat.add_assoc]
  · simp only [PickUpLight.Wire.recv]
    by_cases hi : done ≤ i ∧ i < done + n
    · rw [if_pos hi, if_pos hi.2, htaken]
      congr 1
      omega
    · rw [if_neg hi, hbuf]
      by_cases hdone : i < done
      · rw [if_pos hdone, if_pos (by omega)]
      · rw [if_neg hdone, if_neg (by omega)]

theorem send_sent (buf : ℕ → UInt8) (sent : List UInt8) (done n : ℕ) :
    send buf done n (sent ++ (List.range done).map buf) = sent ++ (List.range (done + n)).map
      buf := by
  rw [send, List.append_assoc, List.range_add, List.map_append, List.map_map]
  rfl

/-- **The loops transfer an exact piece**: whatever the calls return, each asks for what is missing
from the first byte that is missing on, what `my_recv` has put into the buffer are the next bytes of
the stream, with the rest of the buffer as it was, and what `my_send` has sent are the first bytes
of the buffer, as many as the calls have transferred. Until it returns, a loop takes whatever the
next call may return. -/
theorem transfers_exactly (length : ℕ) (script : List Ret) :
    (∀ (stream : ℕ → UInt8) (w : Receiving) (s : Loop Receiving),
      (my_recv stream).exec (Loop.enter length w) script = some s →
        Exact length script s ∧ Received stream w (total script) s.world ∧
          (s.result = none → ∀ ret : Ret, total script + ret.moved ≤ length →
          (my_recv stream s ret).isSome)) ∧
    (∀ (buf : ℕ → UInt8) (sent : List UInt8) (s : Loop (List UInt8)),
      (my_send buf).exec (Loop.enter length sent) script = some s →
        Exact length script s ∧ s.world = sent ++ (List.range (total script)).map buf ∧
          (s.result = none → ∀ ret : Ret, total script + ret.moved ≤ length →
          (my_send buf s ret).isSome)) := by
  constructor
  · intro stream w s hrun
    obtain ⟨hexact, hworld⟩ := exec_exact (P := Received stream w)
      ⟨rfl, fun i => (if_neg (Nat.not_lt_zero i)).symm⟩ (fun _ n _ h => h.recv n) hrun
    exact ⟨hexact, hworld, fun hnone _ => hexact.goesOn hnone⟩
  · intro buf sent s hrun
    have hio : ∀ done n w', w' = sent ++ (List.range done).map buf →
        send buf done n w' = sent ++ (List.range (done + n)).map buf := by
      rintro done n w' rfl
      exact send_sent buf sent done n
    obtain ⟨hexact, hworld⟩ :=
      exec_exact (P := fun done w' => w' = sent ++ (List.range done).map buf)
        (List.append_nil _).symm hio hrun
    exact ⟨hexact, hworld, fun hnone _ => hexact.goesOn hnone⟩

/-- Three bytes in two pieces, with an interruption in between. -/
theorem transfers_exactly_three :
    (∃ s, (my_recv fun i => UInt8.ofNat i).exec (Loop.enter 3 ⟨fun _ => 0, 5⟩)
      [.count 2, .error EINTR, .count 1] = some s ∧
      s.result = some 3 ∧ s.world.buf 2 = 7) ∧
    ∃ s, (my_send fun i => UInt8.ofNat i).exec (Loop.enter 3 [])
      [.count 2, .error EINTR, .count 1] = some s ∧
      s.result = some 3 ∧ s.world = [0, 1, 2] := by
  obtain ⟨hrecv, hsend⟩ := transfers_exactly 3 [.count 2, .error EINTR, .count 1]
  refine ⟨⟨_, rfl, rfl, ?_⟩, _, rfl, rfl, ?_⟩
  · exact (hrecv (fun i => UInt8.ofNat i) ⟨fun _ => 0, 5⟩ _ rfl).2.1.2 2
  · exact (hsend (fun i => UInt8.ofNat i) [] _ rfl).2.1

/-! ### The loop of `Transfer` -/

namespace Loop

/-- The loop, by what has come. -/
def transfer (s : Loop Receiving) : Transfer where
  length := s.length
  done := (List.range s.ptr).map s.world.buf

/-- Whether it goes on. -/
def toTurn (s : Loop Receiving) : Transfer.Turn :=
  match s.result with
  | none => .more s.transfer
  | some ret => .returned ret s.transfer.done

/-- What `recv` does, when it returns this. -/
def outcome (stream : ℕ → UInt8) (s : Loop Receiving) : Ret → Outcome
  | .count 0 => .zero
  | .count n => .bytes ((List.range n).map fun i => stream (s.world.taken + i))
  | .error errno => if errno = EINTR then .interrupted else .failed (errno = EAGAIN)

/-- The test of the condition. -/
theorem toTurn_check {s : Loop Receiving} (hnone : s.result = none)
    (hleft : s.bytes_left = s.length - s.ptr) :
    s.check.toTurn = s.transfer.loop := by
  have hbytes : s.transfer.bytes_left = s.bytes_left := by
    simp only [Transfer.bytes_left, transfer, List.length_map, List.length_range, hleft]
  rw [Transfer.loop, hbytes]
  unfold check
  split
  · simp only [toTurn, hnone]
  · rfl

/-- `recv` behind what has come. -/
theorem transfer_recv (stream : ℕ → UInt8) (s : Loop Receiving) (n : ℕ) :
    (List.range (s.ptr + n)).map (recv stream s.ptr n s.world).buf =
      s.transfer.done ++ (List.range n).map fun i => stream (s.world.taken + i) := by
  rw [List.range_add, List.map_append, List.map_map]
  congr 1
  · refine List.map_congr_left fun i hi => ?_
    have hlt := List.mem_range.mp hi
    exact if_neg (by omega)
  · refine List.map_congr_left fun i hi => ?_
    have hlt := List.mem_range.mp hi
    simp only [Function.comp, recv]
    rw [if_pos (by omega), Nat.add_sub_cancel_left]

/-- **`my_recv` is the loop of `Transfer`**: a turn of it is what `Transfer.after` says. -/
theorem toTurn_my_recv {stream : ℕ → UInt8} {length : ℕ} {script : List Ret} {s s' : Loop Receiving}
    {ret : Ret} (hexact : Exact length script s) (hstep : my_recv stream s ret = some s') :
    s'.toTurn = s.transfer.after (s.outcome stream ret) := by
  have hleft : s.bytes_left = s.length - s.ptr := by
    rw [hexact.left_eq, hexact.length_eq, hexact.ptr_eq]
  obtain ⟨hnone, ⟨rfl, rfl⟩ | ⟨n, hpos, -, rfl, rfl⟩ | ⟨rfl, rfl⟩ | ⟨errno, hintr, rfl, rfl⟩⟩ :=
    turn_cases hstep
  · have hbytes : s.transfer.bytes_left = s.bytes_left := by
      simp only [Transfer.bytes_left, transfer, List.length_map, List.length_range, hleft]
    simp only [toTurn, outcome, Transfer.after, hbytes]
    rfl
  · obtain ⟨n, rfl⟩ := Nat.exists_eq_add_one.mpr hpos
    have hleft' : s.bytes_left - ((n + 1 : ℕ) : ℤ) = s.length - ((s.ptr + (n + 1) : ℕ) : ℤ) := by
      push_cast
      omega
    refine (toTurn_check ?_ ?_).trans ?_
    · exact hnone
    · exact hleft'
    · rw [outcome, Transfer.after, ← transfer_recv stream s (n + 1)]
      · rfl
      · exact Nat.succ_ne_zero n
  · exact toTurn_check hnone hleft
  · simp only [toTurn, outcome, if_neg hintr, Transfer.after]
    rfl

end Loop

end PickUpLight.Wire
