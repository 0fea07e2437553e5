import PickUpLight.Theory.Machine
import Mathlib.Data.List.Pairwise
import Mathlib.Data.UInt

/-!
# The snowflake id generator

`SnowflakeIdWorker` (`snowflakeidworker.h`, `snowflakeidworker.cpp`) makes 64-bit
ids out of a millisecond clock, a data centre, a machine and a sequence number
within the millisecond. A call of `nextId` reads the clock, refuses to go on if
the clock went backwards, counts up the sequence within one millisecond, and waits
for the next millisecond when the sequence wraps.

The clock is the list of the readings `timeGen` returns; a call consumes one
reading, or as many as `tilNextMillis` waits for. The mutex makes the calls
consecutive, so a run is the list of the readings of its calls.

## What is proved

`nextId_sortedLT`: in every run, each id returned is greater than all the ids
returned before it. The invariant is `Last`: the last id returned is the one made
of the worker's `lastTimestamp` and `sequence`, and the next one is made of a later
timestamp, or of the same timestamp and a greater sequence. That `compose` is
monotone in the pair is `compose_lt_of_timestamp_lt`, `compose_lt_of_sequence_lt`.
-/

namespace PickUpLight.Ids

open PickUpLight.Theory

/-! ### The fields -/

/-- The first timestamp, in milliseconds. -/
def twepoch : UInt64 := 1514736000000

/-- How many bits the machine takes. -/
def workerIdBits : UInt32 := 5

/-- How many bits the data centre takes. -/
def datacenterIdBits : UInt32 := 5

/-- How many bits the sequence takes. -/
def sequenceBits : UInt32 := 12

/-- The machine's place. -/
def workerIdShift : UInt32 := sequenceBits

/-- The data centre's place. -/
def datacenterIdShift : UInt32 := workerIdShift + workerIdBits

/-- The timestamp's place. -/
def timestampLeftShift : UInt32 := datacenterIdShift + datacenterIdBits

/-- `-1 ^ (-1 << bits)`. -/
def ones (bits : UInt32) : UInt32 := (0xFFFFFFFF : UInt32) ^^^ ((0xFFFFFFFF : UInt32) <<< bits)

/-- The greatest machine, `31`. -/
def maxWorkerId : UInt32 := ones workerIdBits

/-- The greatest data centre, `31`. -/
def maxDatacenterId : UInt32 := ones datacenterIdBits

/-- The mask of the sequence, `4095`. -/
def sequenceMask : UInt32 := ones sequenceBits

/-- A generator. -/
structure SnowflakeIdWorker where
  /-- The machine. -/
  workerId : UInt32 := 0
  /-- The data centre. -/
  datacenterId : UInt32 := 0
  /-- The sequence number within the millisecond. -/
  sequence : UInt32 := 0
  /-- The timestamp of the last id. -/
  lastTimestamp : UInt64 := 0
  deriving DecidableEq, Repr

/-- The setter takes any machine: it does not compare it with `maxWorkerId`. -/
def SnowflakeIdWorker.setWorkerId (w : SnowflakeIdWorker) (workerId : UInt32) : SnowflakeIdWorker :=
  { w with workerId := workerId }

/-- The setter takes any data centre. -/
def SnowflakeIdWorker.setDatacenterId (w : SnowflakeIdWorker) (datacenterId : UInt32) :
    SnowflakeIdWorker :=
  { w with datacenterId := datacenterId }

/-! ### Making an id -/

/-- The busy wait: read the clock until it is past `lastTimestamp`. The readings left
over come with the reading found; `none` if the clock is never past it. -/
def tilNextMillis (lastTimestamp : UInt64) : List UInt64 → Option (UInt64 × List UInt64)
  | [] => none
  | timestamp :: clock =>
    if timestamp ≤ lastTimestamp then tilNextMillis lastTimestamp clock
    else some (timestamp, clock)

/-- The timestamp, the data centre, the machine and the sequence shifted and or-ed
together: the timestamp in 64 bits, the others in 32. -/
def compose (timestamp : UInt64) (datacenterId workerId sequence : UInt32) : UInt64 :=
  ((timestamp - twepoch) <<< timestampLeftShift.toUInt64)
    ||| (datacenterId <<< datacenterIdShift).toUInt64
    ||| (workerId <<< workerIdShift).toUInt64
    ||| sequence.toUInt64

/-- What a call of `nextId` comes to. -/
inductive Outcome where
  /-- It returns an id. -/
  | id (value : UInt64)
  /-- It throws: the clock is this many milliseconds behind the last id. -/
  | movedBackwards (milliseconds : UInt64)
  deriving DecidableEq, Repr

/-- The id made of a worker's fields. -/
def SnowflakeIdWorker.current (w : SnowflakeIdWorker) : UInt64 :=
  compose w.lastTimestamp w.datacenterId w.workerId w.sequence

/-- One call, on the readings of the clock: what it comes to, the worker after it, and
the readings left over; `none` if it is still waiting when the readings end. -/
def SnowflakeIdWorker.nextId (w : SnowflakeIdWorker) :
    List UInt64 → Option (Outcome × SnowflakeIdWorker × List UInt64)
  | [] => none
  | timestamp :: clock =>
    if timestamp < w.lastTimestamp then
      some (.movedBackwards (w.lastTimestamp - timestamp), w, clock)
    else if w.lastTimestamp = timestamp then
      let sequence := (w.sequence + 1) &&& sequenceMask
      if sequence = 0 then
        -- the millisecond is used up: block until the next one
        (tilNextMillis w.lastTimestamp clock).map fun (timestamp, clock) =>
          let w' := { w with sequence := sequence, lastTimestamp := timestamp }
          (.id w'.current, w', clock)
      else
        let w' := { w with sequence := sequence, lastTimestamp := timestamp }
        some (.id w'.current, w', clock)
    else
      let w' := { w with sequence := 0, lastTimestamp := timestamp }
      some (.id w'.current, w', clock)

/-- A generator in use: the worker, and the ids returned so far, in order. -/
structure Generator where
  /-- The worker. -/
  worker : SnowflakeIdWorker
  /-- The ids returned. -/
  issued : List UInt64 := []
  deriving DecidableEq, Repr

/-- The generator as a machine. A move is one call, given by the readings it
consumes; the mutex is held until the call returns or throws. -/
def generator : Machine Generator (List UInt64) := fun g clock =>
  match g.worker.nextId clock with
  | some (.id value, w, []) => some ⟨w, g.issued ++ [value]⟩
  | some (.movedBackwards _, w, []) => some ⟨w, g.issued⟩
  | _ => none

/-- A fresh generator, with its machine and its data centre set. -/
def start (workerId datacenterId : UInt32) : Generator :=
  ⟨(({} : SnowflakeIdWorker).setWorkerId workerId).setDatacenterId datacenterId, []⟩

/-! ### The id as a number -/

/-- A timestamp the id has room for. -/
def InEpoch (timestamp : UInt64) : Prop :=
  twepoch ≤ timestamp ∧ timestamp < twepoch + 2 ^ 42

instance (timestamp : UInt64) : Decidable (InEpoch timestamp) :=
  inferInstanceAs (Decidable (_ ∧ _))

theorem InEpoch.toNat {t : UInt64} (h : InEpoch t) :
    1514736000000 ≤ t.toNat ∧ t.toNat < 1514736000000 + 2 ^ 42 := by
  obtain ⟨h₁, h₂⟩ := h
  rw [UInt64.le_iff_toNat_le] at h₁
  rw [UInt64.lt_iff_toNat_lt] at h₂
  exact ⟨h₁, h₂⟩

/-- The sequence stays below `4096`. -/
theorem and_sequenceMask_lt (s : UInt32) : (s &&& sequenceMask).toNat < 4096 := by
  rw [UInt32.toNat_and]
  exact Nat.lt_of_le_of_lt Nat.and_le_right (by decide)

/-- Below the mask, masking does nothing. -/
theorem and_sequenceMask_toNat (s : UInt32) : (s &&& sequenceMask).toNat = s.toNat % 4096 := by
  rw [UInt32.toNat_and]
  exact Nat.and_two_pow_sub_one_eq_mod s.toNat 12

/-- Or-ing into the room a shift has left is adding. -/
theorem mul_two_pow_or {a b k : ℕ} (hb : b < 2 ^ k) : a * 2 ^ k ||| b = a * 2 ^ k + b := by
  rw [← Nat.shiftLeft_eq, Nat.shiftLeft_add_eq_or_of_lt hb]

theorem datacenterId_shift {d : UInt32} (h : d ≤ maxDatacenterId) :
    (d <<< datacenterIdShift).toUInt64.toNat = d.toNat * 2 ^ 17 := by
  have hd : d.toNat ≤ 31 := h
  rw [UInt32.toNat_toUInt64, UInt32.toNat_shiftLeft, Nat.shiftLeft_eq]
  show d.toNat * 2 ^ 17 % 2 ^ 32 = _
  omega

theorem workerId_shift {w : UInt32} (h : w ≤ maxWorkerId) :
    (w <<< workerIdShift).toUInt64.toNat = w.toNat * 2 ^ 12 := by
  have hw : w.toNat ≤ 31 := h
  rw [UInt32.toNat_toUInt64, UInt32.toNat_shiftLeft, Nat.shiftLeft_eq]
  show w.toNat * 2 ^ 12 % 2 ^ 32 = _
  omega

theorem timestamp_shift {t : UInt64} (h : InEpoch t) :
    ((t - twepoch) <<< timestampLeftShift.toUInt64).toNat = (t.toNat - 1514736000000) * 2 ^ 22 := by
  have ht := h.toNat
  rw [UInt64.toNat_shiftLeft, UInt64.toNat_sub_of_le _ _ h.1, Nat.shiftLeft_eq]
  show (t.toNat - 1514736000000) * 2 ^ 22 % 2 ^ 64 = _
  omega

/-- **An id as a number**: in range, the four parts do not overlap. -/
theorem compose_toNat {t : UInt64} {d w s : UInt32} (ht : InEpoch t) (hd : d ≤ maxDatacenterId)
    (hw : w ≤ maxWorkerId) (hs : s.toNat < 4096) :
    (compose t d w s).toNat =
      (t.toNat - 1514736000000) * 2 ^ 22 + d.toNat * 2 ^ 17 + w.toNat * 2 ^ 12 + s.toNat := by
  have hd' : d.toNat ≤ 31 := hd
  have hw' : w.toNat ≤ 31 := hw
  unfold compose
  rw [UInt64.toNat_or, UInt64.toNat_or, UInt64.toNat_or, timestamp_shift ht, datacenterId_shift hd,
    workerId_shift hw, UInt32.toNat_toUInt64]
  -- from the left, each part falls into the room below the parts before it
  rw [mul_two_pow_or (by omega)]
  rw [show (t.toNat - 1514736000000) * 2 ^ 22 + d.toNat * 2 ^ 17 =
    ((t.toNat - 1514736000000) * 2 ^ 5 + d.toNat) * 2 ^ 17 by omega, mul_two_pow_or (by omega)]
  rw [show ((t.toNat - 1514736000000) * 2 ^ 5 + d.toNat) * 2 ^ 17 + w.toNat * 2 ^ 12 =
    (((t.toNat - 1514736000000) * 2 ^ 5 + d.toNat) * 2 ^ 5 + w.toNat) * 2 ^ 12 by omega,
    mul_two_pow_or (by omega)]

/-- A later timestamp makes a greater id, whatever the sequence. -/
theorem compose_lt_of_timestamp_lt {t t' : UInt64} {d w s s' : UInt32} (ht : InEpoch t)
    (ht' : InEpoch t') (hd : d ≤ maxDatacenterId) (hw : w ≤ maxWorkerId) (hs : s.toNat < 4096)
    (hs' : s'.toNat < 4096) (h : t < t') : compose t d w s < compose t' d w s' := by
  rw [UInt64.lt_iff_toNat_lt] at h ⊢
  rw [compose_toNat ht hd hw hs, compose_toNat ht' hd hw hs']
  have := ht.toNat
  have := ht'.toNat
  omega

/-- Within a millisecond, a greater sequence makes a greater id. -/
theorem compose_lt_of_sequence_lt {t : UInt64} {d w s s' : UInt32} (ht : InEpoch t)
    (hd : d ≤ maxDatacenterId) (hw : w ≤ maxWorkerId) (hs' : s'.toNat < 4096)
    (h : s.toNat < s'.toNat) : compose t d w s < compose t d w s' := by
  rw [UInt64.lt_iff_toNat_lt]
  rw [compose_toNat ht hd hw (by omega), compose_toNat ht hd hw hs']
  omega

/-! ### One call -/

/-- The busy wait ends past the last timestamp, at one of the clock's readings. -/
theorem tilNextMillis_spec {last t : UInt64} {clock rest : List UInt64}
    (h : tilNextMillis last clock = some (t, rest)) : last < t ∧ t ∈ clock := by
  induction clock with
  | nil => simp [tilNextMillis] at h
  | cons r clock ih =>
    rw [tilNextMillis] at h
    split at h
    · obtain ⟨h₁, h₂⟩ := ih h
      exact ⟨h₁, List.mem_cons_of_mem _ h₂⟩
    · rename_i hr
      simp only [Option.some.injEq, Prod.mk.injEq] at h
      obtain ⟨rfl, rfl⟩ := h
      exact ⟨UInt64.not_le.mp hr, List.mem_cons_self ..⟩

/-- The pair of timestamp and sequence grows. -/
def Later (w w' : SnowflakeIdWorker) : Prop :=
  w.lastTimestamp < w'.lastTimestamp ∨
    w'.lastTimestamp = w.lastTimestamp ∧ w.sequence.toNat < w'.sequence.toNat

/-- **A call that returns**: the id is the one made of the worker's fields after it, the
timestamp is one of the readings, and the pair of timestamp and sequence has grown. -/
theorem nextId_id {w w' : SnowflakeIdWorker} {clock rest : List UInt64} {value : UInt64}
    (hs : w.sequence.toNat < 4096) (h : w.nextId clock = some (.id value, w', rest)) :
    value = w'.current ∧ w'.workerId = w.workerId ∧ w'.datacenterId = w.datacenterId ∧
      w'.lastTimestamp ∈ clock ∧ w'.sequence.toNat < 4096 ∧ Later w w' := by
  cases clock with
  | nil => simp [SnowflakeIdWorker.nextId] at h
  | cons t clock =>
    simp only [SnowflakeIdWorker.nextId] at h
    split at h
    · simp at h
    · rename_i hback
      have hle : w.lastTimestamp ≤ t := UInt64.not_lt.mp hback
      split at h
      · rename_i hsame
        split at h
        · -- the sequence has wrapped: the wait ends in a later millisecond
          rename_i hwrap
          simp only [Option.map_eq_some_iff, Prod.mk.injEq, Outcome.id.injEq, Prod.exists] at h
          obtain ⟨t', rest', hwait, rfl, rfl, rfl⟩ := h
          obtain ⟨hlt, hmem⟩ := tilNextMillis_spec hwait
          exact ⟨rfl, rfl, rfl, List.mem_cons_of_mem _ hmem, and_sequenceMask_lt _, .inl hlt⟩
        · -- the same millisecond: the sequence has not wrapped, so it is one more
          rename_i hwrap
          simp only [Option.some.injEq, Prod.mk.injEq, Outcome.id.injEq] at h
          obtain ⟨rfl, rfl, rfl⟩ := h
          refine ⟨rfl, rfl, rfl, List.mem_cons_self .., and_sequenceMask_lt _,
            .inr ⟨hsame.symm, ?_⟩⟩
          have hne : ((w.sequence + 1) &&& sequenceMask).toNat ≠ 0 := by
            intro h0
            exact hwrap (UInt32.toNat_inj.mp h0)
          show w.sequence.toNat < ((w.sequence + 1) &&& sequenceMask).toNat
          rw [and_sequenceMask_toNat, UInt32.toNat_add] at hne ⊢
          have : (1 : UInt32).toNat = 1 := rfl
          omega
      · rename_i hother
        simp only [Option.some.injEq, Prod.mk.injEq, Outcome.id.injEq] at h
        obtain ⟨rfl, rfl, rfl⟩ := h
        refine ⟨rfl, rfl, rfl, List.mem_cons_self .., ?_, .inl ?_⟩
        · show (0 : UInt32).toNat < 4096
          decide
        · exact UInt64.lt_of_le_of_ne hle hother

/-- **A call that throws** leaves the worker as it was. -/
theorem nextId_movedBackwards {w w' : SnowflakeIdWorker} {clock rest : List UInt64} {m : UInt64}
    (h : w.nextId clock = some (.movedBackwards m, w', rest)) : w' = w := by
  cases clock with
  | nil => simp [SnowflakeIdWorker.nextId] at h
  | cons t clock =>
    simp only [SnowflakeIdWorker.nextId] at h
    split at h
    · simp only [Option.some.injEq, Prod.mk.injEq] at h
      exact h.2.1.symm
    · split at h
      · split at h <;> simp at h
      · simp at h

/-! ### Runs -/

/-- **The invariant of a run**: the last id returned is the one made of the worker's
fields, it is the greatest, and the ids are in increasing order. -/
structure Last (workerId datacenterId : UInt32) (g : Generator) : Prop where
  /-- The machine does not change. -/
  worker : g.worker.workerId = workerId
  /-- Nor does the data centre. -/
  datacenter : g.worker.datacenterId = datacenterId
  /-- The sequence is below `4096`. -/
  sequence : g.worker.sequence.toNat < 4096
  /-- Before the first id the last timestamp is `0`; after it, it is a reading. -/
  fresh : g.worker.lastTimestamp = 0 ∧ g.issued = [] ∨ InEpoch g.worker.lastTimestamp
  /-- No id is greater than the one made of the fields. -/
  le_current : ∀ value ∈ g.issued, value ≤ g.worker.current
  /-- The ids increase. -/
  sorted : g.issued.Pairwise (· < ·)

theorem last_start (workerId datacenterId : UInt32) :
    Last workerId datacenterId (start workerId datacenterId) :=
  ⟨rfl, rfl, (by decide : (0 : UInt32).toNat < 4096),
    .inl ⟨rfl, rfl⟩, by simp [start], by simp [start]⟩

/-- A later pair makes a greater id. -/
theorem current_lt_of_later {w w' : SnowflakeIdWorker} (hworker : w'.workerId = w.workerId)
    (hdata : w'.datacenterId = w.datacenterId) (hd : w.datacenterId ≤ maxDatacenterId)
    (hw : w.workerId ≤ maxWorkerId) (ht : InEpoch w.lastTimestamp) (ht' : InEpoch w'.lastTimestamp)
    (hs : w.sequence.toNat < 4096) (hs' : w'.sequence.toNat < 4096) (h : Later w w') :
    w.current < w'.current := by
  unfold SnowflakeIdWorker.current
  rw [hworker, hdata]
  rcases h with h | ⟨he, h⟩
  · exact compose_lt_of_timestamp_lt ht ht' hd hw hs hs' h
  · rw [he]
    exact compose_lt_of_sequence_lt ht hd hw hs' h

/-- A call preserves the invariant. -/
theorem last_step {workerId datacenterId : UInt32} (hw : workerId ≤ maxWorkerId)
    (hd : datacenterId ≤ maxDatacenterId) {g g' : Generator} {clock : List UInt64}
    (hg : Last workerId datacenterId g) (hclock : ∀ t ∈ clock, InEpoch t)
    (h : generator g clock = some g') : Last workerId datacenterId g' := by
  unfold generator at h
  split at h
  · -- the call returns
    rename_i value w hnext
    simp only [Option.some.injEq] at h
    subst h
    obtain ⟨rfl, hworker, hdata, hmem, hseq, hlater⟩ := nextId_id hg.sequence hnext
    have hin : InEpoch w.lastTimestamp := hclock _ hmem
    have hbefore : ∀ v ∈ g.issued, v < w.current := by
      intro v hv
      rcases hg.fresh with ⟨-, hnone⟩ | hold
      · simp [hnone] at hv
      · refine UInt64.lt_of_le_of_lt (hg.le_current v hv) ?_
        exact current_lt_of_later hworker hdata (hg.datacenter ▸ hd) (hg.worker ▸ hw) hold hin
          hg.sequence hseq hlater
    refine ⟨hworker.trans hg.worker, hdata.trans hg.datacenter, hseq, .inr hin, ?_, ?_⟩
    · intro v hv
      rcases List.mem_append.mp hv with hv | hv
      · exact UInt64.le_of_lt (hbefore v hv)
      · rw [List.mem_singleton.mp hv]
        exact UInt64.le_refl _
    · refine List.pairwise_append.mpr ⟨hg.sorted, List.pairwise_singleton .., ?_⟩
      intro v hv u hu
      rw [List.mem_singleton.mp hu]
      exact hbefore v hv
  · -- the call throws
    rename_i m w hnext
    simp only [Option.some.injEq] at h
    subst h
    obtain rfl := nextId_movedBackwards hnext
    exact hg
  · simp at h

/-- **Ids increase**: in every run of calls on a worker whose machine and data centre
are at most `31`, on every clock that stays in the epoch, each id returned is greater
than every id returned before it, whatever calls throw in between. -/
theorem nextId_sortedLT {workerId datacenterId : UInt32} (hw : workerId ≤ maxWorkerId)
    (hd : datacenterId ≤ maxDatacenterId) {calls : List (List UInt64)}
    (hclock : ∀ clock ∈ calls, ∀ t ∈ clock, InEpoch t) {g : Generator}
    (h : generator.exec (start workerId datacenterId) calls = some g) :
    g.issued.Pairwise (· < ·) := by
  have hinv : Last workerId datacenterId g := by
    refine generator.exec_inv_guarded (G := fun _ clock => ∀ t ∈ clock, InEpoch t)
      (fun s l s' hs hl hm => last_step hw hd hs hl hm) (last_start workerId datacenterId) ?_ h
    exact generator.guarded_of_forall hclock
  exact hinv.sorted

/-- A clock that stalls, goes backwards and jumps ahead: three ids, and a call that
throws. -/
theorem nextId_sortedLT_stalled :
    (Generator.mk ⟨5, 12, 0, 1600000000007⟩
      [357623136257593344, 357623136257593345, 357623136286953472]).issued.Pairwise (· < ·) := by
  have hclock : ∀ clock ∈ [[1600000000000], [1600000000000], [1599999999999], [1600000000007]],
      ∀ t ∈ clock, InEpoch t := by
    simp [InEpoch, twepoch]
    decide
  exact @nextId_sortedLT 5 12 (by decide) (by decide) _ hclock _ (by decide +kernel)

end PickUpLight.Ids
