import PickUpLight.Ids.Snowflake

/-!
# Ids of differently configured generators

`setWorkerId` and `setDatacenterId` take any value, though an id has room for five bits of each, and
`maxWorkerId` and `maxDatacenterId` are never asked. The bits that are too many go where others are:
those of the machine into the data centre, those of the data centre into the timestamp. A generator
is told apart by its `place`, the ten bits between the timestamp and the sequence.

## What is proved

`makes_iff`: the ids that are made of a clock reading and a sequence number are those that are
returned in runs. `neverCollide_iff`: those of two generators are different if and only if their
places are. `recoverable_iff`: the fields can be recovered if and only if neither has too many bits.
-/

namespace PickUpLight.Ids

open PickUpLight.Theory

/-- A worker at a clock reading and a sequence number, with its machine and its data centre set. -/
def configured (workerId datacenterId : UInt32) (timestamp : UInt64) (sequence : UInt32) :
    SnowflakeIdWorker :=
  (({ sequence := sequence, lastTimestamp := timestamp } : SnowflakeIdWorker).setWorkerId
    workerId).setDatacenterId
    datacenterId

/-- The id is one of a generator with this machine and this data centre. -/
def Makes (workerId datacenterId : UInt32) (value : UInt64) : Prop :=
  ∃ timestamp sequence, InEpoch timestamp ∧ sequence ≤ sequenceMask ∧
    value = (configured workerId datacenterId timestamp sequence).current

/-- **Ids of two generators are different**, at all clock readings and sequence numbers of each. -/
def NeverCollide (workerId datacenterId workerId' datacenterId' : UInt32) : Prop :=
  ∀ value, Makes workerId datacenterId value → ¬ Makes workerId' datacenterId' value

/-- The shifts and masks give back what the id was made of. -/
structure Recovered (value : UInt64) (w : SnowflakeIdWorker) : Prop where
  timestamp : value >>> timestampLeftShift.toUInt64 = w.lastTimestamp - twepoch
  datacenterId : (value >>> datacenterIdShift.toUInt64) &&& maxDatacenterId.toUInt64 =
    w.datacenterId.toUInt64
  workerId : (value >>> workerIdShift.toUInt64) &&& maxWorkerId.toUInt64 = w.workerId.toUInt64
  sequence : value &&& sequenceMask.toUInt64 = w.sequence.toUInt64

/-- **All ids of a generator can be taken apart.** -/
def Recoverable (workerId datacenterId : UInt32) : Prop :=
  ∀ timestamp sequence, InEpoch timestamp → sequence ≤ sequenceMask →
    Recovered (configured workerId datacenterId timestamp sequence).current
      (configured workerId datacenterId timestamp sequence)

/-! ### The ids of runs -/

section Runs

variable {workerId datacenterId : UInt32} {timestamp : UInt64}

theorem le_sequenceMask_iff {s : UInt32} : s ≤ sequenceMask ↔ s.toNat < 4096 := by
  rw [UInt32.le_iff_toNat_le]
  exact Nat.lt_succ_iff.symm

/-- A generator keeps its machine and its data centre, and has issued ids that are made of them. -/
structure Issuing (workerId datacenterId : UInt32) (g : Generator) : Prop where
  worker : g.worker.workerId = workerId
  datacenter : g.worker.datacenterId = datacenterId
  sequence : g.worker.sequence.toNat < 4096
  makes : ∀ value ∈ g.issued, Makes workerId datacenterId value

/-- The worker itself is a configured one. -/
theorem Issuing.current (w : SnowflakeIdWorker) (hw : w.workerId = workerId)
    (hd : w.datacenterId = datacenterId) :
    w.current = (configured workerId datacenterId w.lastTimestamp w.sequence).current := by
  subst hw hd
  rfl

/-- A call preserves it. -/
theorem Issuing.step {g g' : Generator} {clock : List UInt64} (hg : Issuing workerId datacenterId g)
    (hclock : ∀ t ∈ clock, InEpoch t) (h : generator g clock = some g') :
    Issuing workerId datacenterId g' := by
  unfold generator at h
  split at h
  · -- the call returns
    rename_i value w hnext
    cases h
    obtain ⟨rfl, hworker, hdata, hmem, hseq, -⟩ := nextId_id hg.sequence hnext
    refine ⟨hworker.trans hg.worker, hdata.trans hg.datacenter, hseq, fun value hvalue => ?_⟩
    rcases List.mem_append.mp hvalue with hvalue | hvalue
    · exact hg.makes value hvalue
    · rw [List.mem_singleton.mp hvalue]
      exact ⟨w.lastTimestamp, w.sequence, hclock _ hmem, le_sequenceMask_iff.mpr hseq,
        Issuing.current w (hworker.trans hg.worker) (hdata.trans hg.datacenter)⟩
  · -- the call throws
    rename_i m w hnext
    cases h
    obtain rfl := nextId_movedBackwards hnext
    exact hg
  · cases h

theorem issuing_start : Issuing workerId datacenterId (start workerId datacenterId) :=
  ⟨rfl, rfl, (by decide : (0 : UInt32).toNat < 4096),
    fun _ hvalue => absurd hvalue List.not_mem_nil⟩

/-- One more call in the millisecond of the last one. -/
theorem generator_again {g : Generator} {n : ℕ} (hn : n + 1 < 4096)
    (hworker : g.worker = configured workerId datacenterId timestamp (UInt32.ofNat n)) :
    generator g [timestamp] =
      some ⟨configured workerId datacenterId timestamp (UInt32.ofNat (n + 1)),
        g.issued ++
        [(configured workerId datacenterId timestamp (UInt32.ofNat (n + 1))).current]⟩ := by
  have hnext : (UInt32.ofNat n + 1) &&& sequenceMask = UInt32.ofNat (n + 1) := by
    refine UInt32.toNat_inj.mp ?_
    rw [and_sequenceMask_toNat, UInt32.toNat_add, UInt32.toNat_ofNat', UInt32.toNat_ofNat']
    have hone : (1 : UInt32).toNat = 1 := rfl
    omega
  have hne : UInt32.ofNat (n + 1) ≠ 0 := by
    intro h0
    have h0 := congrArg UInt32.toNat h0
    rw [UInt32.toNat_ofNat'] at h0
    have hzero : (0 : UInt32).toNat = 0 := rfl
    omega
  have hcall : g.worker.nextId [timestamp] =
      some (.id (configured workerId datacenterId timestamp (UInt32.ofNat (n + 1))).current,
        configured workerId datacenterId timestamp (UInt32.ofNat (n + 1)), []) := by
    have hlast : (configured workerId datacenterId timestamp (UInt32.ofNat n)).lastTimestamp =
      timestamp := rfl
    have hsequence : (configured workerId datacenterId timestamp (UInt32.ofNat n)).sequence =
      UInt32.ofNat n := rfl
    rw [hworker]
    simp only [SnowflakeIdWorker.nextId, hlast, hsequence, hnext,
      if_neg (UInt64.lt_irrefl timestamp), if_true, if_neg hne]
    rfl
  rw [generator, hcall]

/-- The call that has waited so long makes an id with any sequence number. -/
theorem exec_replicate (ht : InEpoch timestamp) {n : ℕ} (hn : n < 4096) :
    ∃ g, generator.exec (start workerId datacenterId) (List.replicate (n + 1) [timestamp]) =
      some g ∧
      g.worker = configured workerId datacenterId timestamp (UInt32.ofNat n) ∧
      (configured workerId datacenterId timestamp (UInt32.ofNat n)).current ∈ g.issued := by
  induction n with
  | zero =>
    -- the first call is later than the start
    have hlast : (start workerId datacenterId).worker.lastTimestamp = 0 := rfl
    have hlater : (0 : UInt64) ≠ timestamp := by
      rintro rfl
      exact absurd ht (by decide)
    have hnext : (start workerId datacenterId).worker.nextId [timestamp] =
        some (.id (configured workerId datacenterId timestamp 0).current,
          configured workerId datacenterId timestamp 0, []) := by
      simp only [SnowflakeIdWorker.nextId, hlast, if_neg UInt64.not_lt_zero, if_neg hlater]
      rfl
    have hstep : generator (start workerId datacenterId) [timestamp] =
        some ⟨configured workerId datacenterId timestamp 0,
          [(configured workerId datacenterId timestamp 0).current]⟩ := by
      rw [generator, hnext]
      rfl
    refine ⟨⟨configured workerId datacenterId timestamp 0,
      [(configured workerId datacenterId timestamp 0).current]⟩, ?_, rfl, List.mem_singleton_self _⟩
    rw [List.replicate_one, Machine.exec_singleton, hstep]
  | succ n ih =>
    obtain ⟨g, hrun, hworker, -⟩ := ih (by omega)
    rw [List.replicate_succ', Machine.exec_append, hrun, Option.bind_some, Machine.exec_singleton,
      generator_again hn hworker]
    exact ⟨_, rfl, rfl, List.mem_append_right _ (List.mem_singleton_self _)⟩

/-- **The ids that are made are those that are issued in runs.** -/
theorem makes_iff {value : UInt64} : Makes workerId datacenterId value ↔
    ∃ calls g, (∀ clock ∈ calls, ∀ t ∈ clock, InEpoch t) ∧
      generator.exec (start workerId datacenterId) calls = some g ∧ value ∈ g.issued := by
  constructor
  · rintro ⟨timestamp, sequence, ht, hs, rfl⟩
    obtain ⟨g, hrun, -, hmem⟩ := exec_replicate ht (le_sequenceMask_iff.mp hs)
    rw [UInt32.ofNat_toNat] at hmem
    refine ⟨_, g, fun clock hclock t hmem => ?_, hrun, hmem⟩
    rw [List.eq_of_mem_replicate hclock, List.mem_singleton] at hmem
    rw [hmem]
    exact ht
  · rintro ⟨calls, g, hclock, hrun, hmem⟩
    have hissuing : Issuing workerId datacenterId g :=
      generator.exec_inv_guarded (fun _ _ _ hg hclock h => hg.step hclock h) issuing_start
        (generator.guarded_of_forall hclock) hrun
    exact hissuing.makes value hmem

end Runs

/-! ### Where the fields go -/

/-- The data centre and the machine in an id, above the sequence: 20 bits, the higher ten of which
are in the timestamp. -/
def fields (workerId datacenterId : UInt32) :
    ℕ := (datacenterId.toNat * 2 ^ 5 ||| workerId.toNat) % 2 ^ 20

/-- **The place of a generator**: the ten bits of an id that are the data centre's and the
machine's. -/
def place (workerId datacenterId : UInt32) :
    ℕ := (datacenterId.toNat * 2 ^ 5 ||| workerId.toNat) % 2 ^ 10

section Fields

variable {workerId datacenterId workerId' datacenterId' : UInt32} {timestamp : UInt64}
  {sequence : UInt32}

theorem mul_or_mul (a b k : ℕ) : a * 2 ^ k ||| b * 2 ^ k = (a ||| b) * 2 ^ k := by
  rw [← Nat.shiftLeft_eq, ← Nat.shiftLeft_eq, ← Nat.shiftLeft_eq, Nat.shiftLeft_or_distrib]

theorem fields_mod : fields workerId datacenterId % 2 ^ 10 = place workerId datacenterId := by
  rw [fields, place, Nat.mod_mod_of_dvd _ (by decide)]

/-- **What an id is made of**, whatever the data centre and the machine are. -/
theorem current_toNat (ht : InEpoch timestamp) (hs : sequence ≤ sequenceMask) :
    (configured workerId datacenterId timestamp sequence).current.toNat =
      ((timestamp.toNat - 1514736000000) * 2 ^ 10 ||| fields workerId datacenterId) * 2 ^ 12 +
      sequence.toNat := by
  have hd : (datacenterId <<< datacenterIdShift).toUInt64.toNat =
      datacenterId.toNat * 2 ^ 5 % 2 ^ 20 * 2 ^ 12 := by
    rw [UInt32.toNat_toUInt64, UInt32.toNat_shiftLeft, Nat.shiftLeft_eq]
    show datacenterId.toNat * 2 ^ 17 % 2 ^ 32 = _
    omega
  have hw : (workerId <<< workerIdShift).toUInt64.toNat = workerId.toNat % 2 ^ 20 * 2 ^ 12 := by
    rw [UInt32.toNat_toUInt64, UInt32.toNat_shiftLeft, Nat.shiftLeft_eq]
    show workerId.toNat * 2 ^ 12 % 2 ^ 32 = _
    omega
  have ht' : (timestamp.toNat - 1514736000000) * 2 ^ 22 = (timestamp.toNat - 1514736000000) *
      2 ^ 10 * 2 ^ 12 := by
    omega
  show (compose timestamp datacenterId workerId sequence).toNat = _
  rw [compose, UInt64.toNat_or, UInt64.toNat_or, UInt64.toNat_or, timestamp_shift ht, hd, hw,
    UInt32.toNat_toUInt64,
    ht', mul_or_mul, mul_or_mul, mul_two_pow_or (le_sequenceMask_iff.mp hs), fields,
      Nat.or_mod_two_pow,
    Nat.or_assoc]

/-- Ids of generators with different places are different. -/
theorem place_eq_of_current_eq {timestamp' : UInt64} {sequence' : UInt32} (ht : InEpoch timestamp)
    (hs : sequence ≤ sequenceMask) (ht' : InEpoch timestamp') (hs' : sequence' ≤ sequenceMask)
    (h : (configured workerId datacenterId timestamp sequence).current =
      (configured workerId' datacenterId' timestamp' sequence').current) :
    place workerId datacenterId = place workerId' datacenterId' := by
  have hnat := congrArg UInt64.toNat h
  rw [current_toNat ht hs, current_toNat ht' hs'] at hnat
  have hlt := le_sequenceMask_iff.mp hs
  have hlt' := le_sequenceMask_iff.mp hs'
  have hor : (timestamp.toNat - 1514736000000) * 2 ^ 10 ||| fields workerId datacenterId =
      (timestamp'.toNat - 1514736000000) * 2 ^ 10 ||| fields workerId' datacenterId' := by
    omega
  have hmod := congrArg (· % 2 ^ 10) hor
  simp only [Nat.or_mod_two_pow, Nat.mul_mod_left, Nat.zero_or, fields_mod] at hmod
  exact hmod

/-- The clock reading at a number of milliseconds. -/
theorem inEpoch_ofNat {n : ℕ} (hn : n < 2 ^ 42) : InEpoch (UInt64.ofNat (1514736000000 + n)) ∧
    (UInt64.ofNat (1514736000000 + n)).toNat - 1514736000000 = n := by
  have hnat : (UInt64.ofNat (1514736000000 + n)).toNat = 1514736000000 + n := by
    rw [UInt64.toNat_ofNat']
    omega
  refine ⟨⟨?_, ?_⟩, by omega⟩
  · rw [UInt64.le_iff_toNat_le, hnat]
    exact Nat.le_add_right _ _
  · rw [UInt64.lt_iff_toNat_lt, hnat]
    show _ < 1514736000000 + 2 ^ 42
    omega

/-- At the clock reading that is the other's surplus, both make the same id. -/
theorem exists_makes_of_place_eq (h : place workerId datacenterId = place workerId' datacenterId') :
    ∃ value, Makes workerId datacenterId value ∧ Makes workerId' datacenterId' value := by
  have hlt : ∀ w d, fields w d / 2 ^ 10 < 2 ^ 42 := by
    intro w d
    have hfields : fields w d < 2 ^ 20 := Nat.mod_lt _ (by decide)
    omega
  have hsplit : ∀ w d, fields w d = fields w d / 2 ^ 10 * 2 ^ 10 ||| place w d := by
    intro w d
    have hplace : place w d < 2 ^ 10 := Nat.mod_lt _ (by decide)
    rw [mul_two_pow_or hplace, ← fields_mod, Nat.div_add_mod']
  obtain ⟨ht, htn⟩ := inEpoch_ofNat (hlt workerId' datacenterId')
  obtain ⟨ht', htn'⟩ := inEpoch_ofNat (hlt workerId datacenterId)
  have hs : (0 : UInt32) ≤ sequenceMask := by decide
  refine ⟨_, ⟨_, 0, ht, hs, rfl⟩, ⟨_, 0, ht', hs, UInt64.toNat_inj.mp ?_⟩⟩
  have hor : fields workerId' datacenterId' / 2 ^ 10 * 2 ^ 10 ||| fields workerId datacenterId =
      fields workerId datacenterId / 2 ^ 10 * 2 ^ 10 ||| fields workerId' datacenterId' := by
    conv_lhs => rw [hsplit workerId datacenterId]
    conv_rhs => rw [hsplit workerId' datacenterId', ← h]
    rw [← Nat.or_assoc, ← Nat.or_assoc,
      Nat.or_comm (fields workerId datacenterId / 2 ^ 10 * 2 ^ 10)]
  rw [current_toNat ht hs, current_toNat ht' hs, htn, htn', hor]

/-- **When ids of two generators are different**: when their places are. -/
theorem neverCollide_iff : NeverCollide workerId datacenterId workerId' datacenterId' ↔
    place workerId datacenterId ≠ place workerId' datacenterId' := by
  constructor
  · intro h hplace
    obtain ⟨value, hmakes, hmakes'⟩ := exists_makes_of_place_eq hplace
    exact h value hmakes hmakes'
  · rintro h value ⟨timestamp, sequence, ht, hs, rfl⟩ ⟨timestamp', sequence', ht', hs', heq⟩
    exact h (place_eq_of_current_eq ht hs ht' hs' heq)

/-- Some bits of an id, from a place on. -/
theorem shiftRight_and_toNat (value : UInt64) (shift mask : UInt32) (k n : ℕ)
    (hshift : shift.toUInt64.toNat % 64 = k) (hmask : mask.toNat = 2 ^ n - 1) :
    ((value >>> shift.toUInt64) &&& mask.toUInt64).toNat = value.toNat / 2 ^ k % 2 ^ n := by
  rw [UInt64.toNat_and, UInt64.toNat_shiftRight, hshift, Nat.shiftRight_eq_div_pow,
    UInt32.toNat_toUInt64, hmask, Nat.and_two_pow_sub_one_eq_mod]

/-- **When ids can be taken apart**: when the data centre and the machine have no more bits than
there is room for. -/
theorem recoverable_iff : Recoverable workerId datacenterId ↔
    datacenterId ≤ maxDatacenterId ∧ workerId ≤ maxWorkerId := by
  constructor
  · intro h
    have hrecovered := h twepoch 0 (by decide) (by decide)
    have hle : ∀ (value : UInt64) (n max : UInt32), value &&& max.toUInt64 = n.toUInt64 →
        n ≤ max := by
      intro value n max hn
      have hnat := congrArg UInt64.toNat hn
      rw [UInt64.toNat_and, UInt32.toNat_toUInt64, UInt32.toNat_toUInt64] at hnat
      rw [UInt32.le_iff_toNat_le, ← hnat]
      exact Nat.and_le_right
    exact ⟨hle _ _ _ hrecovered.datacenterId, hle _ _ _ hrecovered.workerId⟩
  · rintro ⟨hd, hw⟩ timestamp sequence ht hs
    have hlt := le_sequenceMask_iff.mp hs
    have hd' : datacenterId.toNat ≤ 31 := hd
    have hw' : workerId.toNat ≤ 31 := hw
    have hnat : (configured workerId datacenterId timestamp sequence).current.toNat =
        (timestamp.toNat - 1514736000000) * 2 ^ 22 + datacenterId.toNat * 2 ^ 17 +
          workerId.toNat * 2 ^ 12 +
          sequence.toNat := compose_toNat ht hd hw hlt
    constructor
    case timestamp =>
      refine UInt64.toNat_inj.mp ?_
      show _ = (timestamp - twepoch).toNat
      rw [UInt64.toNat_shiftRight, UInt64.toNat_sub_of_le _ _ ht.1, hnat, Nat.shiftRight_eq_div_pow]
      show _ / 2 ^ 22 = timestamp.toNat - 1514736000000
      omega
    case datacenterId =>
      refine UInt64.toNat_inj.mp ?_
      show _ = datacenterId.toUInt64.toNat
      rw [shiftRight_and_toNat _ _ _ 17 5 rfl rfl, hnat, UInt32.toNat_toUInt64]
      omega
    case workerId =>
      refine UInt64.toNat_inj.mp ?_
      show _ = workerId.toUInt64.toNat
      rw [shiftRight_and_toNat _ _ _ 12 5 rfl rfl, hnat, UInt32.toNat_toUInt64]
      omega
    case sequence =>
      refine UInt64.toNat_inj.mp ?_
      show _ = sequence.toUInt64.toNat
      have hmask : sequenceMask.toUInt64.toNat = 2 ^ 12 - 1 := rfl
      rw [UInt64.toNat_and, hmask, Nat.and_two_pow_sub_one_eq_mod, hnat, UInt32.toNat_toUInt64]
      omega

/-- Within the limits, a place is of one generator. -/
theorem place_inj (hd : datacenterId ≤ maxDatacenterId) (hw : workerId ≤ maxWorkerId)
    (hd' : datacenterId' ≤ maxDatacenterId) (hw' : workerId' ≤ maxWorkerId)
    (h : place workerId datacenterId = place workerId' datacenterId') :
    datacenterId = datacenterId' ∧ workerId = workerId' := by
  have hd : datacenterId.toNat ≤ 31 := hd
  have hw : workerId.toNat ≤ 31 := hw
  have hd' : datacenterId'.toNat ≤ 31 := hd'
  have hw' : workerId'.toNat ≤ 31 := hw'
  rw [place, place, mul_two_pow_or (by omega), mul_two_pow_or (by omega)] at h
  exact ⟨UInt32.toNat_inj.mp (by omega), UInt32.toNat_inj.mp (by omega)⟩

/-- **When differently configured generators keep apart**: ids never collide if and only if the
places are different; and they never collide and can be taken apart if and only if all values are
within the limits. -/
theorem keepApart_iff (hne : (datacenterId, workerId) ≠ (datacenterId', workerId')) :
    (NeverCollide workerId datacenterId workerId' datacenterId' ↔
      place workerId datacenterId ≠ place workerId' datacenterId') ∧
    (NeverCollide workerId datacenterId workerId' datacenterId' ∧
      Recoverable workerId datacenterId ∧
        Recoverable workerId' datacenterId' ↔
      (datacenterId ≤ maxDatacenterId ∧ workerId ≤ maxWorkerId) ∧
        datacenterId' ≤ maxDatacenterId ∧ workerId' ≤ maxWorkerId) := by
  refine ⟨neverCollide_iff, ?_⟩
  rw [neverCollide_iff, recoverable_iff, recoverable_iff]
  refine ⟨And.right, fun h => ⟨fun hplace => ?_, h⟩⟩
  obtain ⟨hd, hw⟩ := place_inj h.1.1 h.1.2 h.2.1 h.2.2 hplace
  exact hne (Prod.ext hd hw)

/-- Machine 32 of data centre 0 and machine 0 of data centre 1 make the same ids, machines 5 and 6
do not. -/
theorem keepApart_iff_example :
    ¬ NeverCollide 32 0 0 1 ∧ NeverCollide 5 12 6 12 ∧ Recoverable 5 12 ∧ Recoverable 6 12 := by
  refine ⟨?_, ((@keepApart_iff 5 12 6 12 (by decide)).2.mpr (by decide))⟩
  rw [(@keepApart_iff 32 0 0 1 (by decide)).1]
  decide

/-- **One id of two generators**: with the machine set to 32, and with the data centre set to 1. -/
theorem generators_collide :
    generator.exec (start 32 0) [[1600000000000]] =
      some ⟨configured 32 0 1600000000000 0, [357623136256131072]⟩ ∧
    generator.exec (start 0 1) [[1600000000000]] =
      some ⟨configured 0 1 1600000000000 0, [357623136256131072]⟩ ∧
    ¬ NeverCollide 32 0 0 1 ∧ ¬ Recoverable 32 0 := by
  have hfirst : generator.exec (start 32 0) [[1600000000000]] =
      some ⟨configured 32 0 1600000000000 0, [357623136256131072]⟩ := by decide +kernel
  have hsecond : generator.exec (start 0 1) [[1600000000000]] =
      some ⟨configured 0 1 1600000000000 0, [357623136256131072]⟩ := by decide +kernel
  have hclock : ∀ clock ∈ [[1600000000000]], ∀ t ∈ clock, InEpoch t := by
    simp [InEpoch, twepoch]
    decide
  refine ⟨hfirst, hsecond, fun h => ?_, fun h => ?_⟩
  · exact h 357623136256131072 (makes_iff.mpr ⟨_, _, hclock, hfirst, List.mem_singleton_self _⟩)
      (makes_iff.mpr ⟨_, _, hclock, hsecond, List.mem_singleton_self _⟩)
  · exact absurd (h 1600000000000 0 (by decide) (by decide)).workerId (by decide)

end Fields

end PickUpLight.Ids
