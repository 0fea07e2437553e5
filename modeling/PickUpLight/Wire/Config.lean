import Mathlib.Algebra.Order.Ring.Nat
import Mathlib.Data.List.Basic

/-!
# The wire format

What `config.h` says of the bytes between client and server: a request is an 8-byte
`NetPacketHeader` (a purpose and a length, both 32 bits, in the byte order of the machine,
which is little-endian) and the bytes the purpose asks for. A `Frame` is a request a client may
send: its payload has the length its header promises.
-/

namespace PickUpLight.Wire

/-- `BUF_SIZE`: the size of an ordinary packet's buffer, and of a file's description. -/
def BUF_SIZE : ℕ := 1024 * 10

/-- `Purpose`: what a request is for. -/
inductive Purpose where
  | Heart
  | Register
  | Login
  | SendFile
  | GetFile
  | GetInfo
  | ModifyInfo
  | Chat
  deriving DecidableEq, Repr

namespace Purpose

/-- The purpose with a given code; `processSingleRequest` ignores all other codes. -/
def ofCode (code : UInt32) : Option Purpose :=
  match code.toNat with
  | 0 => some Heart
  | 1 => some Register
  | 2 => some Login
  | 3 => some SendFile
  | 4 => some GetFile
  | 5 => some GetInfo
  | 6 => some ModifyInfo
  | 7 => some Chat
  | _ => none

/-- The code of a purpose. -/
def code : Purpose → UInt32
  | Heart => 0
  | Register => 1
  | Login => 2
  | SendFile => 3
  | GetFile => 4
  | GetInfo => 5
  | ModifyInfo => 6
  | Chat => 7

/-- The requests that carry one ordinary packet: all but a heartbeat and a file. -/
def isOrdinary : Purpose → Bool
  | Heart | SendFile => false
  | _ => true

@[simp] theorem ofCode_code (p : Purpose) : ofCode p.code = some p := by cases p <;> rfl

end Purpose

/-! ### Words -/

/-- The four bytes of a word. -/
def wordBytes (x : UInt32) : List UInt8 :=
  [UInt8.ofNat x.toNat, UInt8.ofNat (x.toNat / 256), UInt8.ofNat (x.toNat / 65536),
    UInt8.ofNat (x.toNat / 16777216)]

/-- The word some bytes make. -/
def ofWordBytes (bytes : List UInt8) : UInt32 :=
  UInt32.ofNat (bytes.foldr (fun b n => b.toNat + 256 * n) 0)

@[simp] theorem length_wordBytes (x : UInt32) : (wordBytes x).length = 4 := rfl

@[simp] theorem ofWordBytes_wordBytes (x : UInt32) : ofWordBytes (wordBytes x) = x := by
  have hx := x.toNat_lt
  apply UInt32.toNat_inj.mp
  simp only [ofWordBytes, wordBytes, List.foldr, UInt8.toNat_ofNat', UInt32.toNat_ofNat']
  omega

/-! ### Headers -/

/-- `NetPacketHeader`; the purpose is the code that came, which need not be one of the
enumeration's. -/
structure NetPacketHeader where
  /-- The purpose's code. -/
  purpose : UInt32
  /-- The length. -/
  data_size : UInt32
  deriving DecidableEq, Repr

/-- `sizeof(NetPacketHeader)`. -/
def headerSize : ℕ := 8

/-- The bytes of a header. -/
def NetPacketHeader.bytes (h : NetPacketHeader) : List UInt8 :=
  wordBytes h.purpose ++ wordBytes h.data_size

@[simp] theorem NetPacketHeader.length_bytes (h : NetPacketHeader) : h.bytes.length = headerSize :=
  rfl

/-- The header that eight bytes make. -/
def NetPacketHeader.ofBytes (bytes : List UInt8) : NetPacketHeader where
  purpose := ofWordBytes (bytes.take 4)
  data_size := ofWordBytes (bytes.drop 4)

@[simp] theorem NetPacketHeader.ofBytes_bytes (h : NetPacketHeader) : ofBytes h.bytes = h := by
  simp only [ofBytes, bytes]
  rw [List.take_left' (length_wordBytes _), List.drop_left' (length_wordBytes _)]
  simp

/-- The memory of a header: eight bytes, whatever they are. -/
structure RawHeader where
  /-- The bytes. -/
  bytes : List UInt8
  /-- There are eight of them. -/
  length_bytes : bytes.length = headerSize
  deriving DecidableEq

namespace RawHeader

/-- The header the memory holds. -/
def header (raw : RawHeader) : NetPacketHeader := NetPacketHeader.ofBytes raw.bytes

/-- The memory after some bytes have been read into its front: what is behind them stays. -/
def overwrite (raw : RawHeader) (front : List UInt8) : RawHeader where
  bytes := (front ++ raw.bytes.drop front.length).take headerSize
  length_bytes := by
    have h := raw.length_bytes
    rw [List.length_take, List.length_append, List.length_drop]
    omega

/-- Memory a whole header has been read into holds that header. -/
@[simp] theorem header_overwrite (raw : RawHeader) (h : NetPacketHeader) :
    (raw.overwrite h.bytes).header = h := by
  have hdrop : raw.bytes.drop headerSize = [] :=
    List.drop_eq_nil_of_le (Nat.le_of_eq raw.length_bytes)
  have hbytes : (raw.overwrite h.bytes).bytes = h.bytes := by
    simp only [overwrite, NetPacketHeader.length_bytes, hdrop, List.append_nil]
    exact List.take_of_length_le (Nat.le_of_eq h.length_bytes)
  rw [header, hbytes, NetPacketHeader.ofBytes_bytes]

end RawHeader

/-! ### Requests -/

/-- What a handler gets: the header, and the bytes read for it. -/
structure Call where
  /-- The header. -/
  header : NetPacketHeader
  /-- The bytes after it. -/
  payload : List UInt8
  deriving DecidableEq, Repr

/-- The length of the payload that a purpose and a header's length announce: nothing for a
heartbeat, a description and a file for `SendFile`, and some bytes, fewer than a buffer
holds, for the others. -/
def Announces (purpose : Purpose) (data_size length : ℕ) : Prop :=
  match purpose with
  | .Heart => data_size = 0 ∧ length = 0
  | .SendFile => 1 ≤ data_size ∧ length = BUF_SIZE + data_size
  | _ => 1 ≤ data_size ∧ data_size ≤ BUF_SIZE - 1 ∧ length = data_size

instance (purpose : Purpose) (data_size length : ℕ) :
    Decidable (Announces purpose data_size length) := by
  unfold Announces
  cases purpose <;> infer_instance

namespace NetPacketHeader

/-- The number of bytes that belong to a header, whatever it is for. -/
def bodyLength (h : NetPacketHeader) : ℕ :=
  if Purpose.ofCode h.purpose = some .SendFile then BUF_SIZE + h.data_size.toNat
    else h.data_size.toNat

/-- A header for which nothing is read: a heartbeat's, or one of an unknown purpose. -/
def IsIdle (h : NetPacketHeader) : Prop :=
  Purpose.ofCode h.purpose = none ∨ Purpose.ofCode h.purpose = some .Heart

/-- A header of a file. -/
def IsFile (h : NetPacketHeader) : Prop := Purpose.ofCode h.purpose = some .SendFile

/-- A header of an ordinary packet. -/
def IsOrdinary (h : NetPacketHeader) : Prop :=
  ∃ p, Purpose.ofCode h.purpose = some p ∧ p.isOrdinary = true

/-- Headers are of three kinds. -/
theorem kinds (h : NetPacketHeader) : h.IsIdle ∨ h.IsFile ∨ h.IsOrdinary := by
  unfold IsIdle IsFile IsOrdinary
  cases hp : Purpose.ofCode h.purpose with
  | none => exact Or.inl (Or.inl rfl)
  | some p => cases p <;> simp [Purpose.isOrdinary]

theorem IsIdle.not_isFile {h : NetPacketHeader} (hi : h.IsIdle) : ¬ h.IsFile := by
  unfold IsIdle at hi
  unfold IsFile
  rcases hi with hp | hp <;> simp [hp]

theorem IsOrdinary.not_isFile {h : NetPacketHeader} (ho : h.IsOrdinary) : ¬ h.IsFile := by
  obtain ⟨p, hp, hord⟩ := ho
  unfold IsFile
  rw [hp]
  rintro ⟨⟩
  cases hord

theorem IsOrdinary.not_isIdle {h : NetPacketHeader} (ho : h.IsOrdinary) : ¬ h.IsIdle := by
  obtain ⟨p, hp, hord⟩ := ho
  unfold IsIdle
  rw [hp]
  rintro (⟨⟨⟩⟩ | ⟨⟨⟩⟩)
  cases hord

theorem bodyLength_file {h : NetPacketHeader} (hf : h.IsFile) :
    h.bodyLength = BUF_SIZE + h.data_size.toNat :=
  if_pos hf

theorem bodyLength_other {h : NetPacketHeader} (hf : ¬ h.IsFile) :
    h.bodyLength = h.data_size.toNat :=
  if_neg hf

end NetPacketHeader

/-- **A well-formed request.** -/
structure Frame where
  /-- What it is for. -/
  purpose : Purpose
  /-- The length its header gives. -/
  data_size : UInt32
  /-- The bytes after the header. -/
  payload : List UInt8
  /-- They are as many as announced. -/
  announced : Announces purpose data_size.toNat payload.length

namespace Frame

/-- The header of a request. -/
def header (f : Frame) : NetPacketHeader where
  purpose := f.purpose.code
  data_size := f.data_size

/-- The bytes of a request. -/
def bytes (f : Frame) : List UInt8 := f.header.bytes ++ f.payload

/-- What a handler should get. -/
def call (f : Frame) : Call where
  header := f.header
  payload := f.payload

end Frame

/-- The bytes of some requests, one after the other. -/
def stream (frames : List Frame) : List UInt8 := frames.flatMap Frame.bytes

@[simp] theorem stream_nil : stream [] = [] := rfl

@[simp] theorem stream_cons (f : Frame) (fs : List Frame) :
    stream (f :: fs) = f.header.bytes ++ (f.payload ++ stream fs) := by
  simp [stream, Frame.bytes]

theorem Frame.ordinary_length (f : Frame) (hh : f.purpose ≠ .Heart) (hs : f.purpose ≠ .SendFile) :
    1 ≤ f.data_size.toNat ∧ f.data_size.toNat ≤ BUF_SIZE - 1 ∧
      f.payload.length = f.data_size.toNat := by
  have h := f.announced
  unfold Announces at h
  cases hp : f.purpose <;> simp_all

theorem Frame.file_length (f : Frame) (hs : f.purpose = .SendFile) :
    1 ≤ f.data_size.toNat ∧ f.payload.length = BUF_SIZE + f.data_size.toNat := by
  have h := f.announced
  rw [hs] at h
  exact h

theorem Frame.heart_payload (f : Frame) (hh : f.purpose = .Heart) : f.payload = [] := by
  have h := f.announced
  rw [hh] at h
  exact List.eq_nil_of_length_eq_zero h.2

theorem stream_eq_nil {fs : List Frame} : stream fs = [] ↔ fs = [] := by
  cases fs with
  | nil => simp
  | cons f fs =>
    have hne : f.header.bytes ≠ [] := by simp [NetPacketHeader.bytes, wordBytes]
    simp [hne]

/-- The first bytes that have arrived, when the stream is known. -/
theorem take_drop_of_append {α : Type} {a b p q : List α} (h : a ++ b = p ++ q)
    (hp : p.length ≤ a.length) :
    a.take p.length = p ∧ a.drop p.length ++ b = q := by
  have ht := congrArg (List.take p.length) h
  have hd := congrArg (List.drop p.length) h
  rw [List.take_append_of_le_length hp, List.take_left' rfl] at ht
  rw [List.drop_append_of_le_length hp, List.drop_left' rfl] at hd
  exact ⟨ht, hd⟩

/-- What has been added to a list, when it is one thing at most and the list is longer by one. -/
theorem eq_some_of_append {α : Type} {as : List α} {a : α} {o : Option α}
    (h : as ++ [a] = as ++ o.toList) : o = some a := by
  rw [List.append_cancel_left_eq] at h
  cases o with
  | none => simp at h
  | some b => simpa [eq_comm] using h

/-! ### Lengths as the server compares them -/

/-- `ret==-1 || ret==0 || ret!=wanted`, where `ret` is a number of bytes put into an `int` and
`wanted` is unsigned. -/
def refused (ret : Int32) (wanted : UInt32) : Bool :=
  ret == -1 || ret == 0 || ret.toUInt32 != wanted

theorem refused_ofNat (n : ℕ) (wanted : UInt32) :
    refused (Int32.ofNat n) wanted = true ↔
      n % 2 ^ 32 = 2 ^ 32 - 1 ∨ n % 2 ^ 32 = 0 ∨ n % 2 ^ 32 ≠ wanted.toNat := by
  have heq : ∀ x : Int32, Int32.ofNat n = x ↔ n % 2 ^ 32 = x.toUInt32.toNat := by
    intro x
    rw [← Int32.toBitVec_inj, ← BitVec.toNat_inj]
    rfl
  have hne : (Int32.ofNat n).toUInt32 = wanted ↔ n % 2 ^ 32 = wanted.toNat := by
    rw [← UInt32.toNat_inj]
    rfl
  simp only [refused, Bool.or_eq_true, beq_iff_eq, bne_iff_ne, ne_eq, heq, hne, or_assoc]
  rfl

/-- All the bytes wanted have been read: the comparison fails only for none, and for so many
that the number is -1 as an `int`. -/
theorem refused_all (wanted : UInt32) :
    refused (Int32.ofNat wanted.toNat) wanted = true ↔
      wanted.toNat = 2 ^ 32 - 1 ∨ wanted.toNat = 0 := by
  have hlt := wanted.toNat_lt
  rw [refused_ofNat]
  omega

end PickUpLight.Wire
