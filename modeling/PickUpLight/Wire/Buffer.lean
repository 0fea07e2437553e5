import PickUpLight.Wire.Config

/-!
# Request buffers

An ordinary packet is read into the front of a zeroed buffer of `BUF_SIZE` bytes, and its
handler gets the address of the buffer: the packet is what is in front of the first zero.
With no zero in the buffer the text runs on past its end, which is `none`. The parser is also
given a buffer as an array, which ends where the array does (`arrayText`).
-/

namespace PickUpLight.Wire

/-- The C string at the front of some memory. -/
def cString (memory : List UInt8) : Option (List UInt8) :=
  if 0 ∈ memory then some (memory.takeWhile (· ≠ 0)) else none

/-- What the parser reads of an array: a zero ends the input, and so does the end of the array. -/
def arrayText (memory : List UInt8) : List UInt8 := memory.takeWhile (· ≠ 0)

/-- A text, its end, and whatever is behind it. -/
theorem cString_append {text : List UInt8} (h : 0 ∉ text) (garbage : List UInt8) :
    cString (text ++ 0 :: garbage) = some text := by
  have hall : ∀ b ∈ text, decide (b ≠ 0) = true := fun b hb => decide_eq_true fun h0 => h (h0 ▸ hb)
  rw [cString, if_pos (by simp), List.takeWhile_append_of_pos hall]
  simp

/-- The buffer, after some bytes have been read into it. -/
def buffer (data : List UInt8) : List UInt8 := data ++ List.replicate (BUF_SIZE - data.length) 0

/-- The parser reads what has been read into the buffer, the whole of it too. -/
theorem arrayText_buffer {data : List UInt8} (h : 0 ∉ data) : arrayText (buffer data) = data := by
  have hall : ∀ b ∈ data, decide (b ≠ 0) = true := fun b hb => decide_eq_true fun h0 => h (h0 ▸ hb)
  rw [arrayText, buffer, List.takeWhile_append_of_pos hall]
  simp

/-- The text in the buffer is what has been read, if one zero at least is left behind it. -/
theorem cString_buffer {data : List UInt8} (h : 0 ∉ data) :
    cString (buffer data) = some data ↔ data.length < BUF_SIZE := by
  have hmem : 0 ∈ buffer data ↔ data.length < BUF_SIZE := by
    rw [buffer, List.mem_append, List.mem_replicate]
    simp only [h, false_or, and_true]
    omega
  constructor
  · intro hc
    rw [cString] at hc
    split at hc
    · rename_i hz
      exact hmem.mp hz
    · cases hc
  · intro hlt
    obtain ⟨n, hn⟩ : ∃ n, BUF_SIZE - data.length = n + 1 := ⟨BUF_SIZE - data.length - 1, by omega⟩
    rw [buffer, hn, List.replicate_succ, cString_append h]

end PickUpLight.Wire
