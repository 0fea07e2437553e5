import Mathlib.Algebra.Order.Ring.Nat
import Mathlib.Data.Int.Order.Basic

/-!
# Transfers

`my_recv` and `my_send` (`config.cpp`) are one loop: call `recv` (or `send`) for the bytes
that are left until there are none, start again after an interruption, and give up at any
other error. `Transfer` is the state of that loop and `Transfer.after` one turn of it.
`length` is an `int`: a negative one asks for nothing.
-/

namespace PickUpLight.Wire

/-- What one system call does. -/
inductive Outcome where
  /-- It transfers some bytes. -/
  | bytes (data : List UInt8)
  /-- It transfers none, and never will again. -/
  | zero
  /-- A signal interrupts it. -/
  | interrupted
  /-- It fails: `EAGAIN`, or another error. -/
  | failed (again : Bool)
  deriving DecidableEq, Repr

/-- The state of the loop. -/
structure Transfer where
  /-- The number of bytes asked for. -/
  length : ℤ
  /-- The bytes transferred. -/
  done : List UInt8
  deriving DecidableEq, Repr

namespace Transfer

/-- `bytes_left`. -/
def bytes_left (t : Transfer) : ℤ := t.length - t.done.length

/-- The loop goes on, or it returns a number. -/
inductive Turn where
  /-- There are bytes left. -/
  | more (t : Transfer)
  /-- It returns. -/
  | returned (ret : ℤ) (done : List UInt8)
  deriving DecidableEq, Repr

/-- The condition of the loop. -/
def loop (t : Transfer) : Turn :=
  if t.bytes_left > 0 then .more t else .returned (t.length - t.bytes_left) t.done

/-- The loop after one system call. -/
def after (t : Transfer) : Outcome → Turn
  | .bytes data => { t with done := t.done ++ data }.loop
  | .zero => .returned (t.length - t.bytes_left) t.done
  | .interrupted => t.loop
  | .failed _ => .returned (-1) t.done

/-- Some of the bytes left have come: there are more to come, or these were the last. -/
theorem after_bytes {t : Transfer} {data : List UInt8} (h : data.length ≤ t.bytes_left) :
    ((t.done ++ data).length < t.length ∧
      t.after (.bytes data) = .more { t with done := t.done ++ data }) ∨
      ((t.done ++ data).length = t.length ∧
        t.after (.bytes data) = .returned t.length (t.done ++ data)) := by
  have hleft : ({ t with done := t.done ++ data } : Transfer).bytes_left =
      t.bytes_left - data.length := by
    simp only [bytes_left, List.length_append]
    omega
  have hlen : ((t.done ++ data).length : ℤ) = t.length - (t.bytes_left - data.length) := by
    simp only [bytes_left, List.length_append]
    omega
  by_cases hlast : t.bytes_left = data.length
  · right
    refine ⟨by omega, ?_⟩
    simp only [after, loop, hleft, hlast]
    simp
  · left
    refine ⟨by omega, ?_⟩
    have hpos : t.bytes_left - data.length > 0 := by omega
    simp only [after, loop, hleft, hpos, if_true]

/-- An interruption changes nothing. -/
theorem after_interrupted {t : Transfer} (h : t.done.length < t.length) :
    t.after .interrupted = .more t := by
  have hleft : t.bytes_left > 0 := by
    simp only [bytes_left]
    omega
  simp only [after, loop, hleft, if_true]

end Transfer

end PickUpLight.Wire
