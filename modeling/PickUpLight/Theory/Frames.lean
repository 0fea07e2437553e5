import Mathlib.Algebra.Order.Ring.Nat
import Mathlib.Data.List.Basic

/-!
# Frames

A stream of frames, each of which says itself where it ends, is read frame by frame. `read` takes
one frame off a stream; where it takes every frame off whatever is behind it, the frames of a stream
are read back (`readAll_flatMap`).
-/

namespace PickUpLight.Theory

variable {φ β : Type} {read : List β → Option (φ × List β)} {bytes : φ → List β}

/-- The frames that are read off a stream, one after another, and no more of them than `n`. -/
def readAll (read : List β → Option (φ × List β)) : ℕ → List β → List φ
  | 0, _ => []
  | n + 1, stream =>
    match read stream with
    | some (frame, rest) => frame :: readAll read n rest
    | none => []

/-- **Frames are read back**, whatever their number and their order. -/
theorem readAll_flatMap (hend : read [] = none) {frames : List φ}
    (hread : ∀ frame ∈ frames, ∀ rest, read (bytes frame ++ rest) = some (frame, rest)) {n : ℕ}
    (hn : frames.length ≤ n) :
    readAll read n (frames.flatMap bytes) = frames := by
  induction frames generalizing n with
  | nil => cases n <;> simp [readAll, hend]
  | cons frame frames ih =>
    obtain ⟨n, rfl⟩ := Nat.exists_eq_add_of_le' (Nat.one_le_of_lt hn)
    have hrest :=
      ih (fun frame hframe => hread frame (List.mem_cons_of_mem _ hframe))
        (Nat.le_of_succ_le_succ hn)
    rw [List.flatMap_cons, readAll, hread frame List.mem_cons_self]
    exact congrArg (frame :: ·) hrest

/-- A stream has no more frames than bytes. -/
theorem length_le_flatMap (hpos : ∀ frame : φ, 0 < (bytes frame).length) (frames : List φ) :
    frames.length ≤ (frames.flatMap bytes).length := by
  induction frames with
  | nil => exact Nat.zero_le _
  | cons frame frames ih =>
    have hframe := hpos frame
    rw [List.flatMap_cons, List.length_append, List.length_cons]
    omega

end PickUpLight.Theory
