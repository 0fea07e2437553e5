import PickUpLight.Library.Bounds
import PickUpLight.Library.Zeros

/-!
# The library

The parser and the writer as the server uses them. The values that can be held are written as their
texts, and what is written is read, wherever it ends; what is read is written in no more bytes.
-/

namespace PickUpLight.Library

open Control Theory.Utf8

/-- **The library.** Where `parse` throws there is no value; where `dump` throws nothing is
written. -/
def nlohmann (strtod : List UInt8 → Option ℚ) (dump_float : ℚ → List UInt8) : Nlohmann where
  parse text := (parse strtod text).toOption
  dump j := (dump dump_float j).toOption.getD []

variable {strtod : List UInt8 → Option ℚ} {dump_float : ℚ → List UInt8} {j : Json}
  {text : List UInt8}

theorem nlohmann_parse_iff : (nlohmann strtod dump_float).parse text = some j ↔
      parse strtod text = .ok j := by
  change (parse strtod text).toOption = some j ↔ _
  cases parse strtod text <;> simp [Except.toOption]

theorem nlohmann_dump (h : Storable j) (hplain : j.Plain) :
    (nlohmann strtod dump_float).dump j = j.text := by
  change (dump dump_float j).toOption.getD [] = _
  rw [dump_eq h hplain]
  rfl

/-- What is behind a text that has ended. -/
def Behind (behind : List UInt8) : Prop := behind = [] ∨ ∃ garbage, behind = 0 :: garbage

/-- What is written is read, whatever is behind its end. -/
theorem nlohmann_read_back (h : Storable j) (hplain : j.Plain) {behind : List UInt8}
    (hbehind : Behind behind) :
    (nlohmann strtod dump_float).parse ((nlohmann strtod dump_float).dump j ++ behind) =
      some (ordered j) := by
  rw [nlohmann_parse_iff, nlohmann_dump h hplain]
  rcases hbehind with rfl | ⟨garbage, rfl⟩
  · rw [List.append_nil]
    exact parse_text h hplain
  · rw [parse_before_zero]
    exact parse_text h hplain

/-- **Writing and reading**: what is written of a value is read as the value. -/
theorem dump_parse (strtod : List UInt8 → Option ℚ) (dump_float : ℚ → List UInt8) (h : Storable j)
    (hplain : j.Plain) :
    ∃ out, dump dump_float j = .ok out ∧ parse strtod out = .ok (ordered j) :=
  ⟨j.text, dump_eq h hplain, parse_text h hplain⟩

/-- An object with a member. -/
theorem dump_parse_member : ∃ out, dump (fun _ => []) (.obj [("id", .str "1")]) = .ok out ∧
    parse (fun _ => none) out = .ok (ordered (.obj [("id", .str "1")])) :=
  dump_parse (fun _ => none) (fun _ => []) (.obj (by simp) (by simpa using Storable.str "1"))
    ⟨trivial, trivial⟩

/-- **Reading and writing**: what has been read can be written, in no more bytes; that is read
again, and written in the same way. -/
theorem parse_dump (dump_float : ℚ → List UInt8) (h : parse strtod text = .ok j)
    (hplain : j.Plain) :
    ∃ out, dump dump_float j = .ok out ∧ out.length ≤ text.length ∧
      parse strtod out = .ok (ordered j) ∧
      dump dump_float (ordered j) = .ok out := by
  obtain ⟨hstorable, hle⟩ := parse_bound h
  rw [Json.least_eq j hplain] at hle
  have hread : parse strtod j.text = .ok (ordered j) := parse_text hstorable hplain
  have hagain : dump dump_float (ordered j) = .ok (ordered j).text :=
    dump_eq (parse_bound hread).1 (plain_ordered j hplain)
  rw [text_ordered] at hagain
  exact ⟨j.text, dump_eq hstorable hplain, hle, hread, hagain⟩

/-- An array, with blanks that are not written. -/
theorem parse_dump_spaced : ∃ out, dump (fun _ => []) (.arr [.int 7]) = .ok out ∧
    out.length ≤ [0x5B, 0x20, 0x37, 0x20, 0x5D].length ∧
      parse (fun _ => none) out = .ok (ordered (.arr [.int 7])) ∧
      dump (fun _ => []) (ordered (.arr [.int 7])) = .ok out :=
  parse_dump (fun _ => []) (show parse (fun _ => none) [0x5B, 0x20, 0x37, 0x20, 0x5D] =
    .ok (.arr [.int 7]) by rfl)
    ⟨trivial, trivial⟩

/-- A value that the library can hold is written as its text. -/
theorem nlohmann_writes (strtod : List UInt8 → Option ℚ) (dump_float : ℚ → List UInt8) :
    (nlohmann strtod dump_float).Writes := fun _ h hplain => nlohmann_dump h hplain

/-- **What is assumed of the library**: a value that it can hold is written as its text, no text is
shorter than the one of its value, and what is read can be held. -/
theorem nlohmann_adequate (strtod : List UInt8 → Option ℚ) (dump_float : ℚ → List UInt8) :
    (nlohmann strtod dump_float).Reads ∧ (nlohmann strtod dump_float).Writes ∧
      ∀ text j, (nlohmann strtod dump_float).parse text = some j →
        Storable j ∧ (j.Plain → j.text.length ≤ text.length) := by
  refine ⟨fun text j h => ?_, nlohmann_writes strtod dump_float, fun text j h => ?_⟩
  · exact (parse_bound (nlohmann_parse_iff.mp h)).2
  · obtain ⟨hstorable, hle⟩ := parse_bound (nlohmann_parse_iff.mp h)
    exact ⟨hstorable, fun hplain => Json.least_eq j hplain ▸ hle⟩

end PickUpLight.Library
