import PickUpLight.Control.Json
import PickUpLight.Library.Lexer

/-!
# The parser of the JSON library

`parser.hpp` and the part of `json_sax.hpp` that builds values. The parser is a loop with a
stack: `pass` is one round of it. The handler has a stack of its own, of pointers to the
containers that are still open; here a container is kept in the stack until it is closed,
and only then put where it belongs, in its parent or at the root. There are no callbacks, and
exceptions are allowed: this is how `parse` is called.
-/

namespace PickUpLight.Library

open Control Theory

/-- What the parser throws. -/
inductive ParseError where
  /-- `parse_error.101`: while parsing so and so, an unexpected token, and the one that was
  expected. -/
  | unexpected (context : String) (last_token : Token) (expected : Option String)
  /-- `out_of_range.406`. -/
  | number_overflow
  deriving DecidableEq, Repr

/-! ### The handler -/

/-- A container that is open. -/
inductive Container where
  | array (items : List Json)
  /-- An object, and the key of `object_element`. -/
  | object (members : List (String × Json)) (object_element : Option String)

/-- `json_sax_dom_parser`: the value at the root, and the containers that are open, the innermost
first. -/
structure Sax where
  root : Json
  ref_stack : List Container

namespace Sax

/-- The string of a buffer. -/
def text (token_buffer : List UInt8) : String := (Utf8.decode token_buffer).getD ""

/-- A value becomes a part of a container. -/
def put (v : Json) : Container → Container
  | .array items => .array (items ++ [v])
  | .object members (some key) => .object (Json.assign key v members) (some key)
  | .object members none => .object members none

/-- `handle_value`. -/
def handle_value (v : Json) (sax : Sax) : Sax :=
  match sax.ref_stack with
  | [] => { sax with root := v }
  | c :: cs => { sax with ref_stack := put v c :: cs }

def start_object (sax : Sax) : Sax := { sax with ref_stack := .object [] none :: sax.ref_stack }

/-- `key`: a member that is not there yet is null. -/
def key (val : List UInt8) (sax : Sax) : Sax :=
  match sax.ref_stack with
  | .object members _ :: cs =>
    let members :=
      if (members.lookup (text val)).isSome then members else members ++ [(text val, .null)]
    { sax with ref_stack := .object members (some (text val)) :: cs }
  | _ => sax

def end_object (sax : Sax) : Sax :=
  match sax.ref_stack with
  | .object members _ :: cs => handle_value (.obj members) { sax with ref_stack := cs }
  | _ => sax

def start_array (sax : Sax) : Sax := { sax with ref_stack := .array [] :: sax.ref_stack }

def end_array (sax : Sax) : Sax :=
  match sax.ref_stack with
  | .array items :: cs => handle_value (.arr items) { sax with ref_stack := cs }
  | _ => sax

end Sax

/-! ### The loop -/

/-- The parser between two rounds. -/
structure Parser where
  /-- What is left of the input. -/
  rest : List UInt8
  last_token : Token
  /-- The containers the parser is in: arrays, or else objects. -/
  states : List Bool
  skip_to_state_evaluation : Bool
  sax : Sax

/-- What a round of the parser comes to: the next round, or the handler and what is left of the
input, or an exception. -/
abbrev Round := Parser ⊕ Except ParseError (Sax × List UInt8)

namespace Parser

/-- `get_token`. -/
def get_token (strtod : List UInt8 → Option ℚ) (p : Parser) : Parser :=
  { p with last_token := (scan strtod p.rest).1, rest := (scan strtod p.rest).2 }

/-- The handler does something. -/
def handle (f : Sax → Sax) (p : Parser) : Parser := { p with sax := f p.sax }

/-- The parser is now inside a container. -/
def enter (array : Bool) (p : Parser) : Parser := { p with states := array :: p.states }

/-- The parser is done with a container, and evaluates the state it was in before. -/
def leave (states : List Bool) (p : Parser) : Parser :=
  { p with states := states, skip_to_state_evaluation := true }

/-- The last token was unexpected. -/
def unexpected (p : Parser) (context : String) (expected : Option String) : Round :=
  .inr (.error (.unexpected context p.last_token expected))

/-- A colon is expected; the first token of a value is next. -/
def parse_separator (strtod : List UInt8 → Option ℚ) (remember : Parser → Parser) (p : Parser) :
    Round :=
  if p.last_token = .name_separator then .inl ((remember p).get_token strtod)
  else p.unexpected "object separator" (some "':'")

/-- A key is expected, and then a colon. -/
def parse_key (strtod : List UInt8 → Option ℚ) (remember : Parser → Parser) (p : Parser) : Round :=
  match p.last_token with
  | .value_string val => ((p.handle (Sax.key val)).get_token strtod).parse_separator strtod remember
  | _ => p.unexpected "object key" (some "string literal")

/-- A comma is expected, or the end of an array. -/
def after_item (strtod : List UInt8 → Option ℚ) (states : List Bool) (p : Parser) : Round :=
  if p.last_token = .value_separator then .inl (p.get_token strtod)
  else if p.last_token = .end_array then .inl ((p.handle Sax.end_array).leave states)
  else p.unexpected "array" (some "']'")

/-- A comma is expected, or the end of an object. -/
def after_member (strtod : List UInt8 → Option ℚ) (states : List Bool) (p : Parser) : Round :=
  if p.last_token = .value_separator then (p.get_token strtod).parse_key strtod id
  else if p.last_token = .end_object then .inl ((p.handle Sax.end_object).leave states)
  else p.unexpected "object" (some "'\x7d'")

/-- A value has been parsed; what follows depends on where it is. -/
def evaluate_state (strtod : List UInt8 → Option ℚ) (p : Parser) : Round :=
  match p.states with
  | [] => .inr (.ok (p.sax, p.rest))
  | true :: states => (p.get_token strtod).after_item strtod states
  | false :: states => (p.get_token strtod).after_member strtod states

/-- The end of an object is expected, or a key. -/
def first_member (strtod : List UInt8 → Option ℚ) (p : Parser) : Round :=
  if p.last_token = .end_object then (p.handle Sax.end_object).evaluate_state strtod
  else p.parse_key strtod (enter false)

/-- The end of an array is expected, or a value. -/
def first_item (strtod : List UInt8 → Option ℚ) (p : Parser) : Round :=
  if p.last_token = .end_array then (p.handle Sax.end_array).evaluate_state strtod
  else .inl (p.enter true)

/-- A value that is no container. -/
def parsed (strtod : List UInt8 → Option ℚ) (v : Json) (p : Parser) : Round :=
  (p.handle (Sax.handle_value v)).evaluate_state strtod

/-- The value that begins with the last token. -/
def parse_value (strtod : List UInt8 → Option ℚ) (p : Parser) : Round :=
  match p.last_token with
  | .begin_object => ((p.handle Sax.start_object).get_token strtod).first_member strtod
  | .begin_array => ((p.handle Sax.start_array).get_token strtod).first_item strtod
  | .value_float none => .inr (.error .number_overflow)
  | .value_float (some q) => p.parsed strtod (.float q)
  | .literal_false => p.parsed strtod (.bool false)
  | .literal_null => p.parsed strtod .null
  | .literal_true => p.parsed strtod (.bool true)
  | .value_integer n => p.parsed strtod (.int n)
  | .value_string val => p.parsed strtod (.str (Sax.text val))
  | .value_unsigned n => p.parsed strtod (.int n)
  | .parse_error _ => p.unexpected "value" none
  | _ => p.unexpected "value" (some "'[', '\x7b', or a literal")

/-- **One round of `sax_parse_internal`.** -/
def pass (strtod : List UInt8 → Option ℚ) (p : Parser) : Round :=
  if p.skip_to_state_evaluation then { p with skip_to_state_evaluation := false }.evaluate_state
    strtod
  else p.parse_value strtod

/-! ### The end of the loop -/

/-- What is left to do: a round takes something from the input, but for one that finds it at its
end. -/
def left (p : Parser) : ℕ := 2 * p.rest.length + if p.last_token = .end_of_input then 0 else 1

section Left

variable {strtod : List UInt8 → Option ℚ} {p t : Parser}

/-- A token that is not the end of the input is taken from it. -/
theorem get_token_shorter (h : (p.get_token strtod).last_token ≠ .end_of_input) :
    (p.get_token strtod).rest.length < p.rest.length := by
  rcases scan_shorter strtod p.rest with hlt | hend
  · exact hlt
  · exact absurd (congrArg Prod.fst hend) h

theorem get_token_le (strtod : List UInt8 → Option ℚ) (p : Parser) :
    (p.get_token strtod).rest.length ≤ p.rest.length := by
  rcases scan_shorter strtod p.rest with hlt | hend
  · exact hlt.le
  · have hrest : (p.get_token strtod).rest = [] := congrArg Prod.snd hend
    rw [hrest]
    exact Nat.zero_le _

theorem left_get_token (strtod : List UInt8 → Option ℚ) (p : Parser) :
    (p.get_token strtod).left ≤ 2 * p.rest.length := by
  unfold left
  split_ifs with h
  · rcases scan_shorter strtod p.rest with hlt | hend
    · change 2 * (scan strtod p.rest).2.length + 0 ≤ _
      omega
    · have hrest : (p.get_token strtod).rest = [] := congrArg Prod.snd hend
      rw [hrest]
      exact Nat.zero_le _
  · have hlt := get_token_shorter h
    omega

theorem left_le (p : Parser) : p.left ≤ 2 * p.rest.length + 1 := by
  unfold left
  split_ifs <;> omega

theorem left_parse_key (remember : Parser → Parser) (hremember : ∀ q, (remember q).rest = q.rest)
    (h : p.parse_key strtod remember = .inl t) : t.left < 2 * p.rest.length := by
  unfold parse_key parse_separator at h
  split at h
  · rename_i val _
    split_ifs at h with hcolon
    · cases h
      have hlt := get_token_shorter (by rw [hcolon]; exact Token.noConfusion)
      refine (left_get_token strtod _).trans_lt ?_
      rw [hremember]
      change _ < 2 * (p.handle (Sax.key val)).rest.length
      omega
    · cases h
  · cases h

theorem left_evaluate_state (h : p.evaluate_state strtod = .inl t) :
    t.left < 2 * p.rest.length := by
  unfold evaluate_state at h
  split at h
  · cases h
  · unfold after_item at h
    split_ifs at h with hcomma hend
    · cases h
      have hlt := get_token_shorter (by rw [hcomma]; exact Token.noConfusion)
      exact (left_get_token strtod _).trans_lt (by omega)
    · cases h
      have hlt := get_token_shorter (by rw [hend]; exact Token.noConfusion)
      exact (left_le _).trans_lt (by change 2 * (p.get_token strtod).rest.length + 1 < _; omega)
    · cases h
  · unfold after_member at h
    split_ifs at h with hcomma hend
    · have hlt := get_token_shorter (by rw [hcomma]; exact Token.noConfusion)
      have hle := get_token_le strtod (p.get_token strtod)
      exact (left_parse_key id (fun _ => rfl) h).trans (by omega)
    · cases h
      have hlt := get_token_shorter (by rw [hend]; exact Token.noConfusion)
      exact (left_le _).trans_lt (by change 2 * (p.get_token strtod).rest.length + 1 < _; omega)
    · cases h

theorem left_parse_value (h : p.parse_value strtod = .inl t) : t.left < p.left := by
  have hp : 2 * p.rest.length ≤ p.left := Nat.le_add_right _ _
  unfold parse_value at h
  split at h
  · unfold first_member at h
    have hle := get_token_le strtod (p.handle Sax.start_object)
    change _ ≤ p.rest.length at hle
    split_ifs at h
    · exact (left_evaluate_state h).trans_le ((Nat.mul_le_mul_left 2 hle).trans hp)
    · exact (left_parse_key (enter false) (fun _ => rfl) h).trans_le
        ((Nat.mul_le_mul_left 2 hle).trans hp)
  · rename_i hbegin
    have hleft : p.left = 2 * p.rest.length + 1 := by
      rw [left, hbegin]
      rfl
    unfold first_item at h
    have hle := get_token_le strtod (p.handle Sax.start_array)
    change _ ≤ p.rest.length at hle
    split_ifs at h
    · exact (left_evaluate_state h).trans_le ((Nat.mul_le_mul_left 2 hle).trans hp)
    · cases h
      have hle' := left_get_token strtod (p.handle Sax.start_array)
      rw [hleft]
      exact Nat.lt_succ_of_le hle'
  all_goals first | exact (left_evaluate_state h).trans_le hp | cases h

/-- Every round of the parser leaves less to do. -/
theorem pass_falls (strtod : List UInt8 → Option ℚ) : Falls (pass strtod) left := by
  intro p t h
  unfold pass at h
  split_ifs at h
  · exact (left_evaluate_state h).trans_le (Nat.le_add_right _ _)
  · exact left_parse_value h

end Left

/-- `sax_parse_internal`. -/
def sax_parse_internal (strtod : List UInt8 → Option ℚ) (p : Parser) :
    Except ParseError (Sax × List UInt8) :=
  loop (pass_falls strtod) p

end Parser

/-- **`json::parse`**: the constructor of the parser reads the first token; nothing but the end of
the input may follow the value. -/
def parse (strtod : List UInt8 → Option ℚ) (text : List UInt8) : Except ParseError Json :=
  match Parser.sax_parse_internal strtod
    ⟨(scan_first strtod text).2, (scan_first strtod text).1, [], false, ⟨.null, []⟩⟩ with
  | .error e => .error e
  | .ok (sax, rest) =>
    if (scan strtod rest).1 = .end_of_input then .ok sax.root
    else .error (.unexpected "value" (scan strtod rest).1 (some "end of input"))

end PickUpLight.Library
