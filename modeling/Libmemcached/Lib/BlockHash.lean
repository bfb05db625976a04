-- Hashing a message block by block: the whole blocks that come are taken into
-- a state, and what is left of the message waits in a buffer for more of it.
import Mathlib.Data.List.Basic
import Mathlib.Data.List.GetD
import Mathlib.Tactic.Ring

/-! ## Memory -/

namespace Memory

/-- The bytes of a list, and zeros behind them. -/
def bytesAt (input : List UInt8) (i : Nat) : UInt8 := input.getD i 0

theorem bytesAt_append_left {a : List UInt8} (b : List UInt8) {i : Nat} (h : i < a.length) :
    bytesAt (a ++ b) i = bytesAt a i := List.getD_append _ _ _ _ h

theorem bytesAt_append_right {a : List UInt8} (b : List UInt8) {i : Nat} (h : a.length ≤ i) :
    bytesAt (a ++ b) i = bytesAt b (i - a.length) := List.getD_append_right _ _ _ _ h

/-- The memory after `memcpy` of a list to an address. -/
def memcpy (memory : Nat → UInt8) (start : Nat) (input : List UInt8) (i : Nat) : UInt8 :=
  if start ≤ i ∧ i < start + input.length then bytesAt input (i - start) else memory i

theorem memcpy_zero (memory : Nat → UInt8) {input : List UInt8} {i : Nat} (hi : i < input.length) :
    memcpy memory 0 input i = bytesAt input i := by
  unfold memcpy
  rw [if_pos ⟨Nat.zero_le i, by rw [Nat.zero_add]; exact hi⟩, Nat.sub_zero]

end Memory

/-! ## Blocks -/

namespace BlockHash

variable {σ α : Type*} (compress : σ → List α → σ) (size : Nat)

/-- The state after the whole blocks of a message. -/
def absorb (state : σ) (message : List α) : σ :=
  if 0 < size ∧ size ≤ message.length then
    absorb (compress state (message.take size)) (message.drop size)
  else state
termination_by message.length
decreasing_by rw [List.length_drop]; omega

/-- What is left of a message after its whole blocks. -/
def rest (message : List α) : List α := message.drop (message.length / size * size)

variable {size}

theorem rest_length (size : Nat) (message : List α) : (rest size message).length = message.length % size := by
  unfold rest
  rw [List.length_drop, Nat.mod_eq_sub_div_mul]

theorem rest_of_lt {message : List α} (h : message.length < size) : rest size message = message := by
  unfold rest
  rw [Nat.div_eq_of_lt h, Nat.zero_mul, List.drop_zero]

theorem absorb_of_lt (state : σ) {message : List α} (h : message.length < size) :
    absorb compress size state message = state := by
  rw [absorb, if_neg (by omega)]

theorem absorb_block (hsize : 0 < size) (state : σ) {block : List α} (hblock : block.length = size)
    (message : List α) :
    absorb compress size state (block ++ message) =
      absorb compress size (compress state block) message := by
  rw [absorb, if_pos ⟨hsize, by rw [List.length_append]; omega⟩, List.take_left' hblock,
    List.drop_left' hblock]

theorem rest_block (hsize : 0 < size) {block : List α} (hblock : block.length = size)
    (message : List α) : rest size (block ++ message) = rest size message := by
  unfold rest
  rw [List.length_append, hblock, Nat.add_div_left _ hsize, Nat.succ_mul, Nat.add_comm,
    ← List.drop_drop, List.drop_left' hblock]

/-- A message can come in two parts: what is left of the first one comes before
the second one. -/
theorem absorb_append (hsize : 0 < size) (state : σ) (message more : List α) :
    absorb compress size state (message ++ more) =
      absorb compress size (absorb compress size state message) (rest size message ++ more) := by
  induction hlength : message.length using Nat.strong_induction_on generalizing state message with
  | _ length ih =>
    by_cases hless : message.length < size
    · rw [rest_of_lt hless, absorb_of_lt compress state hless]
    · have hblock : (message.take size).length = size := by
        rw [List.length_take]
        omega
      have hdrop : (message.drop size).length < length := by
        rw [List.length_drop]
        omega
      rw [← List.take_append_drop size message, List.append_assoc,
        absorb_block compress hsize state hblock, absorb_block compress hsize state hblock,
        rest_block hsize hblock, ih _ hdrop _ _ rfl]

theorem rest_append (hsize : 0 < size) (message more : List α) :
    rest size (message ++ more) = rest size (rest size message ++ more) := by
  induction hlength : message.length using Nat.strong_induction_on generalizing message with
  | _ length ih =>
    by_cases hless : message.length < size
    · rw [rest_of_lt hless]
    · have hblock : (message.take size).length = size := by
        rw [List.length_take]
        omega
      have hdrop : (message.drop size).length < length := by
        rw [List.length_drop]
        omega
      rw [← List.take_append_drop size message, List.append_assoc, rest_block hsize hblock,
        rest_block hsize hblock, ih _ hdrop _ rfl]

end BlockHash
