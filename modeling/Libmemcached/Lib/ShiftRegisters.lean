-- Registers that are shifted one bit at a time, with a feedback, and the table
-- that shifts one of them by several bits.
import Mathlib.Data.BitVec
import Mathlib.Logic.Function.Iterate

namespace ShiftRegisters

variable {w : Nat}

/-- One shift. A bit that falls out at the low end feeds back. -/
def shift (feedback x : BitVec w) : BitVec w :=
  if x.getLsbD 0 then x >>> 1 ^^^ feedback else x >>> 1

theorem shift_xor (feedback x y : BitVec w) :
    shift feedback (x ^^^ y) = shift feedback x ^^^ shift feedback y := by
  unfold shift
  rw [BitVec.getLsbD_xor, BitVec.ushiftRight_xor_distrib]
  cases x.getLsbD 0 <;> cases y.getLsbD 0
  · rfl
  · exact BitVec.xor_assoc _ _ _
  · show (x >>> 1 ^^^ y >>> 1) ^^^ feedback = (x >>> 1 ^^^ feedback) ^^^ y >>> 1
    ac_rfl
  · -- both bits feed back, and the feedback cancels
    show x >>> 1 ^^^ y >>> 1 = (x >>> 1 ^^^ feedback) ^^^ (y >>> 1 ^^^ feedback)
    rw [show (x >>> 1 ^^^ feedback) ^^^ (y >>> 1 ^^^ feedback) =
      (x >>> 1 ^^^ y >>> 1) ^^^ (feedback ^^^ feedback) by ac_rfl, BitVec.xor_self,
      BitVec.xor_zero]

theorem shifts_xor (feedback x y : BitVec w) (k : Nat) :
    (shift feedback)^[k] (x ^^^ y) = (shift feedback)^[k] x ^^^ (shift feedback)^[k] y := by
  induction k with
  | zero => rfl
  | succ k ih =>
    simp only [Function.iterate_succ_apply']
    rw [ih, shift_xor]

/-- Zeros that fall out feed nothing back. -/
theorem shifts_zeros (feedback : BitVec w) {x : BitVec w} {k : Nat}
    (h : ∀ i < k, x.getLsbD i = false) : (shift feedback)^[k] x = x >>> k := by
  induction k with
  | zero => exact (BitVec.ushiftRight_zero x).symm
  | succ k ih =>
    rw [Function.iterate_succ_apply', ih fun i hi => h i (Nat.lt_succ_of_lt hi)]
    unfold shift
    rw [BitVec.getLsbD_ushiftRight, h (k + 0) (Nat.lt_succ_self k), if_neg Bool.false_ne_true,
      BitVec.shiftRight_add]

/-- The low bits of a register, which fall out first. -/
def low (k : Nat) (x : BitVec w) : BitVec w := (x.setWidth k).setWidth w

theorem getLsbD_low (k : Nat) (x : BitVec w) (i : Nat) :
    (low k x).getLsbD i = (decide (i < k) && x.getLsbD i) := by
  unfold low
  rw [BitVec.getLsbD_setWidth, BitVec.getLsbD_setWidth]
  cases hx : x.getLsbD i with
  | false => rw [Bool.and_false, Bool.and_false]
  | true => rw [decide_eq_true (BitVec.lt_of_getLsbD hx), Bool.true_and]

/-- A table of what the low bits feed back shifts a register by all of them. -/
theorem shifts_eq (feedback x : BitVec w) (k : Nat) :
    (shift feedback)^[k] x = x >>> k ^^^ (shift feedback)^[k] (low k x) := by
  have hsplit : x = (x ^^^ low k x) ^^^ low k x := by
    rw [BitVec.xor_assoc, BitVec.xor_self, BitVec.xor_zero]
  have hzeros : ∀ i < k, (x ^^^ low k x).getLsbD i = false := by
    intro i hi
    rw [BitVec.getLsbD_xor, getLsbD_low, decide_eq_true hi, Bool.true_and, Bool.xor_self]
  have hlow : low k x >>> k = 0#w := by
    apply BitVec.eq_of_getLsbD_eq
    intro i _
    rw [BitVec.getLsbD_ushiftRight, getLsbD_low, decide_eq_false (by omega), Bool.false_and,
      BitVec.getLsbD_zero]
  calc (shift feedback)^[k] x
      = (shift feedback)^[k] (x ^^^ low k x) ^^^ (shift feedback)^[k] (low k x) := by
        rw [← shifts_xor, ← hsplit]
    _ = x >>> k ^^^ (shift feedback)^[k] (low k x) := by
        rw [shifts_zeros feedback hzeros, BitVec.ushiftRight_xor_distrib, hlow, BitVec.xor_zero]

end ShiftRegisters
