-- Rational numbers rounded to a number of significant bits, to the nearest
-- and, between two, to the even one. The exponent has no bounds.
import Mathlib.Data.Int.Log
import Mathlib.Data.Rat.Floor
import Mathlib.Tactic.FieldSimp
import Mathlib.Tactic.GCongr
import Mathlib.Tactic.Linarith
import Mathlib.Tactic.Positivity

namespace Floats

/-- The integer nearest to `q`. -/
def nearest (q : ℚ) : ℤ :=
  if 2 * (q - ⌊q⌋) < 1 then ⌊q⌋
  else if 1 < 2 * (q - ⌊q⌋) then ⌊q⌋ + 1
  else if ⌊q⌋ % 2 = 0 then ⌊q⌋ else ⌊q⌋ + 1

/-- The weight of the last of the `p` significant bits of `q`. -/
def ulp (p : Nat) (q : ℚ) : ℚ := 2 ^ (Int.log 2 q + 1 - p)

/-- `q` with `p` significant bits. -/
def float (p : Nat) (q : ℚ) : ℚ := nearest (q / ulp p q) * ulp p q

theorem ulp_pos (p : Nat) (q : ℚ) : 0 < ulp p q := by
  unfold ulp
  exact zpow_pos (by norm_num) _

theorem nearest_le (q : ℚ) : 2 * (nearest q - q : ℚ) ≤ 1 := by
  have hfloor := Int.floor_le q
  have hlt := Int.lt_floor_add_one q
  unfold nearest
  split_ifs <;> push_cast <;> linarith

theorem le_nearest (q : ℚ) : -1 ≤ 2 * (nearest q - q : ℚ) := by
  have hfloor := Int.floor_le q
  have hlt := Int.lt_floor_add_one q
  unfold nearest
  split_ifs <;> push_cast <;> linarith

/-- The last bit is small beside the number. -/
theorem ulp_le {p : Nat} (hp : 0 < p) {q : ℚ} (hq : 0 < q) : ulp p q * 2 ^ (p - 1) ≤ q := by
  have hlog : (2 : ℚ) ^ Int.log 2 q ≤ q := Int.zpow_log_le_self (by decide) hq
  have hsplit : ulp p q * 2 ^ (p - 1) = 2 ^ Int.log 2 q := by
    unfold ulp
    rw [← zpow_natCast, ← zpow_add₀ (by norm_num)]
    congr 1
    omega
  rw [hsplit]
  exact hlog

/-- Half of the last bit is less than one part in `2 ^ p`. -/
theorem half_ulp_le {p : Nat} (hp : 0 < p) {q : ℚ} (hq : 0 < q) : ulp p q / 2 ≤ q / 2 ^ p := by
  have hsmall := ulp_le hp hq
  have hpow : (2 : ℚ) ^ p = 2 * 2 ^ (p - 1) := by
    rw [← pow_succ']
    congr 1
    omega
  rw [hpow, le_div_iff₀ (by positivity)]
  linarith

/-- Rounding moves a number by half of its last bit. -/
theorem float_near (p : Nat) (q : ℚ) :
    float p q ≤ q + ulp p q / 2 ∧ q - ulp p q / 2 ≤ float p q := by
  have hu := ulp_pos p q
  have hcancel : q / ulp p q * ulp p q = q := by
    field_simp
  unfold float
  constructor
  · calc nearest (q / ulp p q) * ulp p q ≤ (q / ulp p q + 1 / 2) * ulp p q := by
          gcongr
          linarith [nearest_le (q / ulp p q)]
      _ = q + ulp p q / 2 := by
          rw [add_mul, hcancel]
          ring
  · calc q - ulp p q / 2 = (q / ulp p q - 1 / 2) * ulp p q := by
          rw [sub_mul, hcancel]
          ring
      _ ≤ nearest (q / ulp p q) * ulp p q := by
          gcongr
          linarith [le_nearest (q / ulp p q)]

/-- Rounding adds less than one part in `2 ^ p`. -/
theorem float_le {p : Nat} (hp : 0 < p) {q : ℚ} (hq : 0 ≤ q) :
    float p q ≤ q * (1 + 1 / 2 ^ p) := by
  rcases hq.eq_or_lt with rfl | hpos
  · simp [float, nearest]
  · linarith [(float_near p q).1, half_ulp_le hp hpos, show q * (1 + 1 / 2 ^ p) = q + q / 2 ^ p by ring]

/-- It takes less than one part in `2 ^ p` away. -/
theorem le_float {p : Nat} (hp : 0 < p) {q : ℚ} (hq : 0 ≤ q) :
    q * (1 - 1 / 2 ^ p) ≤ float p q := by
  rcases hq.eq_or_lt with rfl | hpos
  · simp [float, nearest]
  · linarith [(float_near p q).2, half_ulp_le hp hpos, show q * (1 - 1 / 2 ^ p) = q - q / 2 ^ p by ring]

end Floats
