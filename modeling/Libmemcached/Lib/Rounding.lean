-- Natural numbers rounded to a number of significant bits, to the nearest and,
-- between two, to the even one.
import Mathlib.Algebra.Group.Nat.Defs
import Mathlib.Tactic.Common

namespace Rounding

/-- The weight of the last of the `p` significant bits of `n`. -/
def ulp (p n : Nat) : Nat := 2 ^ (n.log2 + 1 - p)

/-- `n` rounded to `p` significant bits. -/
def roundTo (p n : Nat) : Nat :=
  let u := ulp p n
  if u < 2 * (n % u) ∨ (2 * (n % u) = u ∧ n / u % 2 = 1) then (n / u + 1) * u else n / u * u

/-- `n` has no more than `p` significant bits. -/
def Representable (p n : Nat) : Prop := ulp p n ∣ n

instance (p n : Nat) : Decidable (Representable p n) := inferInstanceAs (Decidable (_ ∣ _))

theorem ulp_pos (p n : Nat) : 0 < ulp p n := Nat.two_pow_pos _

/-- Such a number is its own rounding. -/
theorem roundTo_of_representable {p n : Nat} (h : Representable p n) : roundTo p n = n := by
  have hmod : n % ulp p n = 0 := Nat.mod_eq_zero_of_dvd h
  have hpos := ulp_pos p n
  unfold roundTo
  simp only [hmod]
  rw [if_neg]
  · exact Nat.div_mul_cancel h
  · omega

/-- So are these numbers times a power of two. -/
theorem representable_mul_two_pow {p n : Nat} (h : n < 2 ^ p) (k : Nat) :
    Representable p (n * 2 ^ k) := by
  unfold Representable
  by_cases hn : n = 0
  · rw [hn, Nat.zero_mul]
    exact Nat.dvd_zero _
  · have hlow : n * 2 ^ k < 2 ^ (p + k) := by
      rw [Nat.pow_add]
      exact Nat.mul_lt_mul_of_pos_right h (Nat.two_pow_pos k)
    have hne : n * 2 ^ k ≠ 0 := Nat.mul_ne_zero hn (Nat.ne_of_gt (Nat.two_pow_pos k))
    have hlog : (n * 2 ^ k).log2 < p + k := (Nat.log2_lt hne).mpr hlow
    have hdvd : ulp p (n * 2 ^ k) ∣ 2 ^ k := Nat.pow_dvd_pow 2 (by omega)
    exact Nat.dvd_trans hdvd (Nat.dvd_mul_left _ n)

/-! ## Rounding keeps the order -/

theorem le_div_mul_of_dvd {u m n : Nat} (hdvd : u ∣ m) (h : m ≤ n) : m ≤ n / u * u := by
  rw [← Nat.div_mul_cancel hdvd]
  exact Nat.mul_le_mul_right u (Nat.div_le_div_right h)

theorem roundTo_eq_or (p n : Nat) :
    roundTo p n = n / ulp p n * ulp p n ∨
      (n % ulp p n ≠ 0 ∧ roundTo p n = (n / ulp p n + 1) * ulp p n) := by
  have hpos := ulp_pos p n
  unfold roundTo
  dsimp only
  split_ifs with h
  · refine Or.inr ⟨?_, rfl⟩
    omega
  · exact Or.inl rfl

/-- A number that is not above `n` is not above the rounding either. -/
theorem le_roundTo {p m n : Nat} (hp : 0 < p) (hm : Representable p m) (h : m ≤ n) :
    m ≤ roundTo p n := by
  have hfloor : m ≤ n / ulp p n * ulp p n := by
    by_cases hn : n = 0
    · omega
    · rcases Nat.lt_or_ge m (2 ^ n.log2) with hlt | hge
      · -- a power of two stands between them, and the last bit of `n` divides it
        have hdvd : ulp p n ∣ 2 ^ n.log2 := Nat.pow_dvd_pow 2 (by omega)
        have hpow := le_div_mul_of_dvd hdvd (Nat.log2_self_le hn)
        omega
      · have hne : m ≠ 0 := by have := Nat.two_pow_pos n.log2; omega
        have hlog : n.log2 ≤ m.log2 := (Nat.le_log2 hne).mpr hge
        have hdvd : ulp p n ∣ ulp p m := Nat.pow_dvd_pow 2 (by omega)
        exact le_div_mul_of_dvd (Nat.dvd_trans hdvd hm) h
  rcases roundTo_eq_or p n with hr | ⟨-, hr⟩
  · omega
  · rw [hr, Nat.add_mul]
    omega

/-- A number that is not below `n` is not below the rounding either. -/
theorem roundTo_le {p m n : Nat} (hp : 0 < p) (hm : Representable p m) (h : n ≤ m) :
    roundTo p n ≤ m := by
  have hsplit := Nat.div_add_mod' n (ulp p n)
  rcases roundTo_eq_or p n with hr | ⟨hrest, hr⟩
  · omega
  · rw [hr]
    have hstrict : n / ulp p n * ulp p n < n := by omega
    -- a multiple of the last bit of `n` that is not below `n` is one step up
    have hnext : ∀ k, ulp p n ∣ k → n ≤ k → (n / ulp p n + 1) * ulp p n ≤ k := by
      rintro k ⟨c, rfl⟩ hle
      rw [Nat.mul_comm (ulp p n) c] at hle ⊢
      apply Nat.mul_le_mul_right
      have hlt : n / ulp p n * ulp p n < c * ulp p n := by omega
      exact Nat.lt_of_mul_lt_mul_right hlt
    rcases Nat.lt_or_ge m (2 ^ (n.log2 + 1)) with hlt | hge
    · have hne : m ≠ 0 := by omega
      have hn : n ≠ 0 := by rintro rfl; simp at hrest
      have hmlog : m.log2 < n.log2 + 1 := (Nat.log2_lt hne).mpr hlt
      have hnlog : n.log2 ≤ m.log2 := (Nat.le_log2 hne).mpr (by have := Nat.log2_self_le hn; omega)
      have hdvd : ulp p n ∣ ulp p m := Nat.pow_dvd_pow 2 (by omega)
      exact hnext m (Nat.dvd_trans hdvd hm) h
    · have hdvd : ulp p n ∣ 2 ^ (n.log2 + 1) := Nat.pow_dvd_pow 2 (by omega)
      have hpow := hnext _ hdvd (Nat.le_of_lt Nat.lt_log2_self)
      omega

end Rounding
