-- How many points a host gets by its weight. Single precision makes that a
-- little more or less than its share.
import Libmemcached.HostList
import Mathlib.Tactic.NormNum

open Floats

namespace Libmemcached

theorem float_nonneg {p : Nat} (hp : 0 < p) {q : ℚ} (hq : 0 ≤ q) : 0 ≤ float p q := by
  have hle := le_float hp hq
  have hpow : (1 : ℚ) / 2 ^ p ≤ 1 := by
    rw [div_le_one (by positivity)]
    exact one_le_pow₀ (by norm_num)
  exact le_trans (mul_nonneg hq (by linarith)) hle

/-- The share of a host, in points of four values. -/
def share (weight : UInt32) (total_weight live_servers : Nat) : ℚ :=
  weight.toNat / total_weight * 40 * live_servers

/-- The sum whose whole part is the number of hashes. -/
def weightedSum (weight : UInt32) (total_weight live_servers : Nat) : ℚ :=
  float 24 (float 53 (float 24 (float 24 (float 24 (float 24 (float 24 weight.toNat /
    float 24 total_weight) * 160) / 4) * float 24 live_servers) + float 53 (1 / 10000000000)))

theorem weightedHashes_eq (weight : UInt32) (total_weight live_servers : Nat) :
    weightedHashes weight total_weight live_servers =
      ⌊weightedSum weight total_weight live_servers⌋.toNat := by
  unfold weightedHashes weightedSum MEMCACHED_POINTS_PER_SERVER_KETAMA
  norm_num

/-- The most that a rounding in single precision makes of a number. -/
def up : ℚ := 1 + 6 / 100000000

/-- The least. -/
def down : ℚ := 1 - 6 / 100000000

theorem float_up {q c : ℚ} (hq : 0 ≤ q) (hc : q ≤ c) : float 24 q ≤ c * up := by
  have hround := float_le (p := 24) (by norm_num) hq
  have hstep : q * (1 + 1 / 2 ^ 24) ≤ c * up := by
    unfold up
    have hfactor : (1 : ℚ) + 1 / 2 ^ 24 ≤ 1 + 6 / 100000000 := by norm_num
    exact mul_le_mul hc hfactor (by norm_num) (le_trans hq hc)
  exact le_trans hround hstep

theorem float_down {q c : ℚ} (hc : 0 ≤ c) (hq : c ≤ q) : c * down ≤ float 24 q := by
  have hround := le_float (p := 24) (by norm_num) (le_trans hc hq)
  have hstep : c * down ≤ q * (1 - 1 / 2 ^ 24) := by
    unfold down
    have hfactor : (1 : ℚ) - 6 / 100000000 ≤ 1 - 1 / 2 ^ 24 := by norm_num
    exact mul_le_mul hq hfactor (by norm_num) (le_trans hc hq)
  exact le_trans hstep hround

/-- The share of a weight after three roundings. -/
theorem ratio_bounds (weight : UInt32) {total_weight : Nat} (htotal : 0 < total_weight) :
    float 24 (float 24 weight.toNat / float 24 total_weight) ≤
        weight.toNat / total_weight * up ^ 3 ∧
      weight.toNat / total_weight * down ^ 3 ≤
        float 24 (float 24 weight.toNat / float 24 total_weight) := by
  have hw : (0 : ℚ) ≤ weight.toNat := Nat.cast_nonneg _
  have ht : (0 : ℚ) < total_weight := Nat.cast_pos.mpr htotal
  have hdown : (0 : ℚ) < down := by norm_num [down]
  have hup : (0 : ℚ) < up := by norm_num [up]
  have ha := float_up hw (le_refl _)
  have ha' := float_down hw (le_refl _)
  have hb := float_le (p := 24) (by norm_num) (le_of_lt ht)
  have hb' := le_float (p := 24) (by norm_num) (le_of_lt ht)
  have hbpos : (0 : ℚ) < float 24 total_weight :=
    lt_of_lt_of_le (mul_pos ht (by norm_num)) hb'
  have ha0 : (0 : ℚ) ≤ float 24 weight.toNat := float_nonneg (by norm_num) hw
  have hupper : float 24 weight.toNat / float 24 total_weight ≤
      weight.toNat / total_weight * up ^ 2 := by
    rw [div_le_iff₀ hbpos]
    calc float 24 weight.toNat ≤ weight.toNat * up := ha
      _ ≤ weight.toNat * (up ^ 2 * (1 - 1 / 2 ^ 24)) := by
          gcongr
          norm_num [up]
      _ = weight.toNat / total_weight * up ^ 2 * (total_weight * (1 - 1 / 2 ^ 24)) := by
          field_simp
      _ ≤ weight.toNat / total_weight * up ^ 2 * float 24 total_weight := by
          gcongr
  have hlower : weight.toNat / total_weight * down ^ 2 ≤
      float 24 weight.toNat / float 24 total_weight := by
    rw [le_div_iff₀ hbpos]
    calc weight.toNat / total_weight * down ^ 2 * float 24 total_weight
        ≤ weight.toNat / total_weight * down ^ 2 * (total_weight * (1 + 1 / 2 ^ 24)) := by
          gcongr
      _ = weight.toNat * (down ^ 2 * (1 + 1 / 2 ^ 24)) := by
          field_simp
      _ ≤ weight.toNat * down := by
          gcongr
          norm_num [down]
      _ ≤ float 24 weight.toNat := ha'
  constructor
  · have h := float_up (div_nonneg ha0 (le_of_lt hbpos)) hupper
    rw [mul_assoc, ← pow_succ] at h
    exact h
  · have h := float_down (by positivity) hlower
    rw [mul_assoc, ← pow_succ] at h
    exact h

/-- The sum is near the share: it was rounded eight times in single and once in
double precision. -/
theorem weightedSum_bounds (weight : UInt32) {total_weight : Nat} (htotal : 0 < total_weight)
    (live_servers : Nat) :
    weightedSum weight total_weight live_servers ≤
        share weight total_weight live_servers * (1 + 49 / 100000000) + 2 / 10000000000 ∧
      share weight total_weight live_servers * (1 - 49 / 100000000) ≤
        weightedSum weight total_weight live_servers := by
  obtain ⟨hratio, hratio'⟩ := ratio_bounds weight htotal
  unfold weightedSum share
  generalize float 24 (float 24 weight.toNat / float 24 total_weight) = pct at hratio hratio' ⊢
  have hdown : (0 : ℚ) < down := by norm_num [down]
  have hup : (0 : ℚ) < up := by norm_num [up]
  obtain ⟨x, hx⟩ : ∃ x : ℚ, x = weight.toNat / total_weight := ⟨_, rfl⟩
  have hx0 : 0 ≤ x := by
    rw [hx]
    positivity
  have hlive : (0 : ℚ) ≤ live_servers := Nat.cast_nonneg _
  rw [← hx] at hratio hratio' ⊢
  have hpct : 0 ≤ pct := le_trans (by positivity) hratio'
  -- the points of the host
  have h160 := float_up (mul_nonneg hpct (by norm_num)) (mul_le_mul_of_nonneg_right hratio
    (by norm_num : (0 : ℚ) ≤ 160))
  have h160' := float_down (by positivity) (mul_le_mul_of_nonneg_right hratio'
    (by norm_num : (0 : ℚ) ≤ 160))
  generalize float 24 (pct * 160) = a at h160 h160' ⊢
  have ha : 0 ≤ a := le_trans (by positivity) h160'
  have h4 := float_up (div_nonneg ha (by norm_num)) (div_le_div_of_nonneg_right h160
    (by norm_num : (0 : ℚ) ≤ 4))
  have h4' := float_down (by positivity) (div_le_div_of_nonneg_right h160'
    (by norm_num : (0 : ℚ) ≤ 4))
  generalize float 24 (a / 4) = b at h4 h4' ⊢
  have hb : 0 ≤ b := le_trans (by positivity) h4'
  -- times the number of hosts
  have hl := float_up hlive (le_refl _)
  have hl' := float_down hlive (le_refl _)
  have hl0 := float_nonneg (p := 24) (by norm_num) hlive
  generalize float 24 (live_servers : ℚ) = l at hl hl' hl0 ⊢
  have hmul := float_up (mul_nonneg hb hl0) (mul_le_mul h4 hl hl0 (le_trans hb h4))
  have hmul' := float_down (by positivity) (mul_le_mul h4' hl' (by positivity) hb)
  generalize float 24 (b * l) = c at hmul hmul' ⊢
  have hc : 0 ≤ c := le_trans (by positivity) hmul'
  -- and a little more
  have hε := float_le (p := 53) (by norm_num) (by norm_num : (0 : ℚ) ≤ 1 / 10000000000)
  have hε' := float_nonneg (p := 53) (by norm_num) (by norm_num : (0 : ℚ) ≤ 1 / 10000000000)
  generalize float 53 (1 / 10000000000) = ε at hε hε' ⊢
  have hsum := float_le (p := 53) (by norm_num) (add_nonneg hc hε')
  have hsum' := le_float (p := 53) (by norm_num) (add_nonneg hc hε')
  have hsum0 := float_nonneg (p := 53) (by norm_num) (add_nonneg hc hε')
  generalize float 53 (c + ε) = d at hsum hsum' hsum0 ⊢
  have hlast := float_up hsum0 (le_refl d)
  have hlast' := float_down hsum0 (le_refl d)
  generalize float 24 d = t at hlast hlast' ⊢
  have hshare : 0 ≤ x * 40 * live_servers := by positivity
  have hc7 : c ≤ x * 40 * live_servers * up ^ 7 := by
    calc c ≤ _ := hmul
      _ = x * 40 * live_servers * up ^ 7 := by ring
  have hc7' : x * 40 * live_servers * down ^ 7 ≤ c := by
    calc x * 40 * live_servers * down ^ 7 = _ := by ring
      _ ≤ c := hmul'
  constructor
  · calc t ≤ d * up := hlast
      _ ≤ (c + ε) * (1 + 1 / 2 ^ 53) * up := by gcongr
      _ ≤ (x * 40 * live_servers * up ^ 7 + 1 / 10000000000 * (1 + 1 / 2 ^ 53)) *
            (1 + 1 / 2 ^ 53) * up := by gcongr
      _ = x * 40 * live_servers * (up ^ 8 * (1 + 1 / 2 ^ 53)) +
            1 / 10000000000 * ((1 + 1 / 2 ^ 53) ^ 2 * up) := by ring
      _ ≤ x * 40 * live_servers * (1 + 49 / 100000000) + 2 / 10000000000 := by
          have hfactor : up ^ 8 * (1 + 1 / 2 ^ 53) ≤ 1 + 49 / 100000000 := by norm_num [up]
          have hrest : 1 / 10000000000 * ((1 + 1 / 2 ^ 53) ^ 2 * up) ≤ 2 / 10000000000 := by
            norm_num [up]
          gcongr
  · calc x * 40 * live_servers * (1 - 49 / 100000000)
        ≤ x * 40 * live_servers * (down ^ 8 * (1 - 1 / 2 ^ 53)) := by
          have hfactor : 1 - 49 / 100000000 ≤ down ^ 8 * (1 - 1 / 2 ^ 53) := by norm_num [down]
          gcongr
      _ = (x * 40 * live_servers * down ^ 7) * (1 - 1 / 2 ^ 53) * down := by ring
      _ ≤ (c + ε) * (1 - 1 / 2 ^ 53) * down := by
          have hle : x * 40 * live_servers * down ^ 7 ≤ c + ε := by linarith
          have hpos : (0 : ℚ) ≤ 1 - 1 / 2 ^ 53 := by norm_num
          gcongr
      _ ≤ d * down := by gcongr
      _ ≤ t := hlast'

/-- The number of hashes of a host is near its share. -/
theorem weightedHashes_bounds (weight : UInt32) {total_weight : Nat} (htotal : 0 < total_weight)
    (live_servers : Nat) :
    (weightedHashes weight total_weight live_servers : ℚ) ≤
        share weight total_weight live_servers * (1 + 49 / 100000000) + 2 / 10000000000 ∧
      share weight total_weight live_servers * (1 - 49 / 100000000) - 1 ≤
        weightedHashes weight total_weight live_servers := by
  obtain ⟨hle, hge⟩ := weightedSum_bounds weight htotal live_servers
  have hshare : 0 ≤ share weight total_weight live_servers := by
    unfold share
    positivity
  have hsum : 0 ≤ weightedSum weight total_weight live_servers :=
    le_trans (mul_nonneg hshare (by norm_num)) hge
  have hcast : ((⌊weightedSum weight total_weight live_servers⌋.toNat : ℕ) : ℚ) =
      (⌊weightedSum weight total_weight live_servers⌋ : ℤ) := by
    have hnat := Int.toNat_of_nonneg (Int.floor_nonneg.mpr hsum)
    exact_mod_cast congrArg (fun z : ℤ => (z : ℚ)) hnat
  rw [weightedHashes_eq, hcast]
  have hfloor := Int.floor_le (weightedSum weight total_weight live_servers)
  have hlt := Int.lt_floor_add_one (weightedSum weight total_weight live_servers)
  constructor <;> linarith

/-- All shares together. -/
theorem sum_share (weights : List UInt32) {total_weight : Nat} (live_servers : Nat)
    (htotal : 0 < total_weight) (hsum : (weights.map UInt32.toNat).sum = total_weight) :
    (weights.map fun weight => share weight total_weight live_servers).sum =
      40 * live_servers := by
  have hpull : ∀ l : List UInt32, (l.map fun weight => share weight total_weight live_servers).sum =
      ((l.map UInt32.toNat).sum : ℕ) / total_weight * 40 * live_servers := by
    intro l
    induction l with
    | nil => simp
    | cons weight l ih =>
      rw [List.map_cons, List.sum_cons, ih, List.map_cons, List.sum_cons]
      unfold share
      push_cast
      ring
  have ht : (total_weight : ℚ) ≠ 0 := Nat.cast_ne_zero.mpr (Nat.ne_of_gt htotal)
  rw [hpull, hsum, div_self ht, one_mul]

/-- The hosts together get no more than forty points of four values each, as
long as they are not too many. -/
theorem sum_weightedHashes_le (weights : List UInt32) {total_weight : Nat}
    (htotal : 0 < total_weight) (hsum : (weights.map UInt32.toNat).sum = total_weight)
    (hfew : weights.length ≤ 50000) :
    (weights.map fun weight => weightedHashes weight total_weight weights.length).sum ≤
      40 * weights.length := by
  have hle : ∀ (live : ℕ) (l : List UInt32),
      (((l.map fun weight => weightedHashes weight total_weight live).sum : ℕ) : ℚ) ≤
        (l.map fun weight => share weight total_weight live).sum * (1 + 49 / 100000000) +
          l.length * (2 / 10000000000) := by
    intro live l
    induction l with
    | nil => simp
    | cons weight l ih =>
      have hone := (weightedHashes_bounds weight htotal live).1
      rw [List.map_cons, List.sum_cons, List.map_cons, List.sum_cons, List.length_cons, Nat.cast_add,
        Nat.cast_add, Nat.cast_one]
      linarith
  have hall := hle weights.length weights
  rw [sum_share weights weights.length htotal hsum] at hall
  have hlength : (weights.length : ℚ) ≤ 50000 := by exact_mod_cast hfew
  have hlt : (((weights.map fun weight =>
      weightedHashes weight total_weight weights.length).sum : ℕ) : ℚ) <
        ((40 * weights.length + 1 : ℕ) : ℚ) := by
    rw [Nat.cast_add, Nat.cast_mul, Nat.cast_one, Nat.cast_ofNat]
    linarith
  exact Nat.le_of_lt_succ (by exact_mod_cast hlt)

/-- They get nearly as much as that. -/
theorem le_sum_weightedHashes (weights : List UInt32) {total_weight : Nat}
    (htotal : 0 < total_weight) (hsum : (weights.map UInt32.toNat).sum = total_weight)
    (hfew : weights.length ≤ 50000) :
    39 * weights.length ≤
      (weights.map fun weight => weightedHashes weight total_weight weights.length).sum + 1 := by
  have hle : ∀ (live : ℕ) (l : List UInt32),
      (l.map fun weight => share weight total_weight live).sum * (1 - 49 / 100000000) - l.length ≤
        (((l.map fun weight => weightedHashes weight total_weight live).sum : ℕ) : ℚ) := by
    intro live l
    induction l with
    | nil => simp
    | cons weight l ih =>
      have hone := (weightedHashes_bounds weight htotal live).2
      rw [List.map_cons, List.sum_cons, List.map_cons, List.sum_cons, List.length_cons, Nat.cast_add,
        Nat.cast_add, Nat.cast_one]
      linarith
  have hall := hle weights.length weights
  rw [sum_share weights weights.length htotal hsum] at hall
  have hlength : (weights.length : ℚ) ≤ 50000 := by exact_mod_cast hfew
  have hcast : ((39 * weights.length : ℕ) : ℚ) ≤ (((weights.map fun weight =>
      weightedHashes weight total_weight weights.length).sum + 1 : ℕ) : ℚ) := by
    rw [Nat.cast_mul, Nat.cast_ofNat, Nat.cast_add, Nat.cast_one]
    linarith
  exact_mod_cast hcast

end Libmemcached
