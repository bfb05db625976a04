-- Points on a ring, and the point that a hash goes to: the first one from the
-- hash on, or the first of all where none is left. A sorted array of the points
-- finds it by halving.
import Mathlib.Data.List.Basic
import Mathlib.Order.Lattice
import Mathlib.Tactic.Common

namespace Rings

variable {α ν : Type} [LinearOrder ν] {value : α → ν} {points points' : List α} {h : ν}
variable {p q : α}

/-- `p` is the first point from `h` on. Behind the last one the ring starts
again. -/
structure IsNext (value : α → ν) (points : List α) (h : ν) (p : α) : Prop where
  mem : p ∈ points
  first : ∀ q ∈ points, h ≤ value q → h ≤ value p ∧ value p ≤ value q
  around : value p < h → ∀ q ∈ points, value p ≤ value q

/-- The next points of two rings are at the same place when each ring has both
of them. -/
theorem IsNext.value_eq (hp : IsNext value points h p) (hq : IsNext value points' h q)
    (hpmem : p ∈ points') (hqmem : q ∈ points) : value p = value q := by
  by_cases hbehind : value p < h
  · have hqbehind : value q < h := by
      apply lt_of_not_ge
      intro hge
      exact not_lt_of_ge (hp.first q hqmem hge).1 hbehind
    exact le_antisymm (hp.around hbehind q hqmem) (hq.around hqbehind p hpmem)
  · have hge := le_of_not_gt hbehind
    obtain ⟨hqge, hle⟩ := hq.first p hpmem hge
    exact le_antisymm (hp.first q hqmem hqge).2 hle

/-- It depends on which points there are, not on their order. -/
theorem IsNext.congr (hp : IsNext value points h p) (hmem : ∀ q, q ∈ points ↔ q ∈ points') :
    IsNext value points' h p where
  mem := (hmem p).mp hp.mem
  first q hq := hp.first q ((hmem q).mpr hq)
  around hbehind q hq := hp.around hbehind q ((hmem q).mpr hq)

/-- What else is known of a point does not matter. -/
theorem IsNext.map {β : Type} {value' : β → ν} {f : α → β} (hp : IsNext value points h p)
    (hvalue : ∀ q, value' (f q) = value q) : IsNext value' (points.map f) h (f p) where
  mem := List.mem_map_of_mem hp.mem
  first q hq hge := by
    obtain ⟨q', hq', rfl⟩ := List.mem_map.mp hq
    rw [hvalue] at hge ⊢
    rw [hvalue]
    exact hp.first q' hq' hge
  around hbehind q hq := by
    obtain ⟨q', hq', rfl⟩ := List.mem_map.mp hq
    rw [hvalue] at hbehind ⊢
    rw [hvalue]
    exact hp.around hbehind q' hq'

/-! ## Halving -/

/-- The first number in `[left, right)` that is not `below`. The fuel bounds
the number of halvings. -/
def bisect (below : Nat → Bool) : Nat → Nat → Nat → Nat
  | 0, _, right => right
  | fuel + 1, left, right =>
    if left < right then
      if below (left + (right - left) / 2) then
        bisect below fuel (left + (right - left) / 2 + 1) right
      else bisect below fuel left (left + (right - left) / 2)
    else right

theorem bisect_spec {below : Nat → Bool} {top : Nat}
    (hdown : ∀ i j, i ≤ j → j < top → below j = true → below i = true)
    (fuel left right : Nat) (hle : left ≤ right) (htop : right ≤ top) (hfuel : right - left ≤ fuel)
    (hleft : ∀ i < left, below i = true) :
    bisect below fuel left right ≤ right ∧
      (∀ i < bisect below fuel left right, below i = true) ∧
      ∀ i, bisect below fuel left right ≤ i → i < right → below i = false := by
  induction fuel generalizing left right with
  | zero =>
    obtain rfl : left = right := by omega
    rw [bisect]
    exact ⟨Nat.le_refl _, hleft, fun i hi hlt => absurd hlt (Nat.not_lt_of_le hi)⟩
  | succ fuel ih =>
    rw [bisect]
    split_ifs with hlt hbelow
    · have hprefix : ∀ i < left + (right - left) / 2 + 1, below i = true :=
        fun i hi => hdown i _ (by omega) (by omega) hbelow
      exact ih _ right (by omega) htop (by omega) hprefix
    · obtain ⟨hle', hlow, hhigh⟩ := ih left (left + (right - left) / 2) (by omega) (by omega)
        (by omega) hleft
      refine ⟨by omega, hlow, fun i hi hright => ?_⟩
      by_cases hmiddle : i < left + (right - left) / 2
      · exact hhigh i hi hmiddle
      · -- from the middle on nothing is below
        cases hi' : below i with
        | false => rfl
        | true => exact absurd (hdown _ i (by omega) (by omega) hi') hbelow
    · obtain rfl : left = right := by omega
      exact ⟨Nat.le_refl _, hleft, fun i hi hright => absurd hright (Nat.not_lt_of_le hi)⟩

/-! ## A sorted array -/

/-- The points are in the order of their values. -/
def Sorted (value : α → ν) (points : List α) : Prop :=
  points.Pairwise fun p q => value p ≤ value q

theorem Sorted.ordered (hsorted : Sorted value points) {i j : Nat} (hij : i ≤ j)
    (hp : points[i]? = some p) (hq : points[j]? = some q) : value p ≤ value q := by
  rcases Nat.eq_or_lt_of_le hij with rfl | hlt
  · rw [hp] at hq
    cases hq
    exact le_refl _
  · obtain ⟨hi, rfl⟩ := List.getElem?_eq_some_iff.mp hp
    obtain ⟨hj, rfl⟩ := List.getElem?_eq_some_iff.mp hq
    exact List.pairwise_iff_getElem.mp hsorted i j hi hj hlt

/-- The place from which on a sorted array has no point before `h` holds the
next point. Past the end it is the first one. -/
theorem Sorted.isNext {first : α} {rest : List α} (hsorted : Sorted value (first :: rest))
    (k : Nat) (hlow : ∀ i < k, ∀ q, (first :: rest)[i]? = some q → value q < h)
    (hhigh : ∀ i, k ≤ i → ∀ q, (first :: rest)[i]? = some q → h ≤ value q) :
    IsNext value (first :: rest) h ((first :: rest).getD k first) := by
  rcases hk : (first :: rest)[k]? with _ | p
  · -- all points are before `h`, and the first one is the least
    have hall : ∀ q ∈ first :: rest, value q < h := by
      intro q hq
      obtain ⟨i, hi⟩ := List.mem_iff_getElem?.mp hq
      apply hlow i _ q hi
      have hlen := (List.getElem?_eq_some_iff.mp hi).1
      have hpast := List.getElem?_eq_none_iff.mp hk
      omega
    rw [List.getD_eq_getElem?_getD, hk, Option.getD_none]
    refine ⟨List.mem_cons_self .., fun q hq hge => absurd (hall q hq) (not_lt_of_ge hge), ?_⟩
    intro _ q hq
    obtain ⟨i, hi⟩ := List.mem_iff_getElem?.mp hq
    exact hsorted.ordered (Nat.zero_le i) rfl hi
  · rw [List.getD_eq_getElem?_getD, hk, Option.getD_some]
    have hge := hhigh k (Nat.le_refl k) p hk
    refine ⟨List.mem_iff_getElem?.mpr ⟨k, hk⟩, ?_, fun hlt => absurd hlt (not_lt_of_ge hge)⟩
    intro q hq hqge
    obtain ⟨i, hi⟩ := List.mem_iff_getElem?.mp hq
    refine ⟨hge, hsorted.ordered ?_ hk hi⟩
    apply Nat.le_of_not_lt
    intro hlt
    exact not_lt_of_ge hqge (hlow i hlt q hi)

end Rings
