-- A map overridden by a list of bindings, the last binding of a key winning.
import Mathlib.Data.List.Basic
import Mathlib.Logic.Function.Basic
import Mathlib.Tactic.Common

namespace Override

variable {κ ν : Type} [DecidableEq κ]

/-- A finite map, as the function that looks a key up. -/
abbrev Map (κ ν : Type) := κ → Option ν

/-- `m` overridden by the bindings, oldest first. -/
def override (m : Map κ ν) (bs : List (κ × ν)) : Map κ ν :=
  bs.foldl (fun m b => Function.update m b.1 (some b.2)) m

@[simp] theorem override_nil (m : Map κ ν) : override m [] = m := rfl

@[simp] theorem override_cons (m : Map κ ν) (b : κ × ν) (bs : List (κ × ν)) :
    override m (b :: bs) = override (Function.update m b.1 (some b.2)) bs := rfl

/-- A key that no binding names keeps its value. -/
theorem override_of_not_mem (m : Map κ ν) (bs : List (κ × ν)) (k : κ)
    (h : k ∉ bs.map (·.1)) : override m bs k = m k := by
  induction bs generalizing m with
  | nil => rfl
  | cons b bs ih =>
    simp only [List.map_cons, List.mem_cons, not_or] at h
    rw [override_cons, ih _ h.2, Function.update_of_ne h.1]

/-- A key that a binding names has the value of one of its bindings. -/
theorem override_of_mem (m : Map κ ν) (bs : List (κ × ν)) (k : κ) (h : k ∈ bs.map (·.1)) :
    ∃ v, (k, v) ∈ bs ∧ override m bs k = some v := by
  induction bs generalizing m with
  | nil => simp at h
  | cons b bs ih =>
    by_cases hk : k ∈ bs.map (·.1)
    · obtain ⟨v, hv, he⟩ := ih (Function.update m b.1 (some b.2)) hk
      exact ⟨v, by simp [hv], by rw [override_cons, he]⟩
    · have hb : k = b.1 := by simpa [hk] using h
      subst hb
      exact ⟨b.2, by simp, by rw [override_cons, override_of_not_mem _ _ _ hk]; simp⟩

/-- When all bindings of a key agree, their order does not matter. -/
theorem override_of_agree (m : Map κ ν) (bs : List (κ × ν)) (k : κ) (v : ν) (h : (k, v) ∈ bs)
    (hv : ∀ w, (k, w) ∈ bs → w = v) : override m bs k = some v := by
  obtain ⟨w, hw, he⟩ := override_of_mem m bs k (List.mem_map.mpr ⟨_, h, rfl⟩)
  rw [he, hv w hw]

/-- Bindings of the same values to the same keys give the same map, in any
order and with any repetition. -/
theorem override_congr (m : Map κ ν) (bs cs : List (κ × ν)) (hmem : ∀ b, b ∈ bs ↔ b ∈ cs)
    (hagree : ∀ k v w, (k, v) ∈ bs → (k, w) ∈ bs → v = w) : override m bs = override m cs := by
  funext k
  by_cases hk : k ∈ bs.map (·.1)
  · obtain ⟨⟨k', v⟩, hb, rfl⟩ := List.mem_map.mp hk
    rw [override_of_agree m bs k' v hb (fun w hw => hagree _ _ _ hw hb),
      override_of_agree m cs k' v ((hmem _).mp hb)
        (fun w hw => hagree _ _ _ ((hmem _).mpr hw) hb)]
  · have hk' : k ∉ cs.map (·.1) := by
      intro hc
      obtain ⟨b, hb, rfl⟩ := List.mem_map.mp hc
      exact hk (List.mem_map.mpr ⟨b, (hmem b).mpr hb, rfl⟩)
    rw [override_of_not_mem _ _ _ hk, override_of_not_mem _ _ _ hk']

/-- The map of the bindings is a relation that has them all exactly when the
relation has no more and gives each key one value. -/
theorem override_iff_mem {bs cs : List (κ × ν)} (hsub : ∀ b ∈ bs, b ∈ cs) :
    (∀ k v, override (fun _ => none) bs k = some v ↔ (k, v) ∈ cs) ↔
      (∀ b ∈ cs, b ∈ bs) ∧ ∀ k v w, (k, v) ∈ cs → (k, w) ∈ cs → v = w := by
  constructor
  · intro h
    have hone : ∀ k v w, (k, v) ∈ cs → (k, w) ∈ cs → v = w := by
      intro k v w hv hw
      have heq := ((h k v).mpr hv).symm.trans ((h k w).mpr hw)
      exact Option.some.inj heq
    refine ⟨?_, hone⟩
    rintro ⟨k, v⟩ hb
    have hv := (h k v).mpr hb
    by_cases hk : k ∈ bs.map (·.1)
    · obtain ⟨w, hw, he⟩ := override_of_mem (fun _ => none) bs k hk
      rw [he] at hv
      cases hv
      exact hw
    · rw [override_of_not_mem _ _ _ hk] at hv
      cases hv
  · rintro ⟨hback, hone⟩ k v
    constructor
    · intro h
      by_cases hk : k ∈ bs.map (·.1)
      · obtain ⟨w, hw, he⟩ := override_of_mem (fun _ => none) bs k hk
        rw [he] at h
        cases h
        exact hsub _ hw
      · rw [override_of_not_mem _ _ _ hk] at h
        cases h
    · intro h
      exact override_of_agree _ bs k v (hback _ h) (fun w hw => hone k w v (hsub _ hw) h)

end Override
