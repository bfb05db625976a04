-- Blocks of memory that are allocated and released one by one. A heap counts
-- the releases of each block, and the accesses to what is not live.
import Mathlib.Data.List.Basic
import Mathlib.Tactic.Common

namespace Heaps

variable {α : Type}

/-- A block, with the number of times it was released. -/
structure Block (α : Type) where
  contents : α
  releases : Nat

/-- The blocks in the order of their allocation, and the number of accesses
through a pointer that is NULL or dangling. -/
structure Heap (α : Type) where
  blocks : List (Block α)
  wild : Nat

namespace Heap

def empty : Heap α := ⟨[], 0⟩

/-- What a block holds. A released block can still be read. -/
def contents (h : Heap α) (i : Nat) : Option α := h.blocks[i]?.map (·.contents)

/-- How often a block was released, when there is such a block. -/
def releases (h : Heap α) (i : Nat) : Option Nat := h.blocks[i]?.map (·.releases)

def Live (h : Heap α) (i : Nat) : Prop := h.releases i = some 0

instance (h : Heap α) (i : Nat) : Decidable (h.Live i) := inferInstanceAs (Decidable (_ = _))

/-- The pointer leads to a live block. -/
def Points (h : Heap α) (p : Option Nat) : Prop := ∃ i ∈ p, h.Live i

instance (h : Heap α) (p : Option Nat) : Decidable (h.Points p) :=
  match p with
  | none => isFalse (by simp [Points])
  | some i => decidable_of_iff (h.Live i) (by simp [Points])

/-! ## Operations -/

/-- A new block. -/
def alloc (h : Heap α) (a : α) : Nat × Heap α :=
  (h.blocks.length, { h with blocks := h.blocks ++ [⟨a, 0⟩] })

/-- Read through a pointer. -/
def access (h : Heap α) (p : Option Nat) : Heap α :=
  { h with wild := if h.Points p then h.wild else h.wild + 1 }

/-- Change the block that a pointer leads to. -/
def update (h : Heap α) (p : Option Nat) (f : Block α → Block α) : Heap α :=
  match p with
  | none => h
  | some i => { h with blocks := h.blocks.modify i f }

/-- Write through a pointer. -/
def write (h : Heap α) (p : Option Nat) (f : α → α) : Heap α :=
  (h.access p).update p fun b => { b with contents := f b.contents }

/-- Release a block. `residue` is what can be read of it then. -/
def release (h : Heap α) (p : Option Nat) (residue : α → α) : Heap α :=
  (h.access p).update p fun b => ⟨residue b.contents, b.releases + 1⟩

/-! ## What the operations change -/

/-- Only a block of the heap has a number of releases. -/
theorem releases_lt {h : Heap α} {i c : Nat} (hi : h.releases i = some c) :
    i < h.blocks.length := by
  unfold releases at hi
  obtain ⟨b, hb, -⟩ := Option.map_eq_some_iff.mp hi
  exact (List.getElem?_eq_some_iff.mp hb).1

theorem points_some {h : Heap α} {i : Nat} : h.Points (some i) ↔ h.Live i := by simp [Points]

theorem alloc_new (h : Heap α) (a : α) :
    (h.alloc a).2.contents (h.alloc a).1 = some a ∧ (h.alloc a).2.Live (h.alloc a).1 := by
  simp [alloc, contents, Live, releases]

/-- An allocation leaves the blocks that are there. -/
theorem alloc_old (h : Heap α) (a : α) {i : Nat} (hi : i < h.blocks.length) :
    (h.alloc a).2.contents i = h.contents i ∧ (h.alloc a).2.releases i = h.releases i := by
  simp only [alloc, contents, releases, List.getElem?_append_left hi, and_self]

@[simp] theorem wild_alloc (h : Heap α) (a : α) : (h.alloc a).2.wild = h.wild := rfl

@[simp] theorem contents_access (h : Heap α) (p : Option Nat) (i : Nat) :
    (h.access p).contents i = h.contents i := rfl

@[simp] theorem releases_access (h : Heap α) (p : Option Nat) (i : Nat) :
    (h.access p).releases i = h.releases i := rfl

@[simp] theorem length_access (h : Heap α) (p : Option Nat) :
    (h.access p).blocks.length = h.blocks.length := rfl

/-- A good access changes nothing. -/
theorem access_live {h : Heap α} {i : Nat} (hi : h.Live i) : h.access (some i) = h := by
  unfold access
  rw [if_pos (points_some.mpr hi)]

/-- A bad access is counted. -/
theorem wild_access_dead {h : Heap α} {p : Option Nat} (hp : ¬ h.Points p) :
    (h.access p).wild = h.wild + 1 := if_neg hp

@[simp] theorem wild_update (h : Heap α) (p : Option Nat) (f : Block α → Block α) :
    (h.update p f).wild = h.wild := by
  cases p <;> rfl

@[simp] theorem length_update (h : Heap α) (p : Option Nat) (f : Block α → Block α) :
    (h.update p f).blocks.length = h.blocks.length := by
  cases p with
  | none => rfl
  | some i => exact List.length_modify _ _ _

@[simp] theorem length_write (h : Heap α) (p : Option Nat) (f : α → α) :
    (h.write p f).blocks.length = h.blocks.length :=
  (length_update _ _ _).trans (length_access h p)

@[simp] theorem length_release (h : Heap α) (p : Option Nat) (residue : α → α) :
    (h.release p residue).blocks.length = h.blocks.length :=
  (length_update _ _ _).trans (length_access h p)

@[simp] theorem length_alloc (h : Heap α) (a : α) :
    (h.alloc a).2.blocks.length = h.blocks.length + 1 := by
  simp [alloc]

theorem update_self (h : Heap α) (i : Nat) (f : Block α → Block α) :
    (h.update (some i) f).blocks[i]? = h.blocks[i]?.map f := by
  simp [update]

/-- The other blocks keep what they are. -/
theorem update_other (h : Heap α) {p : Option Nat} {j : Nat} (f : Block α → Block α)
    (hj : p ≠ some j) : (h.update p f).blocks[j]? = h.blocks[j]? := by
  cases p with
  | none => rfl
  | some i =>
    have hne : i ≠ j := fun he => hj (congrArg some he)
    simp [update, hne]

theorem contents_write_self (h : Heap α) (i : Nat) (f : α → α) :
    (h.write (some i) f).contents i = (h.contents i).map f := by
  unfold write contents
  rw [update_self, Option.map_map, Option.map_map]
  rfl

theorem contents_write_other (h : Heap α) {p : Option Nat} {j : Nat} (f : α → α)
    (hj : p ≠ some j) : (h.write p f).contents j = h.contents j := by
  unfold write contents
  rw [update_other _ _ hj]
  rfl

@[simp] theorem releases_write (h : Heap α) (p : Option Nat) (f : α → α) (j : Nat) :
    (h.write p f).releases j = h.releases j := by
  unfold write releases
  by_cases hj : p = some j
  · subst hj
    rw [update_self, Option.map_map]
    rfl
  · rw [update_other _ _ hj]
    rfl

theorem wild_write_live {h : Heap α} {i : Nat} (hi : h.Live i) (f : α → α) :
    (h.write (some i) f).wild = h.wild := by
  unfold write
  rw [wild_update, access_live hi]

/-- A release counts, whether the block was released before or not. -/
theorem releases_release_self (h : Heap α) (i : Nat) (residue : α → α) :
    (h.release (some i) residue).releases i = (h.releases i).map (· + 1) := by
  unfold release releases
  rw [update_self, Option.map_map, Option.map_map]
  rfl

theorem contents_release_self (h : Heap α) (i : Nat) (residue : α → α) :
    (h.release (some i) residue).contents i = (h.contents i).map residue := by
  unfold release contents
  rw [update_self, Option.map_map, Option.map_map]
  rfl

/-- A release leaves the other blocks. -/
theorem release_other (h : Heap α) {p : Option Nat} {j : Nat} (residue : α → α)
    (hj : p ≠ some j) : (h.release p residue).contents j = h.contents j ∧
      (h.release p residue).releases j = h.releases j := by
  unfold release contents releases
  rw [update_other _ _ hj]
  exact ⟨rfl, rfl⟩

theorem wild_release_live {h : Heap α} {i : Nat} (hi : h.Live i) (residue : α → α) :
    (h.release (some i) residue).wild = h.wild := by
  unfold release
  rw [wild_update, access_live hi]

/-- A released block is not live. -/
theorem release_dead {h : Heap α} {i : Nat} (hi : h.Live i) (residue : α → α) :
    (h.release (some i) residue).releases i = some 1 := by
  rw [releases_release_self, hi]
  rfl

end Heap

end Heaps
