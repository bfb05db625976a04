-- Several sources, each with a queue of items and an end mark, read in any
-- order. Whatever the order, each source gives its own items in its own order,
-- and when nothing is left every item has come out exactly once.
import Mathlib.Data.List.Basic
import Mathlib.Logic.Function.Basic
import Mathlib.Tactic.Common

namespace Queues

variable {ι α : Type}

/-- What a source still owes: its items, and whether its end mark follows or
the source breaks off before it. -/
structure Queue (α : Type) where
  items : List α
  whole : Bool
deriving DecidableEq

/-- The queue of each source, or none when the source owes nothing. -/
abbrev State (ι α : Type) := ι → Option (Queue α)

/-- One thing taken from a source. -/
inductive Event (ι α : Type)
  | item (source : ι) (a : α)
  | close (source : ι)

/-- The items of a list of events, oldest first, with their sources. -/
def delivered : List (Event ι α) → List (ι × α)
  | [] => []
  | .item s a :: es => (s, a) :: delivered es
  | .close _ :: es => delivered es

/-- The items that a source owes. -/
def owed (st : State ι α) (s : ι) : List α := ((st s).map (·.items)).getD []

@[simp] theorem delivered_append (es fs : List (Event ι α)) :
    delivered (es ++ fs) = delivered es ++ delivered fs := by
  induction es with
  | nil => rfl
  | cons e es ih => cases e <;> simp [delivered, ih]

@[simp] theorem delivered_map_close (ss : List ι) :
    delivered (ss.map (Event.close : ι → Event ι α)) = [] := by
  induction ss with
  | nil => rfl
  | cons s ss ih => simpa [delivered] using ih

variable [DecidableEq ι]

/-- The items that one source gave. -/
def itemsOf (s : ι) (ds : List (ι × α)) : List α :=
  (ds.filter fun d => d.1 = s).map (·.2)

/-- Take events one after the other, from any source that owes one. -/
inductive Steps : State ι α → List (Event ι α) → State ι α → Prop
  | refl (st : State ι α) : Steps st [] st
  | item {st st' : State ι α} {s : ι} {a : α} {as : List α} {w : Bool} {es : List (Event ι α)} :
      st s = some ⟨a :: as, w⟩ → Steps (Function.update st s (some ⟨as, w⟩)) es st' →
      Steps st (.item s a :: es) st'
  | close {st st' : State ι α} {s : ι} {es : List (Event ι α)} :
      st s = some ⟨[], true⟩ → Steps (Function.update st s none) es st' →
      Steps st (.close s :: es) st'

@[simp] theorem itemsOf_nil (s : ι) : itemsOf s ([] : List (ι × α)) = [] := rfl

theorem itemsOf_cons (s t : ι) (a : α) (ds : List (ι × α)) :
    itemsOf s ((t, a) :: ds) = if t = s then a :: itemsOf s ds else itemsOf s ds := by
  by_cases h : t = s <;> simp [itemsOf, h]

theorem mem_itemsOf {s : ι} {a : α} {ds : List (ι × α)} : a ∈ itemsOf s ds ↔ (s, a) ∈ ds := by
  simp [itemsOf]

namespace Steps

theorem trans {st st' st'' : State ι α} {es fs : List (Event ι α)} (h : Steps st es st')
    (h' : Steps st' fs st'') : Steps st (es ++ fs) st'' := by
  induction h with
  | refl => exact h'
  | item hs _ ih => exact .item hs (ih h')
  | close hs _ ih => exact .close hs (ih h')

/-- One source gives what it owed, in order, up to what it still owes. -/
theorem owed_eq {st st' : State ι α} {es : List (Event ι α)} (h : Steps st es st') (s : ι) :
    owed st s = itemsOf s (delivered es) ++ owed st' s := by
  induction h with
  | refl => simp [delivered]
  | @item st st' t a as w es hs _ ih =>
    simp only [delivered, itemsOf_cons]
    by_cases ht : t = s
    · subst ht
      have hu : owed (Function.update st t (some ⟨as, w⟩)) t = as := by simp [owed]
      rw [hu] at ih
      simp [owed, hs, ih]
    · have hu : owed (Function.update st t (some ⟨as, w⟩)) s = owed st s := by
        simp [owed, Function.update_of_ne (Ne.symm ht)]
      rw [if_neg ht, ← ih, hu]
  | @close st st' t es hs _ ih =>
    simp only [delivered]
    by_cases ht : t = s
    · subst ht
      have hu : owed (Function.update st t none) t = [] := by simp [owed]
      have ho : owed st t = [] := by simp [owed, hs]
      rw [ho, ← ih, hu]
    · have hu : owed (Function.update st t none) s = owed st s := by
        simp [owed, Function.update_of_ne (Ne.symm ht)]
      rw [← ih, hu]

/-- A source that owes nothing in the end owed a whole answer or nothing. -/
theorem whole_of_closed {st st' : State ι α} {es : List (Event ι α)} (h : Steps st es st')
    {s : ι} {q : Queue α} (hq : st s = some q) (hs : st' s = none) : q.whole = true := by
  induction h generalizing q with
  | refl => rw [hq] at hs; cases hs
  | @item st st' t a as w es ht _ ih =>
    by_cases hts : t = s
    · subst hts
      rw [ht] at hq
      cases hq
      exact ih (q := ⟨as, w⟩) (by simp) hs
    · exact ih (by rw [Function.update_of_ne (Ne.symm hts)]; exact hq) hs
  | @close st st' t es ht _ ih =>
    by_cases hts : t = s
    · subst hts
      rw [ht] at hq
      cases hq
      rfl
    · exact ih (by rw [Function.update_of_ne (Ne.symm hts)]; exact hq) hs

/-- A source that owes nothing stays so. -/
theorem none_of_none {st st' : State ι α} {es : List (Event ι α)} (h : Steps st es st') {s : ι}
    (hs : st s = none) : st' s = none := by
  induction h with
  | refl => exact hs
  | @item st st' t a as w es ht _ ih =>
    have hts : s ≠ t := by rintro rfl; rw [hs] at ht; cases ht
    exact ih (by rw [Function.update_of_ne hts]; exact hs)
  | @close st st' t es ht _ ih =>
    by_cases hts : s = t
    · subst hts; exact ih (by simp)
    · exact ih (by rw [Function.update_of_ne hts]; exact hs)

/-- Whether an answer is whole does not change while it is read. -/
theorem whole_eq {st st' : State ι α} {es : List (Event ι α)} (h : Steps st es st') {s : ι}
    {q q' : Queue α} (hq : st s = some q) (hq' : st' s = some q') : q'.whole = q.whole := by
  induction h generalizing q with
  | refl => rw [hq] at hq'; cases hq'; rfl
  | @item st st' t a as w es ht _ ih =>
    by_cases hts : t = s
    · subst hts
      rw [ht] at hq
      cases hq
      exact ih (q := ⟨as, w⟩) (by simp) hq'
    · exact ih (by rw [Function.update_of_ne (Ne.symm hts)]; exact hq) hq'
  | @close st st' t es ht hrest ih =>
    by_cases hts : t = s
    · subst hts
      rw [none_of_none hrest (by simp)] at hq'
      cases hq'
    · exact ih (by rw [Function.update_of_ne (Ne.symm hts)]; exact hq) hq'

/-- A source that has just given an item owes an end still. -/
theorem pending_of_item {st st' : State ι α} {es : List (Event ι α)} {s : ι} {a : α}
    (h : Steps st (es ++ [.item s a]) st') : st' s ≠ none := by
  induction es generalizing st with
  | nil =>
    cases h with
    | item _ hrest =>
      cases hrest
      simp
  | cons e es ih =>
    cases h with
    | item _ hrest => exact ih hrest
    | close _ hrest => exact ih hrest

/-- When nothing is left, each source gave all that it owed. -/
theorem delivered_all {st st' : State ι α} {es : List (Event ι α)} (h : Steps st es st')
    (hdone : ∀ s, st' s = none) (s : ι) (a : α) :
    (s, a) ∈ delivered es ↔ a ∈ owed st s := by
  rw [h.owed_eq s, ← mem_itemsOf]
  simp [owed, hdone s]

/-- Nothing comes out that is not owed. -/
theorem mem_owed {st st' : State ι α} {es : List (Event ι α)} (h : Steps st es st') {s : ι} {a : α}
    (hd : (s, a) ∈ delivered es) : a ∈ owed st s := by
  rw [h.owed_eq s]
  exact List.mem_append_left _ (mem_itemsOf.mpr hd)

/-- The first item that comes out is the first one that its source owed. -/
theorem head_owed {st st' : State ι α} {es : List (Event ι α)} (h : Steps st es st') {s : ι} {a : α}
    {ds : List (ι × α)} (hd : delivered es = (s, a) :: ds) : (owed st s).head? = some a := by
  rw [h.owed_eq s, hd, itemsOf_cons, if_pos rfl]
  rfl

/-- When one source alone owes something, what comes out is a part of that, in
order, and what it still owes is the rest. -/
theorem delivered_single {st st' : State ι α} {es : List (Event ι α)} (h : Steps st es st') {s : ι}
    (honly : ∀ t, t ≠ s → st t = none) :
    owed st s = (delivered es).map (·.2) ++ owed st' s ∧ ∀ d ∈ delivered es, d.1 = s := by
  have hsource : ∀ d ∈ delivered es, d.1 = s := by
    rintro ⟨t, a⟩ hd
    by_contra ht
    have howed := h.mem_owed hd
    rw [owed, honly t ht] at howed
    cases howed
  refine ⟨?_, hsource⟩
  have hall : (delivered es).filter (fun d => decide (d.1 = s)) = delivered es :=
    List.filter_eq_self.mpr fun d hd => decide_eq_true (hsource d hd)
  rw [h.owed_eq s, itemsOf, hall]

end Steps

end Queues
