-- The value buffer of a handle: NULL until a value needs room in it, and never
-- given back after that. A text value always needs room, for its line end; an
-- empty binary value does not.
import Libmemcached.Tidy

open Chunks Queues

namespace Libmemcached

open memcached_return_t memcached_server_st

variable {n : Nat}

/-! ## One reply -/

/-- Room for nothing is made without an allocation. -/
theorem string_check_size_iff (string : memcached_string_st) (h : string.bytes = []) (need : Nat) :
    (memcached_string_check string need).current_size ≠ 0 ↔ string.current_size ≠ 0 ∨ need ≠ 0 := by
  by_cases hneed : need = 0
  · unfold memcached_string_check
    rw [if_neg (by omega)]
    simp [hneed]
  · simp [hneed, string_check_allocates string h hneed]

theorem storeReply_size_iff (withCas : Bool) (result : memcached_result_st) (r : Reply) :
    (storeReply withCas .binary result r).value.current_size ≠ 0 ↔
      result.value.current_size ≠ 0 ∨ r.item.value ≠ [] := by
  have hroom := string_check_size_iff (memcached_string_reset result.value) rfl r.item.value.length
  rw [ne_eq r.item.value.length, List.length_eq_zero_iff] at hroom
  exact hroom

theorem foldl_storeReply_size_iff (withCas : Bool) (rs : List Reply) (result : memcached_result_st) :
    (rs.foldl (storeReply withCas .binary) result).value.current_size ≠ 0 ↔
      result.value.current_size ≠ 0 ∨ ∃ r ∈ rs, r.item.value ≠ [] := by
  induction rs generalizing result with
  | nil => simp
  | cons r rs ih =>
    rw [List.foldl_cons, ih, storeReply_size_iff]
    simp only [List.exists_mem_cons_iff]
    exact or_assoc

/-- What a binary reply leaves for the callbacks to copy: undef, when the
value is empty and the buffer is NULL still. -/
theorem invocationOf_binary (withCas : Bool) (result : memcached_result_st) (r : Reply) :
    invocationOf withCas (storeReply withCas .binary result r) =
      if result.value.current_size ≠ 0 ∨ r.item.value ≠ [] then replyInvocation withCas r
      else { replyInvocation withCas r with value := none } := by
  have hsize := storeReply_size_iff withCas result r
  by_cases hroom : (storeReply withCas .binary result r).value.current_size = 0
  · rw [if_neg (fun h => hsize.mpr h hroom), invocationOf, memcached_string_value, if_pos hroom]
    rfl
  · rw [if_pos (hsize.mp hroom), invocationOf, memcached_string_value, if_neg hroom]
    rfl

/-! ## Many replies -/

/-- The value buffer is allocated before the first of the replies is copied
out. -/
def RoomFor (p : Protocol) (result : memcached_result_st) (rs : List Reply) : Prop :=
  p = .binary → result.value.current_size ≠ 0 ∨ ∀ r ∈ rs.head?, r.item.value ≠ []

theorem invocationOf_room {withCas : Bool} {p : Protocol} {result : memcached_result_st} {r : Reply}
    {rs : List Reply} (h : RoomFor p result (r :: rs)) :
    invocationOf withCas (storeReply withCas p result r) = replyInvocation withCas r := by
  cases p with
  | text => exact invocationOf_text withCas result r
  | binary =>
    have hroom := (h rfl).imp_right fun hfirst => hfirst r rfl
    rw [invocationOf_binary, if_pos hroom]

/-- Behind the first reply the buffer is allocated. -/
theorem RoomFor.tail (withCas : Bool) {p : Protocol} {result : memcached_result_st} {r : Reply}
    {rs : List Reply} (h : RoomFor p result (r :: rs)) :
    RoomFor p (storeReply withCas p result r) rs := by
  rintro rfl
  have hroom := (h rfl).imp_right fun hfirst => hfirst r rfl
  exact Or.inl ((storeReply_size_iff withCas result r).mpr hroom)

theorem bindingsOf_room {withCas : Bool} {p : Protocol} {result : memcached_result_st}
    {rs : List Reply} (h : RoomFor p result rs) :
    bindingsOf withCas none (resultsOf withCas p result rs) =
      rs.map (replyBinding withCas none) := by
  induction rs generalizing result with
  | nil => rfl
  | cons r rs ih =>
    have hrest := ih (h.tail withCas)
    have hkey : (storeReply withCas p result r).item_key = r.key := by cases p <;> rfl
    have hvalue : elementOf withCas none (storeReply withCas p result r) = some r.item.value :=
      congrArg Invocation.value (invocationOf_room h)
    rw [bindingsOf] at hrest ⊢
    rw [resultsOf, List.map_cons, List.map_cons, hrest, hkey, hvalue]
    rfl

/-! ## The drain -/

/-- The drain reads all pending replies into the result buffer. -/
theorem drain_result {ptr : memcached_st n} {q : State (Fin n) Reply} (hq : AllWhole q)
    {hosts : List (Fin n)} (hnodup : hosts.Nodup) {st : memcached_st n} (hconfig : SameConfig ptr st)
    (h : ∀ s ∈ hosts, InStep ptr.support_cas ptr.protocol (st.servers s) (q s)) :
    (hosts.foldl (fun st s => drainHost s ((st.servers s).input.bytes.length + 1) st) st).result =
      (hosts.flatMap (owed q)).foldl (storeReply ptr.support_cas ptr.protocol) st.result := by
  induction hosts generalizing st with
  | nil => rfl
  | cons s hosts ih =>
    obtain ⟨hs, hnodup⟩ := List.nodup_cons.mp hnodup
    have hstep := h s (List.mem_cons_self ..)
    have hread : (drainHost s ((st.servers s).input.bytes.length + 1) st).result =
        (owed q s).foldl (storeReply ptr.support_cas ptr.protocol) st.result := by
      rcases hqs : q s with _ | ⟨rs, w⟩
      · rw [hqs] at hstep
        rw [drainHost_quiet_of_count _ _ _ (Quiet.count hstep), owed, hqs]
        rfl
      · obtain rfl : w = true := hq s _ hqs
        rw [hqs] at hstep
        have howes : Owes st.support_cas st.protocol (st.servers s) ⟨rs, true⟩ := by
          rw [hconfig.support_cas, hconfig.protocol]
          exact hstep
        rw [(drainHost_owes s rs true _ st (Nat.lt_succ_of_le (owes_length howes)) howes).2 rfl,
          owed, hqs, hconfig.support_cas, hconfig.protocol]
        rfl
    have hlater : ∀ t ∈ hosts, InStep ptr.support_cas ptr.protocol
        ((drainHost s ((st.servers s).input.bytes.length + 1) st).servers t) (q t) := by
      intro t ht
      have hts : t ≠ s := by
        rintro rfl
        exact hs ht
      rw [drainHost_other s t _ st hts]
      exact h t (List.mem_cons_of_mem _ ht)
    rw [List.foldl_cons, ih hnodup (hconfig.trans (drainHost_config _ _ _)) hlater, hread,
      List.flatMap_cons, List.foldl_append]

/-- The value buffer is allocated, or a value that is pending needs room. -/
def Allocated (ptr : memcached_st n) : Prop :=
  ptr.result.value.current_size ≠ 0 ∨
    ∃ q, Synced ptr q ∧ AllWhole q ∧ ∃ s, ∃ r ∈ owed q s, r.item.value ≠ []

/-- Such a handle has an allocated buffer when the drain of a get is done, and
no other handle has one. -/
theorem Tidy.allocated_iff {ptr : memcached_st n} (h : Tidy ptr) (hbinary : ptr.protocol = .binary) :
    Allocated ptr ↔ (drainAll ptr).result.value.current_size ≠ 0 := by
  have hdrained : ∀ q, Synced ptr q → AllWhole q →
      ((drainAll ptr).result.value.current_size ≠ 0 ↔ ptr.result.value.current_size ≠ 0 ∨
        ∃ s, ∃ r ∈ owed q s, r.item.value ≠ []) := by
    intro q hsynced hq
    have hresult := drain_result hq (List.nodup_finRange n) (.refl ptr) fun s _ => hsynced s
    rw [hbinary] at hresult
    rw [drainAll, hresult, foldl_storeReply_size_iff]
    apply or_congr_right
    simp only [List.mem_flatMap, List.mem_finRange, true_and]
    constructor
    · rintro ⟨r, ⟨s, hr⟩, hvalue⟩
      exact ⟨s, r, hr, hvalue⟩
    · rintro ⟨s, r, hr, hvalue⟩
      exact ⟨r, ⟨s, hr⟩, hvalue⟩
  obtain ⟨q, hsynced, hq⟩ := h
  constructor
  · rintro (hsize | ⟨q', hsynced', hq', hvalue⟩)
    · exact (hdrained q hsynced hq).mpr (Or.inl hsize)
    · exact (hdrained q' hsynced' hq').mpr (Or.inr hvalue)
  · intro hsize
    rcases (hdrained q hsynced hq).mp hsize with hsize | hvalue
    · exact Or.inl hsize
    · exact Or.inr ⟨q, hsynced, hq, hvalue⟩

end Libmemcached
