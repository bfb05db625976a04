-- The methods that are documented as effectively the same as a function: get,
-- and get_multi. They return what the function returns. The code that errstr
-- gives afterwards is another matter, since only the functions record it.
import Libmemcached.HashFetch
import Libmemcached.SingleGet

open Chunks Decimal

namespace Libmemcached

open memcached_return_t

variable {n : Nat}

/-! ## get -/

theorem xs_get_eq (net : Network n) (state : lmc_state_st n) (k : GetKey) :
    xs_get net state k = fetch_one_sv net (k.requested net state) 0 (k.request net state.ptr).2 := by
  cases k <;> rfl

/-- The flags before a result do not matter to the callbacks of a single get. -/
theorem runCallbacks_any_flags (support_cas : Bool) (get_cb : Option Coderef)
    (result : memcached_result_st) (context : lmc_cb_context_st) (flags : UInt32) :
    runCallbacks (storeScalar support_cas get_cb) result { context with flags } =
      runCallbacks (storeScalar support_cas get_cb) result context := by
  unfold storeScalar
  split_ifs <;> rfl

theorem fire_keeps_count {support_cas : Bool} {result : memcached_result_st}
    {context context' : lmc_cb_context_st} {rc : memcached_return_t}
    (h : cb_fire_perl_get_cb support_cas result context = .returned rc context') :
    context'.result_count = context.result_count := by
  unfold cb_fire_perl_get_cb at h
  split at h
  · cases h
    rfl
  · simp only at h
    split at h
    · cases h
      simp
    · cases h
    · cases h

/-- A result that is stored is counted. -/
theorem runCallbacks_counts {support_cas : Bool} {get_cb : Option Coderef}
    {result : memcached_result_st} {context context' : lmc_cb_context_st}
    {rc : memcached_return_t}
    (h : runCallbacks (storeScalar support_cas get_cb) result context = .returned rc context') :
    context'.result_count = context.result_count + 1 := by
  cases get_cb with
  | none =>
    simp only [storeScalar, Option.isSome_none, Bool.false_eq_true, if_false, runCallbacks,
      cb_store_into_sv, Called.returned.injEq] at h
    rw [← h.2]
    simp
  | some get_cb =>
    simp only [storeScalar, Option.isSome_some, if_true, runCallbacks, cb_store_into_sv] at h
    obtain ⟨called, hfire⟩ := fire_succeeds_or_dies support_cas result
      ({ context with result_count := context.result_count + 1, flags := result.item_flags }.setDest
        (sv_setpvn (memcached_string_value result.value)))
    rcases hfire with hfire | hfire
    · rw [hfire] at h
      simp only [Called.returned.injEq] at h
      rw [← h.2, fire_keeps_count hfire]
      simp
    · rw [hfire] at h
      cases h

theorem callAll_counts {support_cas : Bool} {get_cb : Option Coderef}
    {results : List memcached_result_st} {context context' : lmc_cb_context_st}
    (h : callAll (storeScalar support_cas get_cb) results context = .returned SUCCESS context') :
    context'.result_count = context.result_count + results.length := by
  induction results generalizing context with
  | nil =>
    cases h
    rfl
  | cons result results ih =>
    rw [callAll] at h
    split at h
    · rename_i rc context₁ hcall
      rw [ih h, runCallbacks_counts hcall, List.length_cons]
      omega
    · cases h

/-- The flags before the fetch are left alone when nothing is fetched, and
are forgotten with the first result. -/
theorem callAll_any_flags (support_cas : Bool) (get_cb : Option Coderef)
    (results : List memcached_result_st) (context : lmc_cb_context_st) (flags : UInt32) :
    callAll (storeScalar support_cas get_cb) results { context with flags } =
      if results = [] then .returned SUCCESS { context with flags }
      else callAll (storeScalar support_cas get_cb) results context := by
  cases results with
  | nil => rfl
  | cons result results =>
    rw [if_neg (List.cons_ne_nil _ _), callAll, callAll, runCallbacks_any_flags]

theorem storedInScalar_any_flags (net : Network n) (state : lmc_state_st n) (flags : UInt32) :
    storedInScalar net state flags =
      if resultsIn (responses net state.ptr) = [] then
        .returned SUCCESS (singleContext state.cb_context flags)
      else storedInScalar net state 0 :=
  callAll_any_flags _ _ _ (singleContext state.cb_context 0) flags

namespace GetKey

/-- The get callback dies on a value of the responses. -/
def Dies (net : Network n) (state : lmc_state_st n) (k : GetKey) : Prop :=
  (k.request net state.ptr).2 = SUCCESS ∧
    ∃ context, storedInScalar net (k.requested net state) 0 = .died context

/-- The value that the callbacks leave. -/
def fetched (net : Network n) (state : lmc_state_st n) (k : GetKey) : SV :=
  if (k.request net state.ptr).2 = SUCCESS then
    (storedInScalar net (k.requested net state) 0).context.scalar
  else none

end GetKey

/-- A single get ends in the same way whatever the flags are before it, and it
does not touch the code of errstr. -/
theorem fetch_one_sv_ends (net : Network n) (state : lmc_state_st n) (k : GetKey)
    (flags : UInt32) :
    (k.Dies net state ∧ ∃ state', fetch_one_sv net (k.requested net state) flags
        (k.request net state.ptr).2 = .croaked state' ∧ state'.last_return = state.last_return) ∨
      (¬ k.Dies net state ∧ ∃ state' flags', fetch_one_sv net (k.requested net state) flags
        (k.request net state.ptr).2 = .returned state' ⟨k.fetched net state, flags',
          k.code net state⟩ ∧ state'.last_return = state.last_return) := by
  have hone := fetch_one_sv_responses net (k.requested net state) flags
    (k.request net state.ptr).2
  by_cases hsent : (k.request net state.ptr).2 = SUCCESS
  · have hstored := storedInScalar_any_flags net (k.requested net state) flags
    have hcodes : k.codes net state = (responses net (k.requested net state).ptr).map (·.1) := by
      unfold GetKey.codes GetKey.answers
      rw [if_pos hsent]
      rfl
    unfold GetKey.Dies GetKey.fetched GetKey.code
    rw [hcodes, if_pos hsent, if_pos hsent, ← resultsIn_length, ← endCode_eq]
    rw [hsent] at hone ⊢
    generalize fetch_one_sv net (k.requested net state) flags SUCCESS = out at hone
    cases hone with
    | refused herror => exact absurd rfl herror
    | @fetched ptr context hcall =>
      have hcount : context.result_count =
          (resultsIn (responses net (k.requested net state).ptr)).length := by
        rw [callAll_counts hcall]
        exact Nat.zero_add _
      -- without a result only the flags differ from those of the other call
      have hzero : ∃ context', storedInScalar net (k.requested net state) 0 =
          .returned SUCCESS context' ∧ context'.scalar = context.scalar := by
        by_cases hnil : resultsIn (responses net (k.requested net state).ptr) = []
        · rw [if_pos hnil, hcall] at hstored
          cases hstored
          refine ⟨singleContext state.cb_context 0, ?_, rfl⟩
          rw [storedInScalar_any_flags, if_pos hnil]
          rfl
        · rw [if_neg hnil, hcall] at hstored
          exact ⟨context, hstored.symm, rfl⟩
      obtain ⟨context', hzero, hscalar⟩ := hzero
      refine Or.inr ⟨?_, { k.requested net state with ptr, cb_context := context }, context.flags,
        ?_, rfl⟩
      · rintro ⟨-, died, hdied⟩
        rw [hzero] at hdied
        cases hdied
      · rw [hzero, hcount, Called.context, hscalar]
    | @died ptr context hcall =>
      have hzero : storedInScalar net (k.requested net state) 0 = .died context := by
        by_cases hnil : resultsIn (responses net (k.requested net state).ptr) = []
        · rw [if_pos hnil, hcall] at hstored
          cases hstored
        · rw [if_neg hnil, hcall] at hstored
          exact hstored.symm
      exact Or.inl ⟨⟨rfl, context, hzero⟩, _, rfl, rfl⟩
  · unfold GetKey.Dies GetKey.fetched GetKey.code
    rw [if_neg hsent, if_neg hsent]
    refine Or.inr ⟨fun hdies => hsent hdies.1, ?_⟩
    generalize (k.request net state.ptr).2 = rc at hone hsent
    generalize fetch_one_sv net (k.requested net state) flags rc = out at hone
    cases hone with
    | refused herror => exact ⟨_, flags, rfl, rfl⟩
    | fetched | died => exact absurd rfl hsent

/-! ## get_multi -/

/-- The responses to a multi-key request, when it is sent. -/
def multiAnswers (net : Network n) (state : lmc_state_st n) (keys : List Bytes) :
    List (Response n) :=
  if LMC_RETURN_OK (memcached_mget net state.ptr keys).2 then
    responses net (memcached_mget net state.ptr keys).1
  else []

/-- The get callback dies on a value that goes into a new hash. -/
def MultiDies (net : Network n) (state : lmc_state_st n) (keys : List Bytes) : Prop :=
  ∃ context, callAll
    (storeHash (memcached_mget net state.ptr keys).1.support_cas state.cb_context.get_cb)
    (resultsIn (multiAnswers net state keys))
    { state.cb_context with dest_hv := fun _ => none, result_count := 0 } = .died context

/-- The code that a multi-key request and the responses to it come to. -/
def multiCode (net : Network n) (state : lmc_state_st n) (keys : List Bytes) :
    memcached_return_t :=
  let rc := (memcached_mget net state.ptr keys).2
  let last := if LMC_RETURN_OK rc then
      ((multiAnswers net state keys).map (·.1)).getLast?.getD FAILURE
    else rc
  if last = NOTFOUND then SUCCESS else last

/-- `_fetch_all_into_hashref` does not touch the code of errstr. -/
theorem fetch_all_ends (net : Network n) (state : lmc_state_st n) (keys : List Bytes) :
    (MultiDies net state keys ∧ ∃ state', fetch_all_into_hashref net
        { state with ptr := (memcached_mget net state.ptr keys).1 }
        (memcached_mget net state.ptr keys).2 (fun _ => none) = .croaked state' ∧
        state'.last_return = state.last_return) ∨
      (¬ MultiDies net state keys ∧ ∃ state' hv, fetch_all_into_hashref net
        { state with ptr := (memcached_mget net state.ptr keys).1 }
        (memcached_mget net state.ptr keys).2 (fun _ => none) =
          .returned state' (hv, multiCode net state keys) ∧
        state'.last_return = state.last_return) := by
  unfold MultiDies multiCode multiAnswers fetch_all_into_hashref
  by_cases hok : LMC_RETURN_OK (memcached_mget net state.ptr keys).2 = true
  · have hhanded := fetch_execute_responses net (memcached_mget net state.ptr keys).1
      (storeHash_plain (memcached_mget net state.ptr keys).1.support_cas state.cb_context.get_cb)
      { state.cb_context with dest_hv := fun _ => none, result_count := 0 }
    simp only [hok, if_true, Bool.true_eq_false, if_false]
    rw [← endCode_eq]
    generalize memcached_fetch_execute net (memcached_mget net state.ptr keys).1 _ _ = out
      at hhanded ⊢
    cases hhanded with
    | @returned ptr context hcall =>
      refine Or.inr ⟨?_, { state with ptr, cb_context := context }, context.dest_hv, ?_, rfl⟩
      · rintro ⟨died, hdied⟩
        rw [hcall] at hdied
        cases hdied
      · -- a success stays one
        simp only [XS.returned.injEq, Prod.mk.injEq, true_and]
        split_ifs with h1 h2 h2
        · rfl
        · exact (h1.resolve_left h2).symm
        · exact absurd (Or.inl h2) h1
        · rfl
    | @died ptr context hcall => exact Or.inl ⟨⟨context, hcall⟩, _, rfl, rfl⟩
  · simp only [hok, Bool.false_eq_true, if_false, if_true]
    refine Or.inr ⟨?_, _, _, rfl, rfl⟩
    rintro ⟨died, hdied⟩
    cases hdied

/-! ## Methods and functions -/

/-- How a call ends, as far as a method and its function are compared: with a
value or, when there is none, by an exception, and the code of errstr then. -/
structure Ending (α : Type) where
  value : Option α
  errstr : memcached_return_t

def XS.ending {α β : Type} (value : α → β) : XS n α → Ending β
  | .returned state a => ⟨some (value a), state.last_return⟩
  | .croaked state => ⟨none, state.last_return⟩

/-- A call of one of the two methods. -/
inductive Method
  | get (k : GetKey)
  | get_multi (keys : List Bytes)

namespace Method

/-- The method ends as its function does. -/
def Matches (net : Network n) (state : lmc_state_st n) (flags : UInt32) : Method → Prop
  | .get k => (xs_get net state k).ending (·.value) = (k.fetch net state flags).ending (·.value)
  | .get_multi keys => (xs_get_multi net state keys).ending id =
      (xs_mget_into_hashref net state keys fun _ => none).ending (·.1)

/-- The get callback dies during the call. -/
def Dies (net : Network n) (state : lmc_state_st n) : Method → Prop
  | .get k => k.Dies net state
  | .get_multi keys => MultiDies net state keys

/-- The code that the request of the call and the responses to it come to. -/
def code (net : Network n) (state : lmc_state_st n) : Method → memcached_return_t
  | .get k => k.code net state
  | .get_multi keys => multiCode net state keys

end Method

theorem get_matches_iff (net : Network n) (state : lmc_state_st n) (flags : UInt32) (k : GetKey) :
    (Method.get k).Matches net state flags ↔
      k.Dies net state ∨ state.last_return = k.code net state := by
  change (xs_get net state k).ending (·.value) = (k.fetch net state flags).ending (·.value) ↔ _
  rw [xs_get_eq, GetKey.fetch_eq]
  rcases fetch_one_sv_ends net state k 0 with ⟨hdies, s, hs, hlast⟩ | ⟨hlives, s, f, hs, hlast⟩
  · rcases fetch_one_sv_ends net state k flags with ⟨-, s', hs', hlast'⟩ | ⟨hlives, -⟩
    · rw [hs, hs']
      refine iff_of_true ?_ (Or.inl hdies)
      simp only [XS.record, XS.ending, hlast, hlast']
    · exact absurd hdies hlives
  · rcases fetch_one_sv_ends net state k flags with ⟨hdies, -⟩ | ⟨-, s', f', hs', -⟩
    · exact absurd hdies hlives
    · rw [hs, hs']
      simp only [XS.record, XS.ending, hlast, recordReturn, Ending.mk.injEq, true_and, hlives,
        false_or]

theorem get_multi_matches_iff (net : Network n) (state : lmc_state_st n) (flags : UInt32)
    (keys : List Bytes) : (Method.get_multi keys).Matches net state flags ↔
      MultiDies net state keys ∨ state.last_return = multiCode net state keys := by
  change (xs_get_multi net state keys).ending id =
    (xs_mget_into_hashref net state keys fun _ => none).ending (·.1) ↔ _
  unfold xs_get_multi xs_mget_into_hashref
  rcases fetch_all_ends net state keys with ⟨hdies, s, hs, hlast⟩ | ⟨hlives, s, hv, hs, hlast⟩
  · simp only [hs]
    exact iff_of_true rfl (Or.inl hdies)
  · simp only [hs, XS.ending, recordReturn, id, hlast, Ending.mk.injEq, true_and, hlives, false_or]

end Libmemcached
