-- What a multi-key fetch makes of its hash: each result sets the element of
-- its key, in the order of delivery, to what the get callback makes of it.
import Libmemcached.Wrapper

open Chunks Override Queues

namespace Libmemcached

open memcached_return_t

variable {n : Nat}

/-- A get callback that returns an empty list and touches nothing but `$_` and
`$_[1]`: it makes a value and flags of what it is given. -/
abbrev Transform := Invocation → SV × UInt64

def Transform.coderef (f : Transform) : Coderef := fun _ invocation =>
  .empty (f invocation).1 (f invocation).2

/-- What the callback is called with for one result: the key, the value and
the flags of that result. -/
def invocationOf (support_cas : Bool) (result : memcached_result_st) : Invocation where
  key := result.item_key
  value := sv_setpvn (memcached_string_value result.value)
  flags := uvOfFlags result.item_flags
  cas := if support_cas then some result.item_cas else none

theorem runCallbacks_storeScalar (support_cas : Bool) {get_cb : Coderef}
    (result : memcached_result_st) {context : lmc_cb_context_st}
    (hdest : context.dest_sv = .scalar) (hget : context.get_cb = some get_cb) {value : SV}
    {flags : UInt64}
    (hcall : get_cb context.calls (invocationOf support_cas result) = .empty value flags) :
    runCallbacks (storeScalar support_cas (some get_cb)) result context =
      .returned SUCCESS { context with
        scalar := value
        flags := flagsOfUV flags
        result_count := context.result_count + 1
        calls := context.calls ++ [invocationOf support_cas result] } := by
  unfold invocationOf at hcall ⊢
  simp only [storeScalar, Option.isSome_some, if_true, runCallbacks, cb_store_into_sv,
    cb_fire_perl_get_cb, cb_fire_perl_cb, lmc_cb_context_st.setDest, lmc_cb_context_st.dest, hdest,
    hget, hcall]

/-- The element that one result leaves in the hash. -/
def elementOf (support_cas : Bool) (get_cb : Option Transform) (result : memcached_result_st) : SV :=
  match get_cb with
  | none => (invocationOf support_cas result).value
  | some f => (f (invocationOf support_cas result)).1

/-- The bindings of a list of results, in the order of delivery. -/
def bindingsOf (support_cas : Bool) (get_cb : Option Transform)
    (results : List memcached_result_st) : List (Bytes × SV) :=
  results.map fun result => (result.item_key, elementOf support_cas get_cb result)

def callsOf (support_cas : Bool) (get_cb : Option Transform)
    (results : List memcached_result_st) : List Invocation :=
  if get_cb.isSome then results.map (invocationOf support_cas) else []

def storeResult (support_cas : Bool) (get_cb : Option Transform) (context : lmc_cb_context_st)
    (result : memcached_result_st) : lmc_cb_context_st :=
  { context with
    dest_sv := .element result.item_key
    dest_hv := Function.update context.dest_hv result.item_key
      (some (elementOf support_cas get_cb result))
    flags := match get_cb with
      | none => result.item_flags
      | some f => flagsOfUV (f (invocationOf support_cas result)).2
    result_count := context.result_count + 1
    calls := context.calls ++ callsOf support_cas get_cb [result] }

/-- The new element of a key, once a value is set, hides what was there. -/
theorem update_hv_fetch_lval (hv : HV) (key : Bytes) (v : SV) :
    Function.update (hv_fetch_lval hv key) key (some v) = Function.update hv key (some v) := by
  unfold hv_fetch_lval
  split
  · simp
  · rfl

theorem runCallbacks_storeHash (support_cas : Bool) (get_cb : Option Transform)
    (result : memcached_result_st) (context : lmc_cb_context_st)
    (h : context.get_cb = get_cb.map Transform.coderef) :
    runCallbacks (storeHash support_cas context.get_cb) result context =
      .returned SUCCESS (storeResult support_cas get_cb context result) := by
  rw [h]
  cases get_cb with
  | none =>
    simp only [storeHash, Option.map_none, Option.isSome_none, Bool.false_eq_true, if_false,
      runCallbacks, cb_prep_store_into_sv_of_hv, cb_store_into_sv, lmc_cb_context_st.setDest,
      storeResult, elementOf, callsOf, update_hv_fetch_lval, List.append_nil, invocationOf]
  | some f =>
    simp only [Option.map_some] at h
    simp only [storeHash, Option.map_some, Option.isSome_some, if_true, runCallbacks,
      cb_prep_store_into_sv_of_hv, cb_store_into_sv, cb_fire_perl_get_cb, cb_fire_perl_cb,
      lmc_cb_context_st.setDest, lmc_cb_context_st.dest, h, Transform.coderef, storeResult,
      elementOf, callsOf, update_hv_fetch_lval, Function.update_self, Option.getD_some,
      Function.update_idem, List.map_cons, List.map_nil, invocationOf]

theorem foldl_storeResult (support_cas : Bool) (get_cb : Option Transform)
    (results : List memcached_result_st) (context : lmc_cb_context_st) :
    (results.foldl (storeResult support_cas get_cb) context).dest_hv =
        override context.dest_hv (bindingsOf support_cas get_cb results) ∧
      (results.foldl (storeResult support_cas get_cb) context).calls =
        context.calls ++ callsOf support_cas get_cb results ∧
      (results.foldl (storeResult support_cas get_cb) context).result_count =
        context.result_count + results.length := by
  induction results generalizing context with
  | nil => simp [bindingsOf, callsOf]
  | cons result results ih =>
    obtain ⟨h1, h2, h3⟩ := ih (storeResult support_cas get_cb context result)
    rw [List.foldl_cons, h1, h2, h3]
    refine ⟨rfl, ?_, ?_⟩
    · cases get_cb <;> simp [storeResult, callsOf]
    · simp only [storeResult, List.length_cons]; omega

/-- The results that a multi-key fetch delivers: those of the hosts, or none
when the request failed. -/
def fetchedResults (net : Network n) (state : lmc_state_st n) (keys : List Bytes) :
    List memcached_result_st :=
  match memcached_mget net state.ptr keys with
  | (ptr, rc) => if LMC_RETURN_OK rc then deliveries net ptr else []

theorem steady_storeHash (support_cas : Bool) (get_cb : Option Transform) :
    Steady (storeHash support_cas (get_cb.map Transform.coderef))
      (fun context => context.get_cb = get_cb.map Transform.coderef)
      (storeResult support_cas get_cb) where
  run result context h := by
    have := runCallbacks_storeHash support_cas get_cb result context h
    rwa [h] at this
  keep _ _ h := h

/-- What the callbacks and the hash have seen once all results are stored. -/
structure Stored (support_cas : Bool) (get_cb : Option Transform)
    (results : List memcached_result_st) (context context' : lmc_cb_context_st) : Prop where
  calls : context'.calls = context.calls ++ callsOf support_cas get_cb results
  count : context'.result_count = results.length

theorem fetch_all_stored (net : Network n) (state : lmc_state_st n) (rc : memcached_return_t)
    (dest_ref : HV) (get_cb : Option Transform)
    (h : state.cb_context.get_cb = get_cb.map Transform.coderef) :
    ∃ state' rc', fetch_all_into_hashref net state rc dest_ref =
        .returned state' (override dest_ref (bindingsOf state.ptr.support_cas get_cb
          (if LMC_RETURN_OK rc then deliveries net state.ptr else [])), rc') ∧
      Stored state.ptr.support_cas get_cb
        (if LMC_RETURN_OK rc then deliveries net state.ptr else []) state.cb_context
        state'.cb_context := by
  by_cases hok : LMC_RETURN_OK rc = true
  · obtain ⟨ptr', rc', hexec⟩ := fetch_execute_foldl net state.ptr
    let context := { state.cb_context with dest_hv := dest_ref, result_count := 0 }
    have hrun := hexec _ _ _ _ (steady_storeHash state.ptr.support_cas get_cb) context h
    obtain ⟨hhv, hcalls, hcount⟩ := foldl_storeResult state.ptr.support_cas get_cb
      (deliveries net state.ptr) context
    rw [← h] at hrun
    rw [if_pos hok, ← hhv]
    let final := (deliveries net state.ptr).foldl (storeResult state.ptr.support_cas get_cb) context
    refine ⟨{ state with ptr := ptr', cb_context := final },
      if rc' = NOTFOUND ∨ rc' = SUCCESS then SUCCESS else rc', ?_, hcalls,
      hcount.trans (Nat.zero_add _)⟩
    simp only [fetch_all_into_hashref, hok, Bool.true_eq_false, if_false]
    rw [hrun]
  · simp only [fetch_all_into_hashref, hok, if_true, Bool.false_eq_true, if_false]
    exact ⟨_, _, rfl, by simp [callsOf], rfl⟩

theorem fetch_all_failed (net : Network n) (state : lmc_state_st n) {rc : memcached_return_t}
    (h : LMC_RETURN_OK rc = false) (dest_ref : HV) :
    ∃ state', fetch_all_into_hashref net state rc dest_ref =
      .returned state' (dest_ref, if rc = NOTFOUND then SUCCESS else rc) ∧
        state'.ptr = state.ptr := by
  simp only [fetch_all_into_hashref, h, if_true]
  exact ⟨_, rfl, rfl⟩

/-- The same on a handle that is in step, with what the hosts deliver. -/
theorem fetch_all_steadily {net : Network n} (state : lmc_state_st n) {q : State (Fin n) Reply}
    {es : List (Event (Fin n) Reply)} {ptr₁ ptr' : memcached_st n} {q₁ q' : State (Fin n) Reply}
    {rc' : memcached_return_t} (h : Steadily net state.ptr q es ptr₁ q₁ ptr' q' rc')
    (rc : memcached_return_t) (hrc : LMC_RETURN_OK rc = true) (dest_ref : HV)
    (get_cb : Option Transform) (hcb : state.cb_context.get_cb = get_cb.map Transform.coderef) :
    ∃ state', fetch_all_into_hashref net state rc dest_ref = .returned state'
        (override dest_ref (bindingsOf state.ptr.support_cas get_cb (results state.ptr es)),
          if rc' = NOTFOUND ∨ rc' = SUCCESS then SUCCESS else rc') ∧ state'.ptr = ptr' := by
  let context := { state.cb_context with dest_hv := dest_ref, result_count := 0 }
  have hrun := h.exec _ _ _ _ (steady_storeHash state.ptr.support_cas get_cb) context hcb
  obtain ⟨hhv, -, -⟩ := foldl_storeResult state.ptr.support_cas get_cb (results state.ptr es)
    context
  rw [← hcb] at hrun
  rw [← hhv]
  let final := (results state.ptr es).foldl (storeResult state.ptr.support_cas get_cb) context
  refine ⟨{ state with ptr := ptr', cb_context := final }, ?_, rfl⟩
  simp only [fetch_all_into_hashref, hrc, Bool.true_eq_false, if_false]
  rw [hrun]

end Libmemcached
