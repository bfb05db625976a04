-- A single get: what memcached_get, memcached_get_by_key and the get method
-- make of the responses to their request, in the value, in $rc and in errstr.
import Libmemcached.Hosts
import Libmemcached.Transcripts
import Libmemcached.Wrapper

open Chunks Decimal

namespace Libmemcached

open memcached_return_t

variable {n : Nat}

/-! ## The two functions behind one argument -/

namespace GetKey

/-- The request for a key. -/
def request (net : Network n) (ptr : memcached_st n) : GetKey → memcached_st n × memcached_return_t
  | .key sv => memcached_mget_by_key net ptr none [SvPV sv]
  | .array master_key sv => memcached_mget_by_key net ptr (some (SvPV master_key)) [SvPV sv]

/-- The function that fetches the key: `memcached_get`, or
`memcached_get_by_key`. -/
def fetch (net : Network n) (state : lmc_state_st n) (flags : UInt32) : GetKey → XS n Got
  | .key sv => xs_memcached_get net state sv flags
  | .array master_key sv => xs_memcached_get_by_key net state master_key sv flags

/-- The handle once the request is sent. -/
def requested (net : Network n) (state : lmc_state_st n) (k : GetKey) : lmc_state_st n :=
  { state with ptr := (k.request net state.ptr).1 }

/-- The master key, and the key. -/
def master : GetKey → Option Bytes
  | .key _ => none
  | .array master_key _ => some (SvPV master_key)

def sv : GetKey → SV
  | .key sv => sv
  | .array _ sv => sv

theorem request_eq (net : Network n) (ptr : memcached_st n) (k : GetKey) :
    k.request net ptr = memcached_mget_by_key net ptr k.master [SvPV k.sv] := by
  cases k <;> rfl

/-- The key that is hashed for the host: an empty master key is none. -/
def routeKey (k : GetKey) : Bytes :=
  if k.master.getD [] = [] then SvPV k.sv else k.master.getD []

theorem fetch_eq (net : Network n) (state : lmc_state_st n) (flags : UInt32) (k : GetKey) :
    k.fetch net state flags =
      (fetch_one_sv net (k.requested net state) flags (k.request net state.ptr).2).record
        (·.error) := by
  cases k <;> rfl

/-- The responses to the request, when it is sent. -/
def answers (net : Network n) (state : lmc_state_st n) (k : GetKey) : List (Response n) :=
  if (k.request net state.ptr).2 = SUCCESS then responses net (k.request net state.ptr).1
  else []

end GetKey

/-! ## What is fetched -/

/-- The code of a single get, after `count` results and the code `error`. -/
def singleCode (count : Nat) (error : memcached_return_t) : memcached_return_t :=
  if count = 0 ∧ (error = SUCCESS ∨ error = END) then NOTFOUND
  else if 0 < count ∧ error = END then SUCCESS
  else error

theorem singleCode_of_none {error : memcached_return_t} :
    singleCode 0 error = if error = SUCCESS ∨ error = END then NOTFOUND else error := by
  simp [singleCode]

theorem singleCode_of_some {count : Nat} {error : memcached_return_t} (h : 0 < count) :
    singleCode count error = if error = END then SUCCESS else error := by
  have hne : count ≠ 0 := by omega
  simp [singleCode, h, hne]

namespace GetKey

/-- The codes of the responses to the request. -/
def codes (net : Network n) (state : lmc_state_st n) (k : GetKey) : List memcached_return_t :=
  (k.answers net state).map (·.1)

/-- The code that the request and the responses to it come to. -/
def code (net : Network n) (state : lmc_state_st n) (k : GetKey) : memcached_return_t :=
  if (k.request net state.ptr).2 = SUCCESS then
    singleCode ((k.codes net state).count SUCCESS) ((k.codes net state).getLast?.getD FAILURE)
  else (k.request net state.ptr).2

theorem codes_of_unsent {net : Network n} {state : lmc_state_st n} {k : GetKey}
    (h : (k.request net state.ptr).2 ≠ SUCCESS) : k.codes net state = [] := by
  unfold codes answers
  rw [if_neg h, List.map_nil]

/-- Whatever follows a value but an error, the code is a success. -/
theorem code_of_value {net : Network n} {state : lmc_state_st n} {k : GetKey}
    {e : memcached_return_t} (hvalue : SUCCESS ∈ k.codes net state)
    (hlast : (k.codes net state).getLast? = some e) (hend : e = SUCCESS ∨ e = END) :
    k.code net state = SUCCESS := by
  have hsent : (k.request net state.ptr).2 = SUCCESS := by
    by_contra hne
    rw [codes_of_unsent hne] at hvalue
    cases hvalue
  have hcount : 0 < (k.codes net state).count SUCCESS := List.count_pos_iff.mpr hvalue
  unfold code
  rw [if_pos hsent, singleCode_of_some hcount, hlast]
  rcases hend with rfl | rfl <;> rfl

theorem code_of_no_value {net : Network n} {state : lmc_state_st n} {k : GetKey}
    (hsent : (k.request net state.ptr).2 = SUCCESS) (hnone : SUCCESS ∉ k.codes net state) :
    k.code net state = if (k.codes net state).getLast?.getD FAILURE = SUCCESS ∨
        (k.codes net state).getLast?.getD FAILURE = END then NOTFOUND
      else (k.codes net state).getLast?.getD FAILURE := by
  unfold code
  rw [if_pos hsent, List.count_eq_zero.mpr hnone, singleCode_of_none]

end GetKey

/-- The context that `_fetch_one_sv` hands to its callbacks. -/
def singleContext (context : lmc_cb_context_st) (flags : UInt32) : lmc_cb_context_st :=
  { context with dest_sv := .scalar, scalar := none, flags, result_count := 0 }

/-- What the callbacks of a single get make of the responses. -/
def storedInScalar (net : Network n) (state : lmc_state_st n) (flags : UInt32) :
    Called lmc_cb_context_st :=
  callAll (storeScalar state.ptr.support_cas state.cb_context.get_cb)
    (resultsIn (responses net state.ptr)) (singleContext state.cb_context flags)

/-- How `_fetch_one_sv` ends. -/
inductive SingleFetch (net : Network n) (state : lmc_state_st n) (flags : UInt32) :
    memcached_return_t → XS n Got → Prop
  | refused {error : memcached_return_t} (herror : error ≠ SUCCESS) :
      SingleFetch net state flags error (.returned state ⟨none, flags, error⟩)
  | fetched (ptr : memcached_st n) {context : lmc_cb_context_st}
      (hcall : storedInScalar net state flags = .returned SUCCESS context) :
      SingleFetch net state flags SUCCESS
        (.returned { state with ptr, cb_context := context } ⟨context.scalar, context.flags,
          singleCode context.result_count (endCode FAILURE (responses net state.ptr))⟩)
  | died (ptr : memcached_st n) {context : lmc_cb_context_st}
      (hcall : storedInScalar net state flags = .died context) :
      SingleFetch net state flags SUCCESS (.croaked { state with ptr, cb_context := context })

theorem fetch_one_sv_responses (net : Network n) (state : lmc_state_st n) (flags : UInt32)
    (error : memcached_return_t) :
    SingleFetch net state flags error (fetch_one_sv net state flags error) := by
  unfold fetch_one_sv
  by_cases herror : error = SUCCESS
  · subst herror
    rw [if_neg (by simp)]
    have hhanded := fetch_execute_responses net state.ptr
      (storeScalar_plain state.ptr.support_cas state.cb_context.get_cb)
      (singleContext state.cb_context flags)
    simp only
    unfold singleContext at hhanded
    generalize memcached_fetch_execute net state.ptr _ _ = out at hhanded ⊢
    cases hhanded with
    | returned ptr hcall => exact .fetched ptr hcall
    | died ptr hcall => exact .died ptr hcall
  · rw [if_pos herror]
    exact .refused herror

/-- The last code, by the list of the codes. -/
theorem endCode_eq (error : memcached_return_t) (rs : List (Response n)) :
    endCode error rs = (rs.map (·.1)).getLast?.getD error := by
  induction rs generalizing error with
  | nil => rfl
  | cons r rs ih =>
    have hstep : endCode error (r :: rs) = endCode r.1 rs := rfl
    rw [hstep, ih, List.map_cons, List.getLast?_cons, Option.getD_some]

theorem resultsIn_length (rs : List (Response n)) :
    (resultsIn rs).length = (rs.map (·.1)).count SUCCESS := by
  induction rs with
  | nil => rfl
  | cons r rs ih =>
    unfold resultsIn at ih ⊢
    by_cases h : r.1 = SUCCESS
    · simp only [List.filter_cons, h, decide_true, if_true, List.map_cons, List.length_cons, ih,
        List.count_cons_self]
    · simp only [List.filter_cons, h, decide_false, Bool.false_eq_true, if_false, ih,
        List.map_cons, List.count_cons_of_ne h]

theorem resultsIn_eq_nil {rs : List (Response n)} : resultsIn rs = [] ↔ SUCCESS ∉ rs.map (·.1) := by
  rw [← List.length_eq_zero_iff, resultsIn_length, List.count_eq_zero]

/-! ## Value and status -/

/-- The value that a result stores. -/
def valueOf (result : memcached_result_st) : SV := sv_setpvn (memcached_string_value result.value)

/-- Without a get callback the scalar takes one value after the other. -/
theorem callAll_store (results : List memcached_result_st) (context : lmc_cb_context_st)
    (h : context.dest_sv = .scalar) :
    ∃ context', callAll [cb_store_into_sv] results context = .returned SUCCESS context' ∧
      context'.result_count = context.result_count + results.length ∧
      context'.scalar = results.foldl (fun _ result => valueOf result) context.scalar := by
  induction results generalizing context with
  | nil => exact ⟨context, rfl, rfl, rfl⟩
  | cons result results ih =>
    obtain ⟨context', hcall, hcount, hscalar⟩ := ih
      { context with
        dest_sv := .scalar
        result_count := context.result_count + 1
        flags := result.item_flags
        scalar := valueOf result } rfl
    refine ⟨context', ?_, ?_, hscalar⟩
    · rw [callAll]
      simp only [runCallbacks, cb_store_into_sv, lmc_cb_context_st.setDest, h]
      exact hcall
    · rw [hcount, List.length_cons]
      simp only
      omega

theorem storedInScalar_without_callback (net : Network n) (state : lmc_state_st n)
    (hcb : state.cb_context.get_cb = none) (flags : UInt32) :
    ∃ context, storedInScalar net state flags = .returned SUCCESS context ∧
      context.result_count = (resultsIn (responses net state.ptr)).length ∧
      context.scalar = (resultsIn (responses net state.ptr)).foldl
        (fun _ result => valueOf result) none := by
  obtain ⟨context, hcall, hcount, hscalar⟩ := callAll_store
    (resultsIn (responses net state.ptr)) (singleContext state.cb_context flags) rfl
  refine ⟨context, ?_, ?_, hscalar⟩
  · unfold storedInScalar
    rw [hcb]
    exact hcall
  · rw [hcount]
    exact Nat.zero_add _

/-- Each result that is read has a value that is not empty. -/
def NonEmptyValues (rs : List (Response n)) : Prop :=
  ∀ result ∈ resultsIn rs, SvPV (valueOf result) ≠ []

instance (rs : List (Response n)) : Decidable (NonEmptyValues rs) :=
  inferInstanceAs (Decidable (∀ result ∈ resultsIn rs, SvPV (valueOf result) ≠ []))

theorem foldl_value {results : List memcached_result_st}
    (h : ∀ result ∈ results, SvPV (valueOf result) ≠ []) :
    results.foldl (fun _ result => valueOf result) none = none ↔ results = [] := by
  rcases List.eq_nil_or_concat results with rfl | ⟨init, last, rfl⟩
  · simp
  · have hlast := h last (by simp)
    rw [List.concat_eq_append, List.foldl_append]
    simp only [List.foldl_cons, List.foldl_nil, List.append_eq_nil_iff, List.cons_ne_self,
      and_false, iff_false]
    intro hnone
    rw [hnone] at hlast
    exact hlast rfl

/-- The value and the status of a single get agree with each other, and with
the responses. -/
structure Agree (net : Network n) (before : lmc_state_st n) (k : GetKey) (state : lmc_state_st n)
    (got : Got) : Prop where
  recorded : state.last_return = got.error
  defined : got.value ≠ none ↔ got.error = SUCCESS
  unsent : (k.request net before.ptr).2 ≠ SUCCESS →
    got.value = none ∧ got.error = (k.request net before.ptr).2
  missing : SUCCESS ∉ k.codes net before → (k.codes net before).getLast? = some END →
    got.value = none ∧ got.error = NOTFOUND
  failed : ∀ e, (k.codes net before).getLast? = some e → e ≠ SUCCESS → e ≠ END →
    got.value = none ∧ got.error = e

/-- A value was read, and an error after it ended the fetch. -/
structure ErrorAfterValue (codes : List memcached_return_t) : Prop where
  value : SUCCESS ∈ codes
  error : ∃ e, codes.getLast? = some e ∧ e ≠ SUCCESS ∧ e ≠ END

/-- Without a get callback a single get returns. Its value is defined exactly
when a result was read. -/
theorem single_get_returns (net : Network n) (state : lmc_state_st n)
    (hcb : state.cb_context.get_cb = none) (k : GetKey) (flags : UInt32)
    (hvalues : NonEmptyValues (k.answers net state)) :
    ∃ state' got, k.fetch net state flags = .returned state' got ∧
      state'.last_return = got.error ∧ got.error = k.code net state ∧
      (got.value = none ↔ SUCCESS ∉ k.codes net state) := by
  have hone := fetch_one_sv_responses net (k.requested net state) flags
    (k.request net state.ptr).2
  rw [GetKey.fetch_eq]
  by_cases hsent : (k.request net state.ptr).2 = SUCCESS
  · have hanswers : k.answers net state = responses net (k.requested net state).ptr := by
      unfold GetKey.answers
      rw [if_pos hsent]
      rfl
    unfold GetKey.code GetKey.codes
    rw [if_pos hsent, hanswers, ← resultsIn_length, ← endCode_eq, ← resultsIn_eq_nil]
    rw [hanswers] at hvalues
    rw [hsent] at hone ⊢
    obtain ⟨context', hstored, hcount, hscalar⟩ :=
      storedInScalar_without_callback net (k.requested net state) hcb flags
    generalize fetch_one_sv net (k.requested net state) flags SUCCESS = out at hone
    cases hone with
    | refused herror => exact absurd rfl herror
    | @fetched ptr context hcall =>
      obtain rfl : context = context' := by
        rw [hcall, Called.returned.injEq] at hstored
        exact hstored.2
      refine ⟨_, _, rfl, rfl, by rw [hcount], ?_⟩
      rw [hscalar]
      exact foldl_value hvalues
    | died ptr hcall =>
      rw [hcall] at hstored
      cases hstored
  · unfold GetKey.code
    rw [if_neg hsent, GetKey.codes_of_unsent hsent]
    generalize (k.request net state.ptr).2 = rc at hone hsent
    generalize fetch_one_sv net (k.requested net state) flags rc = out at hone
    cases hone with
    | refused herror => exact ⟨_, _, rfl, rfl, rfl, by simp⟩
    | fetched | died => exact absurd rfl hsent

/-! ## When they agree -/

section

variable {net : Network n} {before state : lmc_state_st n} {k : GetKey} {got : Got}
variable (hrecorded : state.last_return = got.error) (herror : got.error = k.code net before)
variable (hvalue : got.value = none ↔ SUCCESS ∉ k.codes net before)

include hrecorded herror hvalue

theorem agree_of_unsent (hunsent : (k.request net before.ptr).2 ≠ SUCCESS) :
    Agree net before k state got := by
  have hcodes := GetKey.codes_of_unsent hunsent
  have hcode : got.error = (k.request net before.ptr).2 := by
    rw [herror, GetKey.code, if_neg hunsent]
  have hnone : got.value = none := by
    rw [hvalue, hcodes]
    simp
  refine ⟨hrecorded, ?_, fun _ => ⟨hnone, hcode⟩, ?_, ?_⟩
  · rw [hcode]
    exact iff_of_false (not_not_intro hnone) hunsent
  · rw [hcodes]
    intro _ hlast
    cases hlast
  · rw [hcodes]
    intro e hlast
    cases hlast

theorem agree_of_value (hsuccess : SUCCESS ∈ k.codes net before)
    (hno : ¬ ErrorAfterValue (k.codes net before)) : Agree net before k state got := by
  obtain ⟨e, hlast⟩ : ∃ e, (k.codes net before).getLast? = some e :=
    ⟨_, List.getLast?_eq_some_getLast (List.ne_nil_of_mem hsuccess)⟩
  have hend : e = SUCCESS ∨ e = END := by
    by_contra hneither
    rw [not_or] at hneither
    exact hno ⟨hsuccess, e, hlast, hneither.1, hneither.2⟩
  have hcode : got.error = SUCCESS := herror.trans (GetKey.code_of_value hsuccess hlast hend)
  refine ⟨hrecorded, ?_, ?_, fun hnone => absurd hsuccess hnone, ?_⟩
  · exact iff_of_true (fun hnone => hvalue.mp hnone hsuccess) hcode
  · intro hunsent
    rw [GetKey.codes_of_unsent hunsent] at hsuccess
    cases hsuccess
  · intro e' he' hne hend'
    rw [hlast] at he'
    cases he'
    exact absurd hend (not_or.mpr ⟨hne, hend'⟩)

theorem agree_of_no_value (hsent : (k.request net before.ptr).2 = SUCCESS)
    (hnot : SUCCESS ∉ k.codes net before) : Agree net before k state got := by
  have hnone := hvalue.mpr hnot
  rw [GetKey.code_of_no_value hsent hnot] at herror
  refine ⟨hrecorded, ?_, fun hne => absurd hsent hne, fun _ hlast => ?_, ?_⟩
  · refine iff_of_false (not_not_intro hnone) ?_
    rw [herror]
    split_ifs with hend
    · simp
    · exact fun h => hend (Or.inl h)
  · refine ⟨hnone, ?_⟩
    rw [herror, hlast]
    rfl
  · intro e hlast hne hend
    refine ⟨hnone, ?_⟩
    rw [herror, hlast, Option.getD_some, if_neg (not_or.mpr ⟨hne, hend⟩)]

end

/-- Without a get callback, value and status agree exactly when no error
follows a value. -/
theorem a_single_get_agrees_iff_no_error_follows_a_value (net : Network n)
    (state : lmc_state_st n) (hcb : state.cb_context.get_cb = none) (k : GetKey) (flags : UInt32)
    (hvalues : NonEmptyValues (k.answers net state)) :
    (∃ state' got, k.fetch net state flags = .returned state' got ∧
        Agree net state k state' got) ↔ ¬ ErrorAfterValue (k.codes net state) := by
  obtain ⟨state', got, hfetch, hrecorded, herror, hvalue⟩ :=
    single_get_returns net state hcb k flags hvalues
  constructor
  · rintro ⟨state'', got'', hfetch', hagree⟩ ⟨hsuccess, e, hlast, hne, hend⟩
    rw [hfetch] at hfetch'
    cases hfetch'
    exact hvalue.mp (hagree.failed e hlast hne hend).1 hsuccess
  · intro hno
    refine ⟨state', got, hfetch, ?_⟩
    by_cases hsent : (k.request net state.ptr).2 = SUCCESS
    · by_cases hsuccess : SUCCESS ∈ k.codes net state
      · exact agree_of_value hrecorded herror hvalue hsuccess hno
      · exact agree_of_no_value hrecorded herror hvalue hsent hsuccess
    · exact agree_of_unsent hrecorded herror hvalue hsent

/-! ## Two answers -/

/-- The theorem at a host that sends a value and the end marker. -/
theorem a_value_and_an_end_agree :
    (∃ state' got, (GetKey.key (some keyA)).fetch (textHosts pairStores false fun _ => true)
        pairState 0 = .returned state' got ∧
        Agree (textHosts pairStores false fun _ => true) pairState (.key (some keyA)) state' got) ↔
      ¬ ErrorAfterValue ((GetKey.key (some keyA)).codes
        (textHosts pairStores false fun _ => true) pairState) :=
  a_single_get_agrees_iff_no_error_follows_a_value _ pairState rfl _ 0 (by decide +kernel)

theorem pair_connects (s : Fin 2) :
    (textHosts pairStores false fun _ => true).connect s = SUCCESS ∨
      isConnectFailure ((textHosts pairStores false fun _ => true).connect s) = true := .inl rfl

/-- The two hosts, when they send a value and then an error. -/
def valueThenError : Network 2 :=
  { textHosts pairStores false fun _ => true with
    connect_code := pair_connects
    answer := fun _ _ =>
      (Chunks.whole (ascii ['V', 'A', 'L', 'U', 'E', ' ', 'a', ' ', '0', ' ', '1'] ++ [13, 10] ++
        ascii ['x'] ++ [13, 10] ++
        ascii ['S', 'E', 'R', 'V', 'E', 'R', '_', 'E', 'R', 'R', 'O', 'R'] ++ [13, 10]), .timeout) }

/-- The get then returns the value with the error. -/
theorem a_value_before_an_error_is_returned :
    NonEmptyValues ((GetKey.key (some keyA)).answers valueThenError pairState) ∧
      ¬ ∃ state' got, (GetKey.key (some keyA)).fetch valueThenError pairState 0 =
          .returned state' got ∧
        Agree valueThenError pairState (.key (some keyA)) state' got := by
  refine ⟨by decide +kernel, ?_⟩
  rintro ⟨state', got, hfetch, hagree⟩
  have hrun : (match (GetKey.key (some keyA)).fetch valueThenError pairState 0 with
      | .returned _ got => some (got.value, got.error)
      | .croaked _ => none) = some (some (ascii ['x']), SERVER_ERROR) := by decide +kernel
  rw [hfetch] at hrun
  simp only [Option.some.injEq, Prod.mk.injEq] at hrun
  have hsuccess : got.error = SUCCESS := hagree.defined.mp (by simp [hrun.1])
  rw [hrun.2] at hsuccess
  cases hsuccess

end Libmemcached
