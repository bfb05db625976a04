-- What the next call reports when an exception left a multi-key fetch with
-- responses unread: its own response, but for a binary command to a host
-- that still has a whole response to give.
import Libmemcached.Hosts
import Libmemcached.MasterKeys
import Libmemcached.OwnResponses

open Chunks Decimal Queues

namespace Libmemcached

open memcached_return_t memcached_server_st memcached_storage_action_t

variable {n : Nat}

/-! ## The call after the fetch -/

/-- `memcached_set` and the other storage calls of the module, by their verb.
Only `memcached_cas` has a cas. -/
def xs_storage (net : Network n) (state : lmc_state_st n) (verb : memcached_storage_action_t)
    (master_key : Option SV) (key value : SV) (expiration flags cas : UInt64) :
    XS n (memcached_return_t × Pad) :=
  match verb, master_key with
  | SET_OP, none => xs_memcached_set net state key value expiration flags
  | SET_OP, some master_key =>
    xs_memcached_set_by_key net state master_key key value expiration flags
  | ADD_OP, none => xs_memcached_add net state key value expiration flags
  | ADD_OP, some master_key =>
    xs_memcached_add_by_key net state master_key key value expiration flags
  | REPLACE_OP, none => xs_memcached_replace net state key value expiration flags
  | REPLACE_OP, some master_key =>
    xs_memcached_replace_by_key net state master_key key value expiration flags
  | PREPEND_OP, none => xs_memcached_prepend net state key value expiration flags
  | PREPEND_OP, some master_key =>
    xs_memcached_prepend_by_key net state master_key key value expiration flags
  | APPEND_OP, none => xs_memcached_append net state key value expiration flags
  | APPEND_OP, some master_key =>
    xs_memcached_append_by_key net state master_key key value expiration flags
  | CAS_OP, none => xs_memcached_cas net state key value expiration flags cas
  | CAS_OP, some master_key =>
    xs_memcached_cas_by_key net state master_key key value expiration flags cas

/-- The cas that a verb sends. -/
def casOfVerb (verb : memcached_storage_action_t) (cas : UInt64) : UInt64 :=
  if verb = CAS_OP then cas else 0

/-- Without a master key the key is its own. -/
def masterOf (master_key : Option SV) (key : SV) : Bytes := SvPV (master_key.getD key)

theorem xs_storage_eq (net : Network n) (state : lmc_state_st n)
    (verb : memcached_storage_action_t) (master_key : Option SV) (key value : SV)
    (expiration flags cas : UInt64) :
    xs_storage net state verb master_key key value expiration flags cas =
      xs_store state (fun ptr k value expiration flags =>
        memcached_send net ptr (match master_key with | none => k | some m => SvPV m) k value
          expiration flags (casOfVerb verb cas) verb) key value expiration flags := by
  cases verb <;> cases master_key <;> rfl

/-- What a call tells its caller. `get` and `get_multi` drop the code. -/
inductive Report
  | got (value : SV) (flags : UInt32) (rc : memcached_return_t)
  | value (value : SV)
  | hash (hv : HV) (rc : memcached_return_t)
  | values (hv : HV)
  | code (rc : memcached_return_t)
  | died

/-- The report of a call that returns, or dies of a callback. -/
def XS.report {α : Type} (f : α → Report) : XS n α → Report
  | .returned _ a => f a
  | .croaked _ => .died

/-- A call that may come next. -/
inductive NextCall
  | memcached_get (key : SV) (flags : UInt32)
  | memcached_get_by_key (master_key key : SV) (flags : UInt32)
  | get (key : GetKey)
  | mget_into_hashref (keys : List Bytes) (dest_ref : HV)
  | get_multi (keys : List Bytes)
  | store (verb : memcached_storage_action_t) (master_key : Option SV) (key value : SV)
      (expiration flags cas : UInt64)
  | delete (master_key : Option SV) (key : SV) (expiration : UInt64)

namespace NextCall

def report (net : Network n) (state : lmc_state_st n) : NextCall → Report
  | memcached_get key flags =>
    (xs_memcached_get net state key flags).report fun got => .got got.value got.flags got.error
  | memcached_get_by_key master_key key flags =>
    (xs_memcached_get_by_key net state master_key key flags).report fun got =>
      .got got.value got.flags got.error
  | get key => (xs_get net state key).report fun got => .value got.value
  | mget_into_hashref keys dest_ref =>
    (xs_mget_into_hashref net state keys dest_ref).report fun out => .hash out.1 out.2
  | get_multi keys => (xs_get_multi net state keys).report .values
  | store verb master_key key value expiration flags cas =>
    (xs_storage net state verb master_key key value expiration flags cas).report fun out =>
      .code out.1
  | delete master_key key expiration =>
    .code (xs_memcached_delete net state master_key key expiration).2

/-- The command of a storage call or a delete, and its host. There is none
when the call is refused, or dies of its callback. -/
def writes (state : lmc_state_st n) : NextCall → Option (Fin n × Bytes)
  | store verb master_key key value expiration flags cas =>
    match pre_call state (callerPad key value flags) with
    | .croaked _ => none
    | .ready _ _ value flags =>
      storageWrites state.ptr (masterOf master_key key) (SvPV key) value expiration flags
        (casOfVerb verb cas) verb
  | delete master_key key expiration =>
    deleteWrites state.ptr (masterOf master_key key) (SvPV key) expiration
  | _ => none

/-- The code that the call makes of that of its response. -/
def settle (p : Protocol) : NextCall → memcached_return_t → memcached_return_t
  | delete .. => settleDeleted
  | _ => settleStored p

/-- The codes of a failed read, of a value and of an end stay as they are. -/
theorem settle_unsettled (p : Protocol) (call : NextCall) {rc : memcached_return_t}
    (h : isReadError rc = true ∨ rc = SUCCESS ∨ rc = END) : call.settle p rc = rc := by
  have hne : rc ≠ STORED ∧ rc ≠ DELETED := by
    constructor <;> rintro rfl <;> simp [isReadError] at h
  cases call with
  | delete master_key key expiration => exact if_neg hne.2
  | _ => exact if_neg fun hand => hne.1 hand.2

end NextCall

/-! ## A handle with nothing left to read -/

/-- The state once all that is pending was read away. -/
def lmc_state_st.drained (state : lmc_state_st n) : lmc_state_st n :=
  { state with ptr := drainAll state.ptr }

theorem drainAll_quiet {ptr : memcached_st n} (h : Synced ptr fun _ => none) :
    drainAll ptr = ptr := by
  unfold drainAll
  induction List.finRange n with
  | nil => rfl
  | cons s hosts ih =>
    rw [List.foldl_cons, drainHost_quiet_of_count s _ ptr (Quiet.count (h s))]
    exact ih

theorem fetchHost_config {ptr ptr' : memcached_st n} (h : SameConfig ptr ptr')
    (master_key : Option Bytes) (keys : List Bytes) :
    fetchHost ptr' master_key keys = fetchHost ptr master_key keys := by
  have hhost : ∀ hn, ptr'.hostOf hn = ptr.hostOf hn := by
    intro hn
    funext key
    rw [memcached_st.hostOf, memcached_st.hostOf, h.routing]
  simp only [fetchHost, h.verify_key, hhost]

section drained

variable (net : Network n) {state : lmc_state_st n} {q : State (Fin n) Reply}
variable (h : Synced state.ptr q)

include h

/-- A fetch reads away what is pending before it asks for anything. -/
theorem mget_by_key_drained (master_key : Option Bytes) (keys : List Bytes) :
    (∃ rc, LMC_RETURN_OK rc = false ∧ rc ≠ SUCCESS ∧
        memcached_mget_by_key net state.ptr master_key keys = (state.ptr, rc) ∧
        memcached_mget_by_key net state.drained.ptr master_key keys = (state.drained.ptr, rc)) ∨
      memcached_mget_by_key net state.drained.ptr master_key keys =
        memcached_mget_by_key net state.ptr master_key keys := by
  obtain ⟨hquiet, hconfig⟩ := drainAll_synced h
  have hhost : fetchHost state.drained.ptr master_key keys = fetchHost state.ptr master_key keys :=
    fetchHost_config hconfig master_key keys
  rcases hroute : fetchHost state.ptr master_key keys with rc | route
  · left
    refine ⟨rc, ?_, ?_, ?_, ?_⟩
    · rcases fetchHost_error hroute with rfl | rfl | rfl <;> rfl
    · rcases fetchHost_error hroute with rfl | rfl | rfl <;> decide
    · rw [memcached_mget_by_key, hroute]
    · rw [memcached_mget_by_key, hhost, hroute]
  · right
    rw [memcached_mget_by_key, memcached_mget_by_key, hhost, hroute]
    have hsame : drainAll state.drained.ptr = drainAll state.ptr := drainAll_quiet hquiet
    simp only [sendKeys, hsame]

/-- What is left of earlier requests has no part in a single-key get. -/
theorem fetch_one_drained {f : Got → Report} (master_key : Option Bytes) (key : Bytes)
    (flags : UInt32) :
    (fetch_one_sv net
        { state.drained with ptr := (memcached_mget_by_key net state.drained.ptr master_key [key]).1 }
        flags (memcached_mget_by_key net state.drained.ptr master_key [key]).2).report f =
      (fetch_one_sv net
        { state with ptr := (memcached_mget_by_key net state.ptr master_key [key]).1 }
        flags (memcached_mget_by_key net state.ptr master_key [key]).2).report f := by
  rcases mget_by_key_drained net h master_key [key] with ⟨rc, -, hrc, hout, hdrained⟩ | hsame
  · rw [hout, hdrained]
    simp only [fetch_one_sv, if_pos hrc, XS.report]
  · rw [hsame]
    rfl

theorem fetch_all_drained {f : HV × memcached_return_t → Report} (keys : List Bytes)
    (dest_ref : HV) :
    (fetch_all_into_hashref net
        { state.drained with ptr := (memcached_mget net state.drained.ptr keys).1 }
        (memcached_mget net state.drained.ptr keys).2 dest_ref).report f =
      (fetch_all_into_hashref net { state with ptr := (memcached_mget net state.ptr keys).1 }
        (memcached_mget net state.ptr keys).2 dest_ref).report f := by
  unfold memcached_mget
  rcases mget_by_key_drained net h none keys with ⟨rc, hrc, -, hout, hdrained⟩ | hsame
  · rw [hout, hdrained]
    simp only [fetch_all_into_hashref, if_pos hrc, XS.report]
  · rw [hsame]
    rfl

end drained

/-! The wrapper around a fetch records its code and reports what it gave. -/

theorem XS.report_record (rc : Got → memcached_return_t) (f : Got → Report) (out : XS n Got) :
    (out.record rc).report f = out.report f := by
  cases out <;> rfl

theorem mget_into_hashref_report (net : Network n) (state : lmc_state_st n) (keys : List Bytes)
    (dest_ref : HV) (f : HV × memcached_return_t → Report) :
    (xs_mget_into_hashref net state keys dest_ref).report f =
      (fetch_all_into_hashref net { state with ptr := (memcached_mget net state.ptr keys).1 }
        (memcached_mget net state.ptr keys).2 dest_ref).report f := by
  unfold xs_mget_into_hashref
  rcases memcached_mget net state.ptr keys with ⟨ptr, rc⟩
  dsimp only
  rcases fetch_all_into_hashref net { state with ptr } rc dest_ref with ⟨state', hv, rc'⟩ | state'
  · rfl
  · rfl

theorem get_multi_report (net : Network n) (state : lmc_state_st n) (keys : List Bytes)
    (f : HV → Report) :
    (xs_get_multi net state keys).report f =
      (fetch_all_into_hashref net { state with ptr := (memcached_mget net state.ptr keys).1 }
        (memcached_mget net state.ptr keys).2 fun _ => none).report fun out => f out.1 := by
  unfold xs_get_multi
  rcases memcached_mget net state.ptr keys with ⟨ptr, rc⟩
  dsimp only
  rcases fetch_all_into_hashref net { state with ptr } rc fun _ => none with
    ⟨state', hv, rc'⟩ | state'
  · rfl
  · rfl

/-- A storage call reports the code of its command, or dies before it. -/
theorem xs_storage_report (net : Network n) (state : lmc_state_st n)
    (verb : memcached_storage_action_t) (master_key : Option SV) (key value : SV)
    (expiration flags cas : UInt64) :
    (NextCall.store verb master_key key value expiration flags cas).report net state =
      match pre_call state (callerPad key value flags) with
      | .croaked _ => .died
      | .ready _ _ value flags => .code (memcached_send net state.ptr (masterOf master_key key)
          (SvPV key) value expiration flags (casOfVerb verb cas) verb).2 := by
  rw [NextCall.report, xs_storage_eq, xs_store]
  cases hpre : pre_call state (callerPad key value flags) with
  | croaked state' => rfl
  | ready state' pad value flags =>
    dsimp only
    rw [pre_call_ptr hpre]
    cases master_key <;> rfl

theorem delete_report (net : Network n) (state : lmc_state_st n) (master_key : Option SV) (key : SV)
    (expiration : UInt64) :
    (NextCall.delete master_key key expiration).report net state =
      .code (memcached_delete_by_key net state.ptr (masterOf master_key key) (SvPV key)
        expiration).2 := by
  cases master_key <;> rfl

/-- T_VALUE:pre_call does not look at the handle. -/
theorem pre_call_drained (state : lmc_state_st n) (pad : Pad) :
    pre_call state.drained pad = match pre_call state pad with
      | .croaked state' => .croaked { state' with ptr := state.drained.ptr }
      | .ready state' pad value flags =>
        .ready { state' with ptr := state.drained.ptr } pad value flags := by
  unfold pre_call
  dsimp only [lmc_state_st.drained]
  split
  · rfl
  · split
    all_goals rfl

/-! ## Whose response a call reports -/

/-- What a call reports is its own. A fetch, or a call that is refused, reports
what it would on a handle with nothing left to read. A storage call or a
delete reports the code of its response when the host sends it whole, and a
failed read when the host sends nothing. -/
def ReportsOwn (q : State (Fin n) Reply) (state : lmc_state_st n) (call : NextCall) : Prop :=
  match call.writes state with
  | none => ∀ net, call.report net state = call.report net state.drained
  | some (s, command) => ∀ net, Takes net → Alive net state.ptr s →
    ∃ rc, call.report net state = .code (call.settle state.ptr.protocol rc) ∧
      CodeIsOwn q state.ptr.protocol s (bytesOf (net.answer s command).1) rc

/-- The fetches, and the calls that write nothing. -/
theorem report_drained (net : Network n) {state : lmc_state_st n} {q : State (Fin n) Reply}
    (h : Synced state.ptr q) (call : NextCall) (hwrites : call.writes state = none) :
    call.report net state = call.report net state.drained := by
  have hconfig : SameConfig state.ptr state.drained.ptr := (drainAll_synced h).2
  cases call with
  | memcached_get key flags =>
    simp only [NextCall.report, xs_memcached_get, XS.report_record]
    exact (fetch_one_drained net h none (SvPV key) flags).symm
  | memcached_get_by_key master_key key flags =>
    simp only [NextCall.report, xs_memcached_get_by_key, XS.report_record]
    exact (fetch_one_drained net h (some (SvPV master_key)) (SvPV key) flags).symm
  | get key =>
    simp only [NextCall.report, xs_get]
    cases key with
    | key key => exact (fetch_one_drained net h none (SvPV key) 0).symm
    | array master_key key =>
      exact (fetch_one_drained net h (some (SvPV master_key)) (SvPV key) 0).symm
  | mget_into_hashref keys dest_ref =>
    simp only [NextCall.report, mget_into_hashref_report]
    exact (fetch_all_drained net h keys dest_ref).symm
  | get_multi keys =>
    simp only [NextCall.report, get_multi_report]
    exact (fetch_all_drained net h keys _).symm
  | store verb master_key key value expiration flags cas =>
    rw [xs_storage_report, xs_storage_report, pre_call_drained]
    simp only [NextCall.writes] at hwrites
    cases hpre : pre_call state (callerPad key value flags) with
    | croaked state' => rfl
    | ready state' pad value flags =>
      rw [hpre] at hwrites
      exact congrArg Report.code (send_of_writes_none net hconfig hwrites).symm
  | delete master_key key expiration =>
    rw [delete_report, delete_report]
    exact congrArg Report.code (delete_of_writes_none net hconfig hwrites).symm

/-- A call that writes a command reports the code of one exchange. -/
theorem report_of_writes (net : Network n) {state : lmc_state_st n} {call : NextCall} {s : Fin n}
    {command : Bytes} (hwrites : call.writes state = some (s, command)) :
    command ≠ [] ∧ ∃ buffer_length, call.report net state =
      .code (call.settle state.ptr.protocol (exchange net state.ptr s command buffer_length).2) := by
  cases call with
  | store verb master_key key value expiration flags cas =>
    rw [xs_storage_report]
    simp only [NextCall.writes] at hwrites
    cases hpre : pre_call state (callerPad key value flags) with
    | croaked state' =>
      rw [hpre] at hwrites
      cases hwrites
    | ready state' pad value flags =>
      rw [hpre] at hwrites
      obtain ⟨hne, buffer_length, hcode⟩ := send_of_writes net hwrites
      exact ⟨hne, buffer_length, congrArg Report.code hcode⟩
  | delete master_key key expiration =>
    obtain ⟨hne, buffer_length, hcode⟩ := delete_of_writes net hwrites
    rw [delete_report]
    exact ⟨hne, buffer_length, congrArg Report.code hcode⟩
  | _ => cases hwrites

/-- Hosts that take all that is sent, and send nothing. -/
def silentHosts : Network n where
  connect _ := SUCCESS
  connect_code := connects_at_once
  accepts _ _ := true
  answer _ _ := ([], .timeout)
  poll _ fds := fds

/-- On any handle that is in step a call reports its own response, unless it
is a binary command to a host with a whole response left. -/
theorem reportsOwn_iff {state : lmc_state_st n} {q : State (Fin n) Reply} (h : Synced state.ptr q)
    (call : NextCall) :
    ReportsOwn q state call ↔ (state.ptr.protocol = .binary → ∀ s command,
      call.writes state = some (s, command) → ¬ HoldsResponse q s) := by
  unfold ReportsOwn
  rcases hwrites : call.writes state with _ | ⟨s, command⟩
  · exact ⟨fun _ _ _ _ hsome => (by cases hsome), fun _ net => report_drained net h call hwrites⟩
  · constructor
    · rintro hown hbinary s' command' hsome hholds
      cases hsome
      have ht : Takes (silentHosts : Network n) := fun _ _ => rfl
      have halive : Alive silentHosts state.ptr s := Or.inr rfl
      obtain ⟨rc, hreport, -, hnothing⟩ := hown silentHosts ht halive
      obtain ⟨hne, buffer_length, hcode⟩ := report_of_writes silentHosts hwrites
      have hstale := exchange_stale h s command hne buffer_length ht halive hbinary hholds
      rw [hcode, call.settle_unsettled _ (Or.inr hstale)] at hreport
      have hread : isReadError rc = true := hnothing rfl
      rw [call.settle_unsettled _ (Or.inl hread)] at hreport
      rw [← Report.code.inj hreport] at hread
      rcases hstale with hrc | hrc <;> rw [hrc] at hread <;> cases hread
    · intro hnone net ht halive
      obtain ⟨hne, buffer_length, hcode⟩ := report_of_writes net hwrites
      refine ⟨_, hcode, ?_⟩
      cases hp : state.ptr.protocol with
      | text => exact exchange_text_own h s command hne buffer_length ht halive hp
      | binary =>
        exact exchange_binary_own h s command hne buffer_length ht halive hp
          (hnone hp s command rfl)

/-! ## The fetch that is left -/

/-- A multi-key fetch. -/
inductive MultiFetch
  | mget_into_hashref (keys : List Bytes) (dest_ref : HV)
  | get_multi (keys : List Bytes)

namespace MultiFetch

def keys : MultiFetch → List Bytes
  | mget_into_hashref keys _ => keys
  | get_multi keys => keys

/-- The state that an exception leaves, when the get callback throws one: it
dies, or is croaked on for a list that is not empty. -/
def diesIn (net : Network n) (state : lmc_state_st n) : MultiFetch → Option (lmc_state_st n)
  | mget_into_hashref keys dest_ref =>
    match xs_mget_into_hashref net state keys dest_ref with
    | .croaked state => some state
    | .returned _ _ => none
  | get_multi keys =>
    match xs_get_multi net state keys with
    | .croaked state => some state
    | .returned _ _ => none

/-- Either is a request and a fetch into a hash. -/
theorem fetch_of_dies {net : Network n} {state state' : lmc_state_st n} {fetch : MultiFetch}
    (h : fetch.diesIn net state = some state') :
    ∃ dest_ref, fetch_all_into_hashref net
        { state with ptr := (memcached_mget net state.ptr fetch.keys).1 }
        (memcached_mget net state.ptr fetch.keys).2 dest_ref = .croaked state' := by
  cases fetch with
  | mget_into_hashref keys dest_ref =>
    refine ⟨dest_ref, ?_⟩
    rcases hm : memcached_mget net state.ptr keys with ⟨ptr, rc⟩
    simp only [diesIn, xs_mget_into_hashref, hm] at h
    simp only [MultiFetch.keys, hm]
    rcases hf : fetch_all_into_hashref net { state with ptr } rc dest_ref with
      ⟨state₁, hv, rc'⟩ | state₁
    · rw [hf] at h
      cases h
    · rw [hf] at h
      cases h
      rfl
  | get_multi keys =>
    refine ⟨fun _ => none, ?_⟩
    rcases hm : memcached_mget net state.ptr keys with ⟨ptr, rc⟩
    simp only [diesIn, xs_get_multi, hm] at h
    simp only [MultiFetch.keys, hm]
    rcases hf : fetch_all_into_hashref net { state with ptr } rc fun _ => none with
      ⟨state₁, hv, rc'⟩ | state₁
    · rw [hf] at h
      cases h
    · rw [hf] at h
      cases h
      rfl

end MultiFetch

/-- The exception leaves the handle in step with its hosts, at whichever
result it is thrown. -/
theorem fetch_all_croaked {net : Network n} {state state' : lmc_state_st n}
    {q : State (Fin n) Reply} (h : Synced state.ptr q) {rc : memcached_return_t} {dest_ref : HV}
    (hout : fetch_all_into_hashref net state rc dest_ref = .croaked state') :
    ∃ q', Synced state'.ptr q' := by
  unfold fetch_all_into_hashref at hout
  dsimp only at hout
  split_ifs at hout
  have hexec := fetch_execute_run net
    (storeHash_plain state.ptr.support_cas state.cb_context.get_cb)
    { state.cb_context with dest_hv := dest_ref, result_count := 0 } h
  generalize memcached_fetch_execute net state.ptr _ _ = out at hexec hout
  cases hexec with
  | returned es q' hrun hcall hstop => cases hout
  | died es s r q' hrun hcall hdied =>
    cases hout
    exact ⟨q', hrun.synced⟩

/-- The call that follows a fetch which an exception left, at any result: it
reports its own response, unless it is a binary command to a host with a whole
response left. -/
theorem a_call_after_an_aborted_fetch_reports_its_own_response_iff {net : Network n}
    {stores : Fin n → Store} {answers : Fin n → List Bytes → Queue Reply}
    {state state' : lmc_state_st n} {q₀ : State (Fin n) Reply} (hsynced : Synced state.ptr q₀)
    (hserves : Serves net stores state.ptr.support_cas state.ptr.protocol answers)
    (fetch : MultiFetch) (hline : ∀ k ∈ fetch.keys, OneLine k)
    (hlength : state.ptr.protocol = .binary →
      ∀ k ∈ fetch.keys, memcached_validate_key_length k.length true = SUCCESS)
    (hdies : fetch.diesIn net state = some state') :
    (∃ q, Synced state'.ptr q) ∧ ∀ q, Synced state'.ptr q → ∀ call : NextCall,
      ReportsOwn q state' call ↔ (state'.ptr.protocol = .binary → ∀ s command,
        call.writes state' = some (s, command) → ¬ HoldsResponse q s) := by
  refine ⟨?_, fun q h call => reportsOwn_iff h call⟩
  obtain ⟨dest_ref, hcroaked⟩ := MultiFetch.fetch_of_dies hdies
  have hsent : ∃ q, Synced (memcached_mget net state.ptr fetch.keys).1 q := by
    rcases mget_by_key_requested hsynced hserves none fetch.keys hline hlength with
      ⟨rc, -, hout⟩ | ⟨route, -, asked, hrequested⟩
    · rw [memcached_mget, hout]
      exact ⟨q₀, hsynced⟩
    · exact ⟨_, hrequested.synced⟩
  obtain ⟨q, hq⟩ := hsent
  exact @fetch_all_croaked _ net { state with ptr := (memcached_mget net state.ptr fetch.keys).1 }
    state' q hq _ _ hcroaked

/-! ## Two hosts, and a callback that dies -/

def dying : Coderef := fun _ invocation => .died invocation.value

/-- A `$memc` whose get callback dies of each value. -/
def dyingState (protocol : Protocol) : lmc_state_st 2 :=
  xs_set_callback_coderefs (lmc_state_new (.create pairRouting protocol)) none (some dying)

/-- What the fetch of the first key leaves. -/
def leftState (net : Network 2) (protocol : Protocol) : lmc_state_st 2 :=
  ((MultiFetch.get_multi [keyA]).diesIn net (dyingState protocol)).getD (dyingState protocol)

theorem leftState_eq {net : Network 2} {protocol : Protocol}
    (h : ((MultiFetch.get_multi [keyA]).diesIn net (dyingState protocol)).isSome = true) :
    (MultiFetch.get_multi [keyA]).diesIn net (dyingState protocol) =
      some (leftState net protocol) := by
  obtain ⟨state, hstate⟩ := Option.isSome_iff_exists.mp h
  rw [leftState, hstate, Option.getD_some]

/-- The text of a refused add is "Data exists for key.". -/
def existsPacket : StatusPacket where
  opcode := PROTOCOL_BINARY_CMD_ADD
  status := 2
  cas := 0
  body := ascii ['D', 'a', 't', 'a', ' ', 'e', 'x', 'i', 's', 't', 's', ' ', 'f', 'o', 'r', ' ',
    'k', 'e', 'y', '.']
  known := by decide
  status_fits := by decide
  settled := by decide
  cas_fits := by decide
  body_fits := by decide
  bare := by decide

/-- Two hosts of the binary protocol. The first holds an item under the first
key, and both refuse an add. -/
def fullHosts : Network 2 where
  connect _ := SUCCESS
  connect_code := connects_at_once
  accepts _ _ := true
  answer s request :=
    if byteAt request 1 = 0x0d then
      (whole (((pairStores s).replies [keyA]).flatMap renderBinary), .timeout)
    else if byteAt request 1 = 0x0a then (whole endBinary, .timeout)
    else (whole existsPacket.bytes, .timeout)
  poll _ fds := fds

/-- The add that comes next, on the same host. -/
def nextAdd : NextCall := .store ADD_OP none (some keyA) (some (ascii ['v'])) 0 0 0

/-- The first host still has the end of its answer to give, and the second one
was not asked. -/
def endLeft (s : Fin 2) : Option (Queue Reply) := if s.val = 0 then some ⟨[], true⟩ else none

theorem synced_endLeft : Synced (leftState fullHosts .binary).ptr endLeft := by
  intro s
  by_cases hs : s = 0
  · subst hs
    have hinput : ((leftState fullHosts .binary).ptr.servers 0).input.bytes = endBinary := by
      decide +kernel
    have howes : Owes (leftState fullHosts .binary).ptr.support_cas .binary
        ((leftState fullHosts .binary).ptr.servers 0) ⟨[], true⟩ :=
      ⟨by decide +kernel, by decide +kernel, by decide +kernel, by simp, endBinary, hinput, rfl⟩
    have hbinary : (leftState fullHosts .binary).ptr.protocol = .binary := by decide +kernel
    rw [hbinary]
    exact howes
  · obtain rfl : s = 1 := by omega
    have hquiet : Quiet ((leftState fullHosts .binary).ptr.servers 1) :=
      ⟨by decide +kernel, by decide +kernel, by decide +kernel⟩
    exact hquiet

/-- The end of the fetch is taken for the response to the add: the host
refuses it, and the call reports MEMCACHED_END, which counts as a success. -/
theorem a_binary_add_reports_the_end_of_an_aborted_fetch :
    ∃ state, (MultiFetch.get_multi [keyA]).diesIn fullHosts (dyingState .binary) = some state ∧
      (∃ command, nextAdd.writes state = some (0, command) ∧
        bytesOf (fullHosts.answer 0 command).1 = existsPacket.bytes ∧
        OwnResponse .binary existsPacket.bytes DATA_EXISTS) ∧
      nextAdd.report fullHosts state = .code END ∧ LMC_RETURN_OK END = true ∧
      ∃ q, Synced state.ptr q ∧ ¬ ReportsOwn q state nextAdd := by
  have hdies := leftState_eq
    (show ((MultiFetch.get_multi [keyA]).diesIn fullHosts (dyingState .binary)).isSome = true by
      decide +kernel)
  have hwrites : nextAdd.writes (leftState fullHosts .binary) = some (0,
      storagePacket ADD_OP keyA (ascii ['v']) 0 0 0) := by
    decide +kernel
  have hanswer : bytesOf (fullHosts.answer 0 (storagePacket ADD_OP keyA (ascii ['v']) 0 0 0)).1 =
      existsPacket.bytes := by
    decide +kernel
  have hown : OwnResponse .binary existsPacket.bytes DATA_EXISTS := .packet existsPacket
  have hreport : nextAdd.report fullHosts (leftState fullHosts .binary) = .code END := by
    have hset : (leftState fullHosts .binary).cb_context.set_cb = none :=
      Option.isNone_iff_eq_none.mp (by decide +kernel)
    have hcode : (memcached_send fullHosts (leftState fullHosts .binary).ptr keyA keyA
        (ascii ['v']) 0 0 0 ADD_OP).2 = END := by
      decide +kernel
    rw [nextAdd, xs_storage_report, pre_call, hset]
    exact congrArg Report.code hcode
  refine ⟨_, hdies, ⟨_, hwrites, hanswer, hown⟩, hreport, rfl, endLeft, synced_endLeft, ?_⟩
  intro hreports
  have hbinary : (leftState fullHosts .binary).ptr.protocol = .binary := by decide +kernel
  unfold ReportsOwn at hreports
  rw [hwrites] at hreports
  obtain ⟨rc, hcode, hresponse, -⟩ := hreports fullHosts (fun _ _ => rfl) (Or.inr rfl)
  rw [hbinary, hanswer] at hresponse
  have hrc : rc = DATA_EXISTS := hresponse _ hown fun pending hpending => by
    cases hpending
    rfl
  rw [hreport, hrc, hbinary] at hcode
  cases hcode

/-- In the text protocol every call after it reports its own response. -/
theorem a_text_fetch_that_died_leaves_every_call_its_own_response :
    ∃ state q, (MultiFetch.get_multi [keyA]).diesIn (textHosts pairStores false fun _ => true)
        (dyingState .text) = some state ∧
      Synced state.ptr q ∧ ∀ call : NextCall, ReportsOwn q state call := by
  have hdies := leftState_eq
    (show ((MultiFetch.get_multi [keyA]).diesIn (textHosts pairStores false fun _ => true)
      (dyingState .text)).isSome = true by decide +kernel)
  obtain ⟨⟨q, hq⟩, hiff⟩ := a_call_after_an_aborted_fetch_reports_its_own_response_iff
    (synced_create pairRouting .text) (textHosts_serves pairStores false fun _ => true)
    (.get_multi [keyA]) (by decide) (fun hbinary => by cases hbinary) hdies
  refine ⟨_, q, hdies, hq, fun call => (hiff q hq call).mpr fun hbinary => ?_⟩
  have htext : (leftState (textHosts pairStores false fun _ => true) .text).ptr.protocol = .text :=
    by decide +kernel
  rw [htext] at hbinary
  cases hbinary

end Libmemcached
