-- What calls leave of a handle when each host owes at most the rest of one
-- get, and that rest is whole. It holds of both protocols.
import Libmemcached.MasterKeys
import Libmemcached.MethodTwins
import Libmemcached.WholeFetch

open Chunks Queues

namespace Libmemcached

open memcached_return_t memcached_server_st

variable {n : Nat}

/-! ## Whole answers -/

theorem AllWhole.update_none {q : State (Fin n) Reply} (hq : AllWhole q) (s : Fin n) :
    AllWhole (Function.update q s none) := by
  intro t qs hqs
  by_cases hts : t = s
  · rw [hts, Function.update_self] at hqs
    cases hqs
  · rw [Function.update_of_ne hts] at hqs
    exact hq t qs hqs

/-- Reading takes nothing from a pending answer but its first items. -/
theorem AllWhole.steps {q q' : State (Fin n) Reply} (hq : AllWhole q)
    {es : List (Event (Fin n) Reply)} (h : Steps q es q') : AllWhole q' := by
  intro s qs hqs
  rcases hs : q s with _ | qs₀
  · rw [h.none_of_none hs] at hqs
    cases hqs
  · rw [h.whole_eq hs hqs]
    exact hq s qs₀ hs

/-- A fetch that stops leaves what was pending, less the answer of a host that
it closes. -/
theorem AllWhole.stopped {net : Network n} {ptr ptr' : memcached_st n} {q q' : State (Fin n) Reply}
    {error rc : memcached_return_t} (hq : AllWhole q) (h : Stopped net ptr q error ptr' q' rc) :
    AllWhole q' := by
  cases h with
  | nothing _ _ _ => exact hq
  | broken _ _ _ _ _ => exact hq.update_none _

/-! ## Handles -/

/-- Nothing is pending but whole answers to gets. -/
def Tidy (ptr : memcached_st n) : Prop := ∃ q, Synced ptr q ∧ AllWhole q

/-- A call that leaves `ptr'` of `ptr`: the configuration is the same, and
nothing is pending but whole answers. -/
structure Follows (ptr ptr' : memcached_st n) : Prop where
  config : SameConfig ptr ptr'
  tidy : Tidy ptr'

theorem Tidy.refl {ptr : memcached_st n} (h : Tidy ptr) : Follows ptr ptr := ⟨.refl ptr, h⟩

theorem Follows.trans {ptr ptr' ptr'' : memcached_st n} (h : Follows ptr ptr')
    (h' : Follows ptr' ptr'') : Follows ptr ptr'' := ⟨h.config.trans h'.config, h'.tidy⟩

/-- A host that is quiet afterwards. -/
theorem Tidy.quiet {ptr : memcached_st n} (h : Tidy ptr) (s : Fin n)
    {host : memcached_server_st} (hquiet : Quiet host) : Follows ptr (ptr.setServer s host) := by
  obtain ⟨q, hsynced, hq⟩ := h
  exact ⟨⟨rfl, rfl, rfl, rfl⟩, _, hsynced.setServer s host none hquiet, hq.update_none s⟩

theorem Follows.quiet {ptr ptr' : memcached_st n} (h : Follows ptr ptr') (s : Fin n)
    {host : memcached_server_st} (hquiet : Quiet host) : Follows ptr (ptr'.setServer s host) :=
  h.trans (h.tidy.quiet s hquiet)

theorem Follows.result {ptr ptr' : memcached_st n} (h : Follows ptr ptr')
    (result : memcached_result_st) : Follows ptr { ptr' with result } := by
  obtain ⟨q, hsynced, hq⟩ := h.tidy
  exact ⟨h.config.trans ⟨rfl, rfl, rfl, rfl⟩, q, hsynced.frame rfl rfl rfl, hq⟩

/-- A loop over the hosts, each turn of which leaves the handle so. -/
theorem Follows.foldl {ptr ptr' : memcached_st n} {f : memcached_st n → Fin n → memcached_st n}
    (hf : ∀ st s, Follows ptr st → Follows ptr (f st s)) (hosts : List (Fin n))
    (h : Follows ptr ptr') : Follows ptr (hosts.foldl f ptr') := by
  induction hosts generalizing ptr' with
  | nil => exact h
  | cons s hosts ih => exact ih (hf ptr' s h)

theorem Tidy.quit {ptr : memcached_st n} (h : Tidy ptr) : Follows ptr (memcached_quit ptr) := by
  apply Follows.foldl _ _ h.refl
  intro st s hst
  exact hst.quiet s (quiet_quit _)

theorem Tidy.connect {ptr : memcached_st n} (h : Tidy ptr) (net : Network n) (s : Fin n) :
    Follows ptr (ptr.setServer s (memcached_connect net s (ptr.servers s)).2) := by
  obtain ⟨q, hsynced, hq⟩ := id h
  have hstep := hsynced s
  rcases hqs : q s with _ | qs
  · rw [hqs] at hstep
    rcases connect_cases net s (ptr.servers s) hstep with
      ⟨host, hc, hquiet, -⟩ | ⟨host, hc, hquiet, -⟩
    · rw [hc]
      exact h.quiet s hquiet
    · rw [hc]
      exact h.quiet s hquiet
  · rw [hqs] at hstep
    have howes : Owes ptr.support_cas ptr.protocol (ptr.servers s) qs := hstep
    rw [memcached_connect, if_pos howes.connected]
    refine ⟨⟨rfl, rfl, rfl, rfl⟩, _, hsynced.setServer s _ (q s) ?_, ?_⟩
    · rw [hqs]
      exact howes
    · rw [Function.update_eq_self]
      exact hq

/-! ## Gets -/

section

variable {net : Network n} {stores : Fin n → Store} {ptr : memcached_st n}

/-- A request first reads what is pending at the hosts it asks. -/
theorem Tidy.mget_by_key (h : Tidy ptr) {withCas : Bool} {p : Protocol}
    (hserves : Serves net stores ptr.support_cas ptr.protocol (wholeAnswer stores withCas p))
    (master_key : Option Bytes) {keys : List Bytes} (hkeys : ∀ k ∈ keys, OneLine k)
    (hlength : ptr.protocol = .binary →
      ∀ k ∈ keys, memcached_validate_key_length k.length true = SUCCESS) :
    Follows ptr (memcached_mget_by_key net ptr master_key keys).1 := by
  obtain ⟨q, hsynced, hq⟩ := id h
  rcases mget_by_key_requested hsynced hserves master_key keys hkeys hlength with
    ⟨rc, -, hrefused⟩ | ⟨route, -, asked, hreq⟩
  · rw [hrefused]
    exact h.refl
  · refine ⟨hreq.config, _, hreq.synced, ?_⟩
    intro s qs hqs
    unfold owedFor at hqs
    split_ifs at hqs
    cases hqs
    rfl

/-- However a fetch ends, what it leaves of a whole answer is whole. -/
theorem Tidy.fetch_execute {σ : Type} (h : Tidy ptr) {callbacks : List (Callback σ)}
    (hplain : Plain callbacks) (context : σ) :
    Follows ptr (memcached_fetch_execute net ptr callbacks context).ptr := by
  obtain ⟨q, hsynced, hq⟩ := h
  have hexec := fetch_execute_run net hplain context hsynced
  generalize memcached_fetch_execute net ptr callbacks context = out at hexec
  cases hexec with
  | returned es q' hrun hcall hstop =>
    have hwhole := hq.steps hrun.steps
    exact ⟨hrun.config.trans hstop.config, _, hstop.synced hrun.synced, hwhole.stopped hstop⟩
  | died es s r q' hrun hcall hdied =>
    exact ⟨hrun.config, _, hrun.synced, hq.steps hrun.steps⟩

theorem Tidy.fetch_result (h : Tidy ptr) (error : memcached_return_t) :
    Follows ptr (memcached_fetch_result net ptr error).2.1 := by
  obtain ⟨q, hsynced, hq⟩ := h
  have hfetched := fetch_result_run net error hsynced
  generalize memcached_fetch_result net ptr error = out at hfetched
  cases hfetched with
  | result ss hrun => exact ⟨hrun.config, _, hrun.synced, hq.steps hrun.steps⟩
  | stopped ss hrun hstop =>
    have hwhole := hq.steps hrun.steps
    exact ⟨hrun.config.trans hstop.config, _, hstop.synced hrun.synced, hwhole.stopped hstop⟩

end

/-! ## Callbacks that only store

Without a get callback the callbacks of a fetch store, and go on. -/

/-- Callbacks that store what they are given, and call no Perl code. -/
def Stores (callbacks : List (Callback lmc_cb_context_st)) : Prop :=
  ∀ callback ∈ callbacks, callback = cb_prep_store_into_sv_of_hv ∨ callback = cb_store_into_sv

theorem storeScalar_stores (support_cas : Bool) : Stores (storeScalar support_cas none) := by
  intro callback hcallback
  exact Or.inr (List.mem_singleton.mp hcallback)

theorem storeHash_stores (support_cas : Bool) : Stores (storeHash support_cas none) := by
  intro callback hcallback
  exact List.mem_pair.mp hcallback

section

variable {callbacks : List (Callback lmc_cb_context_st)} (hcallbacks : Stores callbacks)

include hcallbacks

theorem store_keeps (result : memcached_result_st) (context : lmc_cb_context_st) :
    ∃ context', runCallbacks callbacks result context = .returned SUCCESS context' ∧
      context'.get_cb = context.get_cb := by
  induction callbacks generalizing context with
  | nil => exact ⟨context, rfl, rfl⟩
  | cons callback callbacks ih =>
    have hlater := ih fun other hother => hcallbacks other (List.mem_cons_of_mem _ hother)
    rcases hcallbacks callback (List.mem_cons_self ..) with rfl | rfl
    · obtain ⟨context', hrun, hget⟩ := hlater { context with
        dest_hv := hv_fetch_lval context.dest_hv result.item_key
        dest_sv := .element result.item_key }
      exact ⟨context', hrun, hget⟩
    · obtain ⟨context', hrun, hget⟩ := hlater ({ context with
        result_count := context.result_count + 1
        flags := result.item_flags }.setDest (sv_setpvn (memcached_string_value result.value)))
      exact ⟨context', hrun, by rw [hget, lmc_cb_context_st.setDest_get_cb]⟩

theorem callAll_keeps (results : List memcached_result_st) {context context' : lmc_cb_context_st}
    (h : callAll callbacks results context = .returned SUCCESS context') :
    context'.get_cb = context.get_cb := by
  induction results generalizing context with
  | nil =>
    cases h
    rfl
  | cons result results ih =>
    obtain ⟨context₁, hrun, hget⟩ := store_keeps hcallbacks result context
    rw [callAll, hrun] at h
    rw [ih h, hget]

theorem storing_plain : Plain callbacks := by
  intro result context rc context' h
  obtain ⟨context₁, hrun, -⟩ := store_keeps hcallbacks result context
  rw [hrun] at h
  cases h
  rfl

/-- A fetch with such callbacks returns. -/
theorem Tidy.fetch_stores {net : Network n} {ptr : memcached_st n} (h : Tidy ptr)
    (context : lmc_cb_context_st) :
    ∃ ptr' context' rc, memcached_fetch_execute net ptr callbacks context =
        .returned ptr' context' rc ∧ Follows ptr ptr' ∧ context'.get_cb = context.get_cb := by
  obtain ⟨q, hsynced, hq⟩ := id h
  have hfollows : Follows ptr (memcached_fetch_execute net ptr callbacks context).ptr :=
    h.fetch_execute (storing_plain hcallbacks) context
  have hexec := fetch_execute_run net (storing_plain hcallbacks) context hsynced
  generalize memcached_fetch_execute net ptr callbacks context = out at hexec hfollows
  cases hexec with
  | returned es q' hrun hcall hstop =>
    exact ⟨_, _, _, rfl, hfollows, callAll_keeps hcallbacks _ hcall⟩
  | @died es s r ptr' q' context₁ context' hrun hcall hdied =>
    obtain ⟨context₂, hstored, -⟩ := store_keeps hcallbacks ptr'.result context₁
    rw [hstored] at hdied
    cases hdied

end

/-! ## Calls -/

/-- The state that T_VALUE:pre_call leaves. -/
def PreCall.state : PreCall n → lmc_state_st n
  | .ready state _ _ _ => state
  | .croaked state => state

theorem pre_call_keeps (state : lmc_state_st n) (pad : Pad) :
    (pre_call state pad).state.ptr = state.ptr ∧
      (pre_call state pad).state.cb_context.get_cb = state.cb_context.get_cb := by
  simp only [pre_call]
  split
  · exact ⟨rfl, rfl⟩
  · split
    all_goals exact ⟨rfl, rfl⟩

/-- A call that leaves `state'` of `state`, and no get callback. -/
structure Leads (state state' : lmc_state_st n) : Prop where
  handle : Follows state.ptr state'.ptr
  get_cb : state'.cb_context.get_cb = none

section

variable {net : Network n} {state : lmc_state_st n}

theorem Leads.trans {state' state'' : lmc_state_st n} (h : Leads state state')
    (h' : Leads state' state'') : Leads state state'' := ⟨h.handle.trans h'.handle, h'.get_cb⟩

theorem Leads.record {out : XS n Got} (h : Leads state out.state)
    (rc : Got → memcached_return_t) : Leads state (out.record rc).state := by
  cases out with
  | returned state' got => exact ⟨h.handle, h.get_cb⟩
  | croaked state' => exact h

/-- A single fetch, and the callbacks behind it. -/
theorem Leads.fetch_one {state' : lmc_state_st n} (h : Leads state state') (flags : UInt32)
    (error : memcached_return_t) : Leads state (fetch_one_sv net state' flags error).state := by
  unfold fetch_one_sv
  split_ifs
  · exact h
  · dsimp only
    rw [h.get_cb]
    obtain ⟨ptr', context', rc, hexec, hfollows, hkept⟩ :=
      h.handle.tidy.fetch_stores (storeScalar_stores state'.ptr.support_cas)
        { state'.cb_context with
          dest_sv := .scalar, scalar := none, flags, result_count := 0, get_cb := none }
    rw [hexec]
    exact ⟨h.handle.trans hfollows, hkept⟩

/-- A fetch of many results. -/
theorem Leads.fetch_all {state' : lmc_state_st n} (h : Leads state state')
    (rc : memcached_return_t) (dest_ref : HV) :
    Leads state (fetch_all_into_hashref net state' rc dest_ref).state := by
  unfold fetch_all_into_hashref
  dsimp only
  by_cases hrc : LMC_RETURN_OK rc = false
  · rw [if_pos hrc]
    exact ⟨h.handle, h.get_cb⟩
  · rw [if_neg hrc, h.get_cb]
    obtain ⟨ptr', context', rc', hexec, hfollows, hkept⟩ :=
      h.handle.tidy.fetch_stores (storeHash_stores state'.ptr.support_cas)
        { state'.cb_context with dest_hv := dest_ref, result_count := 0, get_cb := none }
    rw [hexec]
    exact ⟨h.handle.trans hfollows, hkept⟩

variable (hget : state.cb_context.get_cb = none)

include hget

theorem Follows.leads {ptr : memcached_st n} (h : Follows state.ptr ptr) :
    Leads state { state with ptr } := ⟨h, hget⟩

theorem Follows.leads_record {ptr : memcached_st n} (h : Follows state.ptr ptr)
    (rc : memcached_return_t) : Leads state (recordReturn { state with ptr } rc) := ⟨h, hget⟩

/-- A set callback may change what is sent, or die. -/
theorem Tidy.store (h : Tidy state.ptr)
    {send : memcached_st n → Bytes → Bytes → UInt64 → UInt32 → memcached_st n × memcached_return_t}
    {key : SV} (hsend : ∀ value expiration flags,
      Follows state.ptr (send state.ptr (SvPV key) value expiration flags).1)
    (value : SV) (expiration flags : UInt64) :
    Leads state (xs_store state send key value expiration flags).state := by
  obtain ⟨hptr, hkept⟩ := pre_call_keeps state (callerPad key value flags)
  unfold xs_store
  cases hpre : pre_call state (callerPad key value flags) with
  | croaked state' =>
    rw [hpre] at hptr hkept
    have hsame : state'.ptr = state.ptr := hptr
    refine ⟨?_, hkept.trans hget⟩
    change Follows state.ptr state'.ptr
    rw [hsame]
    exact h.refl
  | ready state' pad value' flags' =>
    rw [hpre] at hptr hkept
    have hsame : state'.ptr = state.ptr := hptr
    refine ⟨?_, hkept.trans hget⟩
    change Follows state.ptr (send state'.ptr (SvPV key) value' expiration flags').1
    rw [hsame]
    exact hsend value' expiration flags'

theorem Tidy.fetch (h : Tidy state.ptr) (flags : UInt32) (error : ReturnSV) :
    Leads state (xs_memcached_fetch net state flags error).1 := by
  have hfetched : Follows state.ptr (memcached_fetch net state.ptr flags (returnOfSV error)).1 := by
    have hresult : Follows state.ptr
        (memcached_fetch_result net state.ptr (returnOfSV error)).2.1 := h.fetch_result _
    unfold memcached_fetch
    generalize memcached_fetch_result net state.ptr (returnOfSV error) = out at hresult
    obtain ⟨_ | _, ptr, rc⟩ := out
    · exact hresult
    · dsimp only
      split_ifs
      all_goals exact hresult
  exact hfetched.leads_record hget _

/-- The plain calls that are one storage command or a delete. -/
theorem Tidy.plain_command (h : Tidy state.ptr) {call : KeyedCall} (hcall : call.fetches = false)
    {key : SV}
    (hsend : ∀ value expiration flags cas verb, Follows state.ptr (memcached_send net state.ptr
      (SvPV key) (SvPV key) value expiration flags cas verb).1)
    (hdelete : ∀ expiration, Follows state.ptr
      (memcached_delete_by_key net state.ptr (SvPV key) (SvPV key) expiration).1) :
    Leads state (call.plain state key net) := by
  rcases KeyedCall.storage_cases (n := n) hcall with
    ⟨expiration, rfl⟩ | ⟨value, expiration, flags, unique, verb, -, -, hcases⟩
  · exact (hdelete expiration).leads_record hget _
  · rw [(hcases state none key).2]
    apply h.store hget
    intro value expiration flags
    exact hsend value expiration flags unique verb

theorem Tidy.byKey_command (h : Tidy state.ptr) {call : KeyedCall} (hcall : call.fetches = false)
    {master_key key : SV}
    (hsend : ∀ value expiration flags cas verb, Follows state.ptr (memcached_send net state.ptr
      (SvPV master_key) (SvPV key) value expiration flags cas verb).1)
    (hdelete : ∀ expiration, Follows state.ptr
      (memcached_delete_by_key net state.ptr (SvPV master_key) (SvPV key) expiration).1) :
    Leads state (call.byKey state master_key key net) := by
  rcases KeyedCall.storage_cases (n := n) hcall with
    ⟨expiration, rfl⟩ | ⟨value, expiration, flags, unique, verb, -, -, hcases⟩
  · exact (hdelete expiration).leads_record hget _
  · rw [(hcases state master_key key).1]
    apply h.store hget
    intro value expiration flags
    exact hsend value expiration flags unique verb

/-- The calls that fetch one key, or ask for it. -/
theorem Follows.plain_fetch {key : SV}
    (hmget : Follows state.ptr (memcached_mget_by_key net state.ptr none [SvPV key]).1)
    {call : KeyedCall} (hcall : call.fetches = true) : Leads state (call.plain state key net) := by
  have hsent := hmget.leads hget
  cases call with
  | get flags => exact (hsent.fetch_one flags _).record _
  | method => exact hsent.fetch_one 0 _
  | mget => exact hmget.leads_record hget _
  | _ => cases hcall

theorem Follows.byKey_fetch {master_key key : SV}
    (hmget : Follows state.ptr
      (memcached_mget_by_key net state.ptr (some (SvPV master_key)) [SvPV key]).1)
    {call : KeyedCall} (hcall : call.fetches = true) :
    Leads state (call.byKey state master_key key net) := by
  have hsent := hmget.leads hget
  cases call with
  | get flags => exact (hsent.fetch_one flags _).record _
  | method => exact hsent.fetch_one 0 _
  | mget => exact hmget.leads_record hget _
  | _ => cases hcall

theorem Follows.mget_into_hashref {keys : List Bytes}
    (hmget : Follows state.ptr (memcached_mget net state.ptr keys).1) (dest_ref : HV) :
    Leads state (xs_mget_into_hashref net state keys dest_ref).state := by
  have hsent := hmget.leads hget
  have hall : Leads state (fetch_all_into_hashref net
      { state with ptr := (memcached_mget net state.ptr keys).1 }
      (memcached_mget net state.ptr keys).2 dest_ref).state :=
    hsent.fetch_all _ dest_ref
  unfold xs_mget_into_hashref
  dsimp only
  split
  · rename_i heq
    rw [heq] at hall
    exact ⟨hall.handle, hall.get_cb⟩
  · rename_i heq
    rw [heq] at hall
    exact hall

theorem Follows.get_multi {keys : List Bytes}
    (hmget : Follows state.ptr (memcached_mget net state.ptr keys).1) :
    Leads state (xs_get_multi net state keys).state := by
  have hsent := hmget.leads hget
  have hall : Leads state (fetch_all_into_hashref net
      { state with ptr := (memcached_mget net state.ptr keys).1 }
      (memcached_mget net state.ptr keys).2 fun _ => none).state :=
    hsent.fetch_all _ fun _ => none
  unfold xs_get_multi
  dsimp only
  split
  · rename_i heq
    rw [heq] at hall
    exact hall
  · rename_i heq
    rw [heq] at hall
    exact hall

end

end Libmemcached
