-- The documented fetch loop, `memcached_mget` and then `memcached_fetch` until
-- it gives undef, against the one call that fetches into a hash.
import Libmemcached.Hosts
import Libmemcached.WholeFetch
import Mathlib.Data.List.TakeWhile

open Chunks Override Queues

namespace Libmemcached

open memcached_return_t memcached_server_st

variable {n : Nat}

/-- `while (defined(my $v = memcached_fetch($memc, $key, $flags, $rc))) {
$h{$key} = $v }`. Each turn that goes on has read a byte. -/
def fetchLoop (net : Network n) :
    Nat → lmc_state_st n → UInt32 → ReturnSV → HV → lmc_state_st n × HV
  | 0, state, _, _, h => (state, h)
  | fuel + 1, state, flags, rc, h =>
    match xs_memcached_fetch net state flags rc with
    | (state, (some v, key, flags, rc)) =>
      fetchLoop net fuel state flags rc (Function.update h key (some (some v)))
    | (state, (none, _, _, _)) => (state, h)

/-- The request and the loop, from an empty hash and any `$flags` and `$rc`. -/
def mgetAndLoop (net : Network n) (fuel : Nat) (state : lmc_state_st n) (keys : List Bytes)
    (flags : UInt32) (rc : ReturnSV) : lmc_state_st n × HV :=
  fetchLoop net fuel (xs_memcached_mget net state none keys).1 flags rc fun _ => none

/-- The hash of the loop is that of `mget_into_hashref`, and every host was
read to the end. -/
def LoopAgrees (net : Network n) (fuel : Nat) (state : lmc_state_st n) (keys : List Bytes)
    (flags : UInt32) (rc : ReturnSV) : Prop :=
  (∃ state' code, xs_mget_into_hashref net state keys (fun _ => none) =
      .returned state' ((mgetAndLoop net fuel state keys flags rc).2, code)) ∧
    ∀ s, Quiet ((mgetAndLoop net fuel state keys flags rc).1.ptr.servers s)

/-! ## One fetch -/

/-- A key that the protocol allows is not changed by the copy. -/
theorem strncpy_valid {key : Bytes} (h : ValidKey key) : strncpy key = key := by
  have hshort : key.takeWhile (· ≠ 0) = key := by
    apply List.takeWhile_eq_self_iff.mpr
    intro c hc
    have hclean := h.clean c hc
    simp only [ne_eq, decide_eq_true_eq]
    rintro rfl
    exact absurd hclean (by decide)
  unfold strncpy
  simp only [hshort, Nat.sub_self, List.replicate_zero, List.append_nil]

/-- What `memcached_fetch` gives for a reply. -/
def fetchedValue (r : Reply) : SV := if r.item.value = [] then none else some r.item.value

/-- One call of the loop: it skips end markers up to a reply, or finds that
nothing is left. -/
inductive FetchedOne (net : Network n) (state : lmc_state_st n) (q : State (Fin n) Reply) :
    lmc_state_st n × (SV × Bytes × UInt32 × ReturnSV) → Prop
  | reply (ss : List (Fin n)) {s : Fin n} {r : Reply} {state' : lmc_state_st n}
      {q' : State (Fin n) Reply} {flags : UInt32} {rc : ReturnSV}
      (hrun : Run net state.ptr q (ss.map Event.close ++ [.item s r]) state'.ptr q') :
      FetchedOne net state q (state', (fetchedValue r, r.key, flags, rc))
  | nothing (ss : List (Fin n)) {ptr : memcached_st n} {state' : lmc_state_st n} {key : Bytes}
      {flags : UInt32} {rc : ReturnSV}
      (hrun : Run net state.ptr q (ss.map Event.close) ptr (fun _ => none))
      (hquiet : Synced state'.ptr (fun _ => none)) (hturn : turns net 1 ptr = none) :
      FetchedOne net state q (state', (none, key, flags, rc))

theorem Synced.valid {ptr : memcached_st n} {q : State (Fin n) Reply} (h : Synced ptr q) {s : Fin n}
    {r : Reply} (hr : r ∈ owed q s) : ValidKey r.key := by
  have hs := h s
  rcases hq : q s with _ | qs
  · rw [owed, hq] at hr
    cases hr
  · rw [hq] at hs
    rw [owed, hq] at hr
    exact Owes.valid hs r hr

/-- The result buffer of a reply gives the value of the reply. -/
theorem string_c_copy_storeReply (withCas : Bool) (p : Protocol) (result : memcached_result_st)
    (r : Reply) :
    sv_setpvn (memcached_string_c_copy (storeReply withCas p result r).value) = fetchedValue r := by
  unfold memcached_string_c_copy fetchedValue
  rw [(storeReply_holds withCas p result r).value]
  simp only [List.length_eq_zero_iff]
  rfl

theorem delivered_closes_item (ss : List (Fin n)) (s : Fin n) (r : Reply) :
    delivered (ss.map Event.close ++ [.item s r]) = [(s, r)] := by
  rw [delivered_append, delivered_map_close]
  rfl

theorem xs_memcached_fetch_one {net : Network n} (hprompt : Prompt net) (state : lmc_state_st n)
    {q : State (Fin n) Reply} (h : Synced state.ptr q) (hq : AllWhole q) (flags : UInt32)
    (rc : ReturnSV) : FetchedOne net state q (xs_memcached_fetch net state flags rc) := by
  have hfetch := fetch_result_run net (returnOfSV rc) h
  unfold xs_memcached_fetch memcached_fetch
  generalize memcached_fetch_result net state.ptr (returnOfSV rc) = out at hfetch ⊢
  cases hfetch with
  | @result ss s r ptr' q' hrun =>
    have hresult := hrun.result_eq
    rw [delivered_closes_item] at hresult
    simp only [List.map_cons, List.map_nil, List.foldl_cons, List.foldl_nil] at hresult
    have hvalid : ValidKey r.key := by
      apply h.valid (s := s)
      apply hrun.steps.mem_owed
      rw [delivered_closes_item]
      exact List.mem_singleton_self _
    have hkey : ptr'.result.item_key = r.key := by
      rw [hresult]
      exact (storeReply_holds _ _ _ _).key
    have hshort : ¬ MEMCACHED_MAX_KEY < ptr'.result.item_key.length := by
      rw [hkey]
      exact Nat.not_lt.mpr (Nat.le_of_lt hvalid.short)
    simp only [ne_eq, not_true, if_false, hshort]
    rw [hkey, strncpy_valid hvalid, hresult, string_c_copy_storeReply]
    exact .reply ss hrun
  | @stopped ss ptr₁ ptr' q₁ q' rc' hrun hstop =>
    have hturn := stopped_turns hstop
    have hquiet := hstop.synced hrun.synced
    obtain ⟨rfl, rfl, -⟩ := hstop.finished hprompt hq hrun.steps
    exact .nothing ss hrun hquiet hturn

/-! ## The loop -/

/-- The elements that the loop sets, in order. -/
def loopBindings (es : List (Event (Fin n) Reply)) : List (Bytes × SV) :=
  (delivered es).map fun d => (d.2.key, some d.2.item.value)

/-- How the loop ends: nothing is left and no value was empty, or it took an
empty value for the end. -/
inductive Looped (net : Network n) (ptr : memcached_st n) (q : State (Fin n) Reply) (h : HV) :
    lmc_state_st n × HV → Prop
  | done {es : List (Event (Fin n) Reply)} {ptr' : memcached_st n} {state' : lmc_state_st n}
      (hrun : Run net ptr q es ptr' (fun _ => none)) (hturn : turns net 1 ptr' = none)
      (hquiet : Synced state'.ptr (fun _ => none))
      (hvalues : ∀ d ∈ delivered es, d.2.item.value ≠ []) :
      Looped net ptr q h (state', override h (loopBindings es))
  | early {es : List (Event (Fin n) Reply)} {s : Fin n} {r : Reply} {state' : lmc_state_st n}
      {q' : State (Fin n) Reply} {h' : HV} (hrun : Run net ptr q es state'.ptr q')
      (hr : (s, r) ∈ delivered es) (hempty : r.item.value = []) (hs : q' s ≠ none) :
      Looped net ptr q h (state', h')

/-- A reply with a value before the rest of the loop. -/
theorem Looped.after {net : Network n} {ptr ptr₁ : memcached_st n} {q q₁ : State (Fin n) Reply}
    {ss : List (Fin n)} {s : Fin n} {r : Reply} {h : HV} {out : lmc_state_st n × HV}
    (hrun : Run net ptr q (ss.map Event.close ++ [.item s r]) ptr₁ q₁) (hvalue : r.item.value ≠ [])
    (hout : Looped net ptr₁ q₁ (Function.update h r.key (some (some r.item.value))) out) :
    Looped net ptr q h out := by
  cases hout with
  | @done es ptr' state' hrest hturn hquiet hvalues =>
    have hdelivered : delivered (ss.map Event.close ++ [.item s r] ++ es) = (s, r) :: delivered es := by
      rw [delivered_append, delivered_closes_item]
      rfl
    have hbindings : override (Function.update h r.key (some (some r.item.value))) (loopBindings es) =
        override h (loopBindings (ss.map Event.close ++ [.item s r] ++ es)) := by
      unfold loopBindings
      rw [hdelivered, List.map_cons, override_cons]
    rw [hbindings]
    apply Looped.done (hrun.trans hrest) hturn hquiet
    intro d hd
    rw [hdelivered] at hd
    rcases List.mem_cons.mp hd with rfl | hd
    · exact hvalue
    · exact hvalues d hd
  | early hrest hr hempty hs =>
    apply Looped.early (hrun.trans hrest) _ hempty hs
    rw [delivered_append]
    exact List.mem_append_right _ hr

theorem fetchLoop_looped {net : Network n} (hprompt : Prompt net) (fuel : Nat)
    (state : lmc_state_st n) {q : State (Fin n) Reply} (hsynced : Synced state.ptr q)
    (hq : AllWhole q) (hfuel : state.ptr.unread < fuel) (flags : UInt32) (rc : ReturnSV) (h : HV) :
    Looped net state.ptr q h (fetchLoop net fuel state flags rc h) := by
  induction fuel generalizing state q flags rc h with
  | zero => omega
  | succ fuel ih =>
    have hone := xs_memcached_fetch_one hprompt state hsynced hq flags rc
    unfold fetchLoop
    generalize xs_memcached_fetch net state flags rc = out at hone ⊢
    cases hone with
    | @reply ss s r state' q' flags' rc' hrun =>
      unfold fetchedValue
      by_cases hvalue : r.item.value = []
      · simp only [hvalue, if_true]
        apply Looped.early hrun _ hvalue hrun.steps.pending_of_item
        rw [delivered_closes_item]
        exact List.mem_singleton_self _
      · simp only [hvalue, if_false]
        have hless := hrun.unread_le
        rw [List.length_append, List.length_singleton] at hless
        have hq' : AllWhole q' := by
          intro t qs ht
          rcases hqt : q t with _ | qt
          · rw [hrun.steps.none_of_none hqt] at ht
            cases ht
          · rw [hrun.steps.whole_eq hqt ht]
            exact hq t qt hqt
        exact .after hrun hvalue (ih state' hrun.synced hq' (by omega) _ _ _)
    | nothing ss hrun hquiet hturn =>
      have hnone : delivered (ss.map (Event.close (α := Reply))) = [] := delivered_map_close ss
      have hdone := Looped.done (h := h) hrun hturn hquiet (by
        intro d hd
        rw [hnone] at hd
        cases hd)
      unfold loopBindings at hdone
      rw [hnone] at hdone
      exact hdone

/-! ## The one call -/

/-- The elements of the one call, when no value is empty. -/
theorem bindingsOf_values (withCas : Bool) (p : Protocol) (result : memcached_result_st)
    (rs : List Reply) (h : ∀ r ∈ rs, r.item.value ≠ []) :
    bindingsOf withCas none (resultsOf withCas p result rs) =
      rs.map fun r => (r.key, some r.item.value) := by
  induction rs generalizing result with
  | nil => rfl
  | cons r rs ih =>
    have hrest := ih (storeReply withCas p result r) fun t ht => h t (List.mem_cons_of_mem _ ht)
    have hlength : r.item.value.length ≠ 0 := by
      have := h r (List.mem_cons_self ..)
      rwa [ne_eq, List.length_eq_zero_iff]
    have hvalue : memcached_string_value (storeReply withCas p result r).value =
        some r.item.value := by
      unfold memcached_string_value
      rw [(storeReply_holds withCas p result r).value, if_neg]
      cases p with
      | text => exact string_check_allocates (memcached_string_reset result.value) rfl (by omega)
      | binary => exact string_check_allocates (memcached_string_reset result.value) rfl hlength
    unfold bindingsOf at hrest ⊢
    rw [resultsOf, List.map_cons, List.map_cons, hrest]
    unfold elementOf invocationOf sv_setpvn
    rw [(storeReply_holds withCas p result r).key, hvalue]

/-- The fetch of the one call takes the turns that the loop takes. -/
theorem fetch_all_of_run {net : Network n} (state : lmc_state_st n) {q : State (Fin n) Reply}
    (h : Synced state.ptr q) {es : List (Event (Fin n) Reply)} {ptr' : memcached_st n}
    {q' : State (Fin n) Reply} (hrun : Run net state.ptr q es ptr' q') (hturn : turns net 1 ptr' = none)
    (rc : memcached_return_t) (hrc : LMC_RETURN_OK rc = true) (dest_ref : HV)
    (get_cb : Option Transform) (hcb : state.cb_context.get_cb = get_cb.map Transform.coderef) :
    ∃ state' rc', fetch_all_into_hashref net state rc dest_ref = .returned state'
      (override dest_ref (bindingsOf state.ptr.support_cas get_cb (results state.ptr es)), rc') := by
  obtain ⟨fs, ptr₁, q₁, ptr₂, q₂, rc₂, hsteady⟩ := fetch_execute_steadily net h
  obtain ⟨state', hout, -⟩ := fetch_all_steadily state hsteady rc hrc dest_ref get_cb hcb
  have hlength : es.length = fs.length := by
    have hes : turns net es.length state.ptr = some ptr' := hrun.turns_eq 0
    have hfs : turns net fs.length state.ptr = some ptr₁ := hsteady.run.turns_eq 0
    exact (turns_unique hes hfs hturn (stopped_turns hsteady.stop)).1
  obtain ⟨rfl, -, -⟩ := hrun.unique hsteady.run hlength
  exact ⟨state', _, hout⟩

theorem override_eq_empty {bs : List (Bytes × SV)} (h : override (fun _ => none) bs = fun _ => none) :
    bs = [] := by
  rcases bs with _ | ⟨b, bs⟩
  · rfl
  · obtain ⟨v, -, hv⟩ := override_of_mem (fun _ => none) (b :: bs) b.1 (by simp)
    rw [h] at hv
    cases hv

/-! ## Both -/

/-- The documented loop builds the hash that the one call fills, and reads
every host to the end, exactly when no reply that the hosts owe after the
request has an empty value, and the request succeeds or is owed no reply. -/
theorem the_fetch_loop_agrees_iff_no_value_is_empty {net : Network n} (ht : Takes net)
    (hprompt : Prompt net) {stores : Fin n → Store} (state : lmc_state_st n)
    {q : State (Fin n) Reply} (h : Synced state.ptr q) (hq : AllWhole q)
    (hcb : state.cb_context.get_cb = none)
    (hserves : Serves net stores state.ptr.support_cas state.ptr.protocol
      (wholeAnswer stores state.ptr.support_cas state.ptr.protocol))
    {keys : List Bytes} (hline : ∀ k ∈ keys, OneLine k)
    (hlength : state.ptr.protocol = .binary →
      ∀ k ∈ keys, memcached_validate_key_length k.length true = SUCCESS)
    (fuel : Nat) (hfuel : (memcached_mget net state.ptr keys).1.unread < fuel) (flags : UInt32)
    (rc : ReturnSV) :
    LoopAgrees net fuel state keys flags rc ↔
      (∀ s, ∀ r ∈ owed (owedAfter net stores state.ptr q keys) s, r.item.value ≠ []) ∧
        (RequestSucceeds net state.ptr keys ∨
          ∀ s, owed (owedAfter net stores state.ptr q keys) s = []) := by
  have howing := mget_owing ht h hserves hline hlength
  have hq₁ := allWhole_owedAfter net stores state.ptr hq keys
  have hmget : memcached_mget_by_key net state.ptr none keys = memcached_mget net state.ptr keys :=
    rfl
  unfold LoopAgrees mgetAndLoop xs_memcached_mget xs_mget_into_hashref
  simp only [Option.map_none, hmget]
  generalize memcached_mget net state.ptr keys = out at howing hfuel ⊢
  obtain ⟨ptr₁, rc₁⟩ := out
  simp only at howing hfuel ⊢
  have hloop := fetchLoop_looped hprompt fuel (recordReturn { state with ptr := ptr₁ } rc₁)
    howing.synced hq₁ hfuel flags rc (fun _ => none)
  generalize fetchLoop net fuel (recordReturn { state with ptr := ptr₁ } rc₁) flags rc
    (fun _ => none) = looped at hloop ⊢
  -- what the one call returns, on either side
  have hfailed : ¬ RequestSucceeds net state.ptr keys → ∃ state' code,
      fetch_all_into_hashref net { state with ptr := ptr₁ } rc₁ (fun _ => none) =
        .returned state' (fun _ => none, code) := by
    intro hnot
    have hrc : LMC_RETURN_OK rc₁ = false := by simpa using mt howing.ok_iff.mp hnot
    obtain ⟨state', hout, -⟩ := fetch_all_failed net { state with ptr := ptr₁ } hrc fun _ => none
    exact ⟨state', _, hout⟩
  cases hloop with
  | @early es s r state' q' h' hrun hr hempty hs =>
    constructor
    · rintro ⟨-, hquiet⟩
      have hcount := hrun.synced.count s
      rw [if_pos (Option.isSome_iff_ne_none.mpr hs), (hquiet s).count] at hcount
      cases hcount
    · rintro ⟨hvalues, -⟩
      exact absurd hempty (hvalues s r (hrun.steps.mem_owed hr))
  | @done es ptr' state' hrun hturn hquiet hvalues =>
    have hall := fun s r => hrun.steps.delivered_all (fun _ => rfl) s r
    constructor
    · rintro ⟨⟨state'', code, hout⟩, -⟩
      refine ⟨fun s r hr => hvalues (s, r) ((hall s r).mpr hr), ?_⟩
      by_cases hsucceeds : RequestSucceeds net state.ptr keys
      · exact Or.inl hsucceeds
      · -- the one call fills nothing, so the loop delivered nothing
        obtain ⟨state₂, rc₂, hfetch⟩ := hfailed hsucceeds
        simp only [hfetch, XS.returned.injEq, Prod.mk.injEq] at hout
        have hnone := override_eq_empty hout.2.1.symm
        unfold loopBindings at hnone
        rw [List.map_eq_nil_iff] at hnone
        refine Or.inr fun s => List.eq_nil_iff_forall_not_mem.mpr fun r hr => ?_
        have := (hall s r).mpr hr
        rw [hnone] at this
        cases this
    · rintro ⟨-, hcase⟩
      refine ⟨?_, hquiet⟩
      by_cases hsucceeds : RequestSucceeds net state.ptr keys
      · obtain ⟨state₂, rc₂, hfetch⟩ := fetch_all_of_run { state with ptr := ptr₁ } howing.synced hrun
          hturn rc₁ (howing.ok_iff.mpr hsucceeds) (fun _ => none) none hcb
        have hbindings : bindingsOf ptr₁.support_cas none (results ptr₁ es) = loopBindings es := by
          unfold results loopBindings
          rw [bindingsOf_values, List.map_map]
          · rfl
          · intro r hr
            obtain ⟨d, hd, rfl⟩ := List.mem_map.mp hr
            exact hvalues d hd
        simp only [hfetch, hbindings]
        exact ⟨_, _, rfl⟩
      · obtain ⟨state₂, rc₂, hfetch⟩ := hfailed hsucceeds
        have hnone : delivered es = [] := by
          refine List.eq_nil_iff_forall_not_mem.mpr fun d hd => ?_
          have := (hall d.1 d.2).mp hd
          rw [hcase.resolve_left hsucceeds d.1] at this
          cases this
        have hbindings : loopBindings es = [] := by
          unfold loopBindings
          rw [hnone]
          rfl
        simp only [hfetch, hbindings, override_nil]
        exact ⟨_, _, rfl⟩

/-- The theorem at two hosts whose values are not empty. -/
theorem the_fetch_loop_of_two_hosts_agrees :
    LoopAgrees (textHosts pairStores false fun _ => true)
        ((memcached_mget (textHosts pairStores false fun _ => true) pairState.ptr
          [keyA, keyB]).1.unread + 1) pairState [keyA, keyB] 0 .no ↔
      (∀ s, ∀ r ∈ owed (owedAfter (textHosts pairStores false fun _ => true) pairStores
          pairState.ptr (fun _ => none) [keyA, keyB]) s, r.item.value ≠ []) ∧
        (RequestSucceeds (textHosts pairStores false fun _ => true) pairState.ptr [keyA, keyB] ∨
          ∀ s, owed (owedAfter (textHosts pairStores false fun _ => true) pairStores
            pairState.ptr (fun _ => none) [keyA, keyB]) s = []) :=
  the_fetch_loop_agrees_iff_no_value_is_empty (textHosts_takes _ _ _) (textHosts_prompt _ _ _)
    pairState (synced_create pairRouting .text) (fun _ _ hs => by cases hs) rfl
    (textHosts_serves pairStores false _) (by decide) (fun hp => by cases hp) _
    (Nat.lt_succ_self _) 0 .no

theorem nil_fits : ([] : Bytes).length + 2 < 2 ^ 31 := by decide

/-- Hosts that hold an empty value. -/
def emptyValues : Fin 2 → Store := fun _ => .single keyA keyA_valid ⟨0, 0, [], nil_fits⟩

/-- The loop takes the empty value for the end, and leaves the end marker of
the host unread. -/
theorem an_empty_value_ends_the_fetch_loop :
    (memcached_mget (textHosts emptyValues false fun _ => true) pairState.ptr [keyA]).1.unread < 50 ∧
      ¬ LoopAgrees (textHosts emptyValues false fun _ => true) 50 pairState [keyA] 0 .no := by
  refine ⟨by decide +kernel, ?_⟩
  rintro ⟨-, hquiet⟩
  have hcount : ((mgetAndLoop (textHosts emptyValues false fun _ => true) 50 pairState [keyA] 0
      .no).1.ptr.servers 0).cursor_active = 1 := by decide +kernel
  rw [(hquiet 0).count] at hcount
  cases hcount

end Libmemcached
