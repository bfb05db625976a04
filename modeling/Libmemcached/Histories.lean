-- Any run of calls on one `$memc` of the text protocol, and what a single get
-- gives after it: what the host of the key holds under just this key.
import Libmemcached.Hosts
import Libmemcached.Orderly

open Chunks Decimal Queues

namespace Libmemcached

open memcached_return_t memcached_server_st

variable {n : Nat}

/-! ## The calls -/

/-- `memcached_server_add`: the hosts that are there keep their connections,
and the routing is that of the new list. -/
def memcached_st.server_add (ptr : memcached_st n) (routing : Routing (n + 1)) :
    memcached_st (n + 1) where
  servers s := if h : s.val < n then ptr.servers ⟨s.val, h⟩ else .init
  routing := routing
  protocol := ptr.protocol
  verify_key := ptr.verify_key
  support_cas := ptr.support_cas
  result := ptr.result
  polls := ptr.polls

def lmc_state_st.server_add (state : lmc_state_st n) (routing : Routing (n + 1)) :
    lmc_state_st (n + 1) :=
  ⟨state.ptr.server_add routing, state.cb_context, state.last_return⟩

/-- The keys of a call that go on one line: a get may ask for several words,
and any other command has just one word for its key. -/
def KeyedCall.InLine (call : KeyedCall) (key : Bytes) : Prop :=
  if call.fetches then OneLine key else Clean key

/-- One call. `rc` is a code that the call records and that the model leaves
out. The calls that use connections of their own, or none (`walk_stats`,
`memcached_verbosity`, `errstr`), leave the handle as it is. -/
inductive Does (net : Network n) (state : lmc_state_st n) : lmc_state_st n → Prop
  | plain (call : KeyedCall) (key : SV) (hkey : call.InLine (SvPV key)) :
      Does net state (call.plain state key net)
  | byKey (call : KeyedCall) (master_key key : SV) (hkey : call.InLine (SvPV key)) :
      Does net state (call.byKey state master_key key net)
  | mget (master_key : Option SV) (keys : List Bytes) (hkeys : ∀ k ∈ keys, OneLine k) :
      Does net state (xs_memcached_mget net state master_key keys).1
  | fetch (flags : UInt32) (error : ReturnSV) :
      Does net state (xs_memcached_fetch net state flags error).1
  | mget_into_hashref (keys : List Bytes) (hkeys : ∀ k ∈ keys, OneLine k) (dest_ref : HV) :
      Does net state (xs_mget_into_hashref net state keys dest_ref).state
  | get_multi (keys : List Bytes) (hkeys : ∀ k ∈ keys, OneLine k) :
      Does net state (xs_get_multi net state keys).state
  | incr_decr (op : IncrDecr) (key : SV) (hkey : Clean (SvPV key)) (offset : UInt64)
      (rc : memcached_return_t) :
      Does net state (recordReturn
        { state with ptr := memcached_incr_decr net state.ptr op (SvPV key) offset } rc)
  | flush (expiration : UInt64) (rc : memcached_return_t) :
      Does net state (recordReturn
        { state with ptr := (memcached_flush_textual net state.ptr expiration).1 } rc)
  | quit : Does net state { state with ptr := memcached_quit state.ptr }
  | version (rc : memcached_return_t) :
      Does net state (recordReturn { state with ptr := (memcached_stat net state.ptr).1 } rc)
  | set_callback (set_cb : Option Coderef) :
      Does net state (xs_set_callback_coderefs state set_cb none)

/-- The states that calls lead to. What hosts hold may change from call to
call. -/
inductive History : (n : Nat) → lmc_state_st n → Prop
  | new (n : Nat) (routing : Routing n) : History n (lmc_state_new (.create routing .text))
  | call {n : Nat} {state state' : lmc_state_st n} (h : History n state) (net : Network n)
      (stores : Fin n → Store) (hnet : Answering net stores) (hdoes : Does net state state') :
      History n state'
  | server_add {n : Nat} {state : lmc_state_st n} (h : History n state)
      (routing : Routing (n + 1)) : History (n + 1) (state.server_add routing)

/-! ## What holds between two calls -/

/-- A handle in order, and no get callback. -/
structure Settled (state : lmc_state_st n) : Prop where
  orderly : Orderly state.ptr
  get_cb : state.cb_context.get_cb = none

theorem settled_new (routing : Routing n) : Settled (lmc_state_new (.create routing .text)) :=
  ⟨⟨rfl, rfl, fun _ => none, synced_create routing .text, by simp [AllWhole]⟩, rfl⟩

theorem Tidy.server_add {ptr : memcached_st n} (h : Tidy ptr) (routing : Routing (n + 1)) :
    Tidy (ptr.server_add routing) := by
  obtain ⟨q, hsynced, hq⟩ := h
  refine ⟨fun s => if hs : s.val < n then q ⟨s.val, hs⟩ else none, ?_, ?_⟩
  · intro s
    simp only [memcached_st.server_add]
    by_cases hs : s.val < n
    · rw [dif_pos hs, dif_pos hs]
      exact hsynced ⟨s.val, hs⟩
    · rw [dif_neg hs, dif_neg hs]
      exact quiet_init
  · intro s qs hqs
    dsimp only at hqs
    by_cases hs : s.val < n
    · rw [dif_pos hs] at hqs
      exact hq _ qs hqs
    · rw [dif_neg hs] at hqs
      cases hqs

theorem Settled.server_add {state : lmc_state_st n} (h : Settled state)
    (routing : Routing (n + 1)) : Settled (state.server_add routing) :=
  ⟨⟨h.orderly.text, h.orderly.plain, h.orderly.tidy.server_add routing⟩, h.get_cb⟩

theorem Settled.leads {state state' : lmc_state_st n} (h : Settled state) (h' : Leads state state') :
    Settled state' := ⟨h.orderly.follows h'.handle, h'.get_cb⟩

section

variable {net : Network n} {stores : Fin n → Store} {state : lmc_state_st n}
variable (h : Settled state) (hnet : Answering net stores)

include h hnet

theorem Settled.mget (master_key : Option Bytes) {keys : List Bytes}
    (hkeys : ∀ k ∈ keys, OneLine k) :
    Follows state.ptr (memcached_mget_by_key net state.ptr master_key keys).1 :=
  h.orderly.mget_by_key hnet master_key hkeys

theorem Settled.mget_one (master_key : Option Bytes) {key : SV} (hkey : OneLine (SvPV key)) :
    Follows state.ptr (memcached_mget_by_key net state.ptr master_key [SvPV key]).1 := by
  apply h.mget hnet
  intro k hk
  rw [List.mem_singleton.mp hk]
  exact hkey

theorem Settled.plain (call : KeyedCall) {key : SV} (hkey : call.InLine (SvPV key)) :
    Leads state (call.plain state key net) := by
  unfold KeyedCall.InLine at hkey
  cases hfetches : call.fetches with
  | false =>
    rw [if_neg (by simp [hfetches])] at hkey
    apply h.orderly.tidy.plain_command h.get_cb hfetches
    · intro value expiration flags cas verb
      exact h.orderly.send hnet _ hkey value expiration flags cas verb
    · intro expiration
      exact h.orderly.delete_by_key hnet _ hkey expiration
  | true =>
    rw [if_pos hfetches] at hkey
    exact (h.mget_one hnet none hkey).plain_fetch h.get_cb hfetches

theorem Settled.byKey (call : KeyedCall) (master_key : SV) {key : SV}
    (hkey : call.InLine (SvPV key)) : Leads state (call.byKey state master_key key net) := by
  unfold KeyedCall.InLine at hkey
  cases hfetches : call.fetches with
  | false =>
    rw [if_neg (by simp [hfetches])] at hkey
    apply h.orderly.tidy.byKey_command h.get_cb hfetches
    · intro value expiration flags cas verb
      exact h.orderly.send hnet _ hkey value expiration flags cas verb
    · intro expiration
      exact h.orderly.delete_by_key hnet _ hkey expiration
  | true =>
    rw [if_pos hfetches] at hkey
    exact (h.mget_one hnet _ hkey).byKey_fetch h.get_cb hfetches

/-- What every call leaves. -/
theorem Settled.does {state' : lmc_state_st n} (hdoes : Does net state state') :
    Leads state state' := by
  cases hdoes with
  | plain call key hkey => exact h.plain hnet call hkey
  | byKey call master_key key hkey => exact h.byKey hnet call master_key hkey
  | mget master_key keys hkeys => exact (h.mget hnet _ hkeys).leads_record h.get_cb _
  | fetch flags error => exact h.orderly.tidy.fetch h.get_cb flags error
  | mget_into_hashref keys hkeys dest_ref =>
    exact (h.mget hnet none hkeys).mget_into_hashref h.get_cb dest_ref
  | get_multi keys hkeys => exact (h.mget hnet none hkeys).get_multi h.get_cb
  | incr_decr op key hkey offset rc =>
    exact (h.orderly.incr_decr hnet op hkey offset).leads_record h.get_cb rc
  | flush expiration rc => exact (h.orderly.flush hnet expiration).leads_record h.get_cb rc
  | quit => exact h.orderly.tidy.quit.leads h.get_cb
  | version rc => exact (h.orderly.stat hnet).leads_record h.get_cb rc
  | set_callback set_cb => exact ⟨h.orderly.tidy.refl, rfl⟩

end

/-- It holds in every state that calls lead to. -/
theorem History.settled {n : Nat} {state : lmc_state_st n} (h : History n state) :
    Settled state := by
  induction h with
  | new n routing => exact settled_new routing
  | call h net stores hnet hdoes ih => exact ih.leads (ih.does hnet hdoes)
  | server_add h routing ih => exact ih.server_add routing

/-! ## A single get -/

/-- Where a value comes from: the host of the route key holds it under just
the bytes of the key. -/
def HeldUnder (stores : Fin n → Store) (ptr : memcached_st n) (k : GetKey) (v : Bytes) : Prop :=
  ∃ hn item, (stores (ptr.hostOf hn k.routeKey)).get (SvPV k.sv) = some item ∧ item.value = v

theorem exists_of_foldl_value {results : List memcached_result_st} {v : Bytes}
    (h : results.foldl (fun _ result => valueOf result) none = some v) :
    ∃ result ∈ results, valueOf result = some v := by
  rcases List.eq_nil_or_concat results with rfl | ⟨init, last, rfl⟩
  · cases h
  · rw [List.concat_eq_append, List.foldl_append] at h
    exact ⟨last, by simp, h⟩

/-- A value that a fetch of one key gives is that of a reply to this key. -/
theorem fetch_one_sv_held {net : Network n} {stores : Fin n → Store} {state : lmc_state_st n}
    (h : Settled state) (hnet : Answering net stores) {k : GetKey} (hkey : Clean (SvPV k.sv))
    {flags : UInt32} {state' : lmc_state_st n} {got : Got}
    (hfetch : fetch_one_sv net (k.requested net state) flags (k.request net state.ptr).2 =
      .returned state' got) {v : Bytes} (hv : got.value = some v) :
    HeldUnder stores state.ptr k v := by
  obtain ⟨q, hsynced, hq⟩ := h.orderly.pending
  have hserves : Serves net stores state.ptr.support_cas state.ptr.protocol
      (wholeAnswer stores false .text) := by
    rw [h.orderly.plain, h.orderly.text]
    exact hnet.gets
  have hone : ∀ key ∈ [SvPV k.sv], OneLine key := by
    intro key hmem
    rw [List.mem_singleton.mp hmem]
    exact hkey.oneLine
  by_cases hsent : (k.request net state.ptr).2 = SUCCESS
  · rw [hsent] at hfetch
    have hrequest := k.request_eq net state.ptr
    rcases mget_by_key_requested hsynced hserves k.master [SvPV k.sv] hone
        (fun hbinary => by rw [h.orderly.text] at hbinary; cases hbinary) with
      ⟨rc, hf, hrefused⟩ | ⟨route, hf, asked, hreq⟩
    · -- a request that is refused is no success
      rw [hrequest, hrefused] at hsent
      rcases fetchHost_error hf with rfl | rfl | rfl <;> cases hsent
    · rw [← hrequest] at hreq
      unfold fetch_one_sv GetKey.requested at hfetch
      rw [if_neg (by simp)] at hfetch
      dsimp only at hfetch
      rw [h.get_cb] at hfetch
      have hexec := fetch_execute_run net
        (storeScalar_plain (k.request net state.ptr).1.support_cas none)
        { state.cb_context with
          dest_sv := .scalar, scalar := none, flags, result_count := 0, get_cb := none } hreq.synced
      generalize memcached_fetch_execute net (k.request net state.ptr).1
        (storeScalar (k.request net state.ptr).1.support_cas none)
        { state.cb_context with
          dest_sv := .scalar, scalar := none, flags, result_count := 0, get_cb := none } = out
        at hexec hfetch
      cases hexec with
      | died => cases hfetch
      | @returned es q' ptr₁ ptr' q₂ context' rc hrun hcall hstop =>
        cases hfetch
        obtain ⟨context₂, hstored, -, hscalar⟩ := callAll_store
          (results (k.request net state.ptr).1 es) { state.cb_context with
            dest_sv := .scalar, scalar := none, flags, result_count := 0, get_cb := none } rfl
        have hsame : Called.returned SUCCESS context' = Called.returned SUCCESS context₂ :=
          hcall.symm.trans hstored
        obtain rfl := (Called.returned.inj hsame).2
        dsimp only at hv hscalar
        rw [hscalar] at hv
        -- the value is that of one of the replies
        obtain ⟨result, hresult, hvalue⟩ := exists_of_foldl_value hv
        have htext := hreq.config.protocol.trans h.orderly.text
        obtain ⟨t, r, hr, -, hinvocation⟩ := of_mem_results_text htext hresult
        have hitem : r.item.value = v :=
          Option.some.inj ((congrArg Invocation.value hinvocation).symm.trans hvalue)
        -- and the reply is to a key that its host was asked for
        have howed := hrun.steps.mem_owed hr
        rw [owed, owedFor] at howed
        split_ifs at howed with hasked
        · cases howed
        · rw [Option.map_some, Option.getD_some, wholeAnswer, Store.mem_replies] at howed
          obtain ⟨hword, hget⟩ := howed
          have hmem := of_mem_keysAsked (fun key hmem => by
            rw [List.mem_singleton.mp (hreq.mem t key hmem).1]
            exact hkey) hword
          obtain ⟨hkeyed, hroute⟩ := hreq.mem t r.key hmem
          rw [List.mem_singleton.mp hkeyed] at hget hroute
          obtain ⟨hn, hhost⟩ := fetchHost_route hf
          refine ⟨hn, r.item, ?_, hitem⟩
          rw [← hget, ← hroute, hhost, GetKey.routeKey]
          split_ifs <;> rfl
  · unfold fetch_one_sv at hfetch
    rw [if_pos hsent] at hfetch
    cases hfetch
    cases hv

/-- After any run of calls, a value that a single get returns is what the host
of its route key holds under just the bytes of its key. -/
theorem a_value_is_held_under_the_bytes_of_its_key {n : Nat} {state : lmc_state_st n}
    (h : History n state) {net : Network n} {stores : Fin n → Store}
    (hnet : Answering net stores) (k : GetKey) (hkey : Clean (SvPV k.sv)) (v : Bytes) :
    (∀ flags state' got, k.fetch net state flags = .returned state' got → got.value = some v →
        HeldUnder stores state.ptr k v) ∧
      ∀ state' got, xs_get net state k = .returned state' got → got.value = some v →
        HeldUnder stores state.ptr k v := by
  have hsettled := h.settled
  constructor
  · intro flags state' got hfetch hv
    rw [GetKey.fetch_eq] at hfetch
    cases hone : fetch_one_sv net (k.requested net state) flags (k.request net state.ptr).2 with
    | returned state₁ got₁ =>
      rw [hone] at hfetch
      cases hfetch
      exact fetch_one_sv_held hsettled hnet hkey hone hv
    | croaked state₁ =>
      rw [hone] at hfetch
      cases hfetch
  · intro state' got hfetch hv
    rw [xs_get_eq] at hfetch
    exact fetch_one_sv_held hsettled hnet hkey hfetch hv

/-! ## Hosts that only serve gets -/

/-- ERROR, as a response line. -/
def errorResponse : ResponseLine where
  text := ascii ['E', 'R', 'R', 'O', 'R']
  one_line := by simp [ascii]
  short := by decide
  no_value := by decide

/-- Hosts that answer a get from what they hold, and anything else with
ERROR. -/
def readOnlyHosts (stores : Fin n → Store) : Network n where
  connect _ := SUCCESS
  connect_code := connects_at_once
  accepts _ _ := true
  answer s request :=
    if request.head? = some 103 then
      (textChunks false ((stores s).replies (requestKeys request)), .timeout)
    else (whole errorResponse.bytes, .timeout)
  poll _ fds := fds

/-- No other command starts with the letter of a get. -/
theorem head_of_one_line {command : Bytes} (h : OneLineCommand command) :
    command.head? ≠ some 103 := by
  cases h with
  | storage verb hkey flags expiration value cas =>
    by_cases hcas : cas = 0
    all_goals cases verb <;> simp [storageLine, hcas, storage_op_string, ascii]
  | delete hkey expiration => simp [deleteLine, ascii]
  | incr_decr op hkey offset => cases op <;> simp [IncrDecr.verb, ascii]
  | flush expiration => simp [ascii]

theorem readOnlyHosts_replied (stores : Fin n → Store) (s : Fin n) {command : Bytes}
    (h : command.head? ≠ some 103) :
    Replied (bytesOf ((readOnlyHosts stores).answer s command).1) := by
  refine .line errorResponse ?_ ?_
  · constructor
    · decide
    · decide
  · unfold readOnlyHosts
    dsimp only
    rw [if_neg h]
    exact bytesOf_whole errorResponse.bytes

theorem readOnlyHosts_answering (stores : Fin n → Store) : Answering (readOnlyHosts stores) stores where
  gets s keys hkeys := by
    refine ⟨List.prefix_rfl, fun _ => rfl, endText, ?_, rfl⟩
    exact bytesOf_textChunks false _
  lines s command h := readOnlyHosts_replied stores s (head_of_one_line h)
  stats s := .last (readOnlyHosts_replied stores s (by simp [ascii]))

/-- What a get of the key gives. -/
theorem readOnly_gives (state : lmc_state_st 2) (key v : Bytes)
    (hrun : (match (GetKey.key (some key)).fetch (readOnlyHosts pairStores) state 0 with
      | .returned _ got => got.value
      | .croaked _ => none) = some v) :
    ∃ state' got, (GetKey.key (some key)).fetch (readOnlyHosts pairStores) state 0 =
      .returned state' got ∧ got.value = some v := by
  cases hfetch : (GetKey.key (some key)).fetch (readOnlyHosts pairStores) state 0 with
  | returned state' got =>
    rw [hfetch] at hrun
    exact ⟨state', got, rfl, hrun⟩
  | croaked state' =>
    rw [hfetch] at hrun
    cases hrun

/-- A key of two words. -/
def twoWords : Bytes := ascii ['a', ' ', 'b']

/-- A handle that asked for several keys, fetched none, and deleted one. -/
def usedState : lmc_state_st 2 :=
  (KeyedCall.delete 0).plain
    (xs_memcached_mget (readOnlyHosts pairStores) pairState none [twoWords, keyA]).1
    (some (ascii ['c'])) (readOnlyHosts pairStores)

theorem usedState_history : History 2 usedState := by
  have hnet := readOnlyHosts_answering pairStores
  have hasked : ∀ k ∈ [twoWords, keyA], OneLine k := by decide
  have hmget : History 2 (xs_memcached_mget (readOnlyHosts pairStores) pairState none
      [twoWords, keyA]).1 :=
    .call (.new 2 pairRouting) _ pairStores hnet (.mget none _ hasked)
  exact .call hmget _ pairStores hnet (.plain (.delete 0) _ (by decide : Clean (ascii ['c'])))

/-- The theorem after this run, at the key of the first host. -/
theorem the_value_of_the_first_host_is_held :
    HeldUnder pairStores usedState.ptr (.key (some keyA)) (ascii ['x']) := by
  obtain ⟨state', got, hfetch, hv⟩ :=
    readOnly_gives usedState keyA (ascii ['x']) (by decide +kernel)
  exact (a_value_is_held_under_the_bytes_of_its_key usedState_history
    (readOnlyHosts_answering pairStores) (.key (some keyA)) (by decide) (ascii ['x'])).1
    0 state' got hfetch hv

/-- A get of `a b` asks for two keys, and returns what is held under `b`. -/
theorem a_key_with_a_space_takes_the_value_of_another_key :
    History 2 pairState ∧ Answering (readOnlyHosts pairStores) pairStores ∧
      (∃ state' got, (GetKey.key (some twoWords)).fetch (readOnlyHosts pairStores) pairState 0 =
        .returned state' got ∧ got.value = some (ascii ['y', 'z'])) ∧
      ¬ HeldUnder pairStores pairState.ptr (.key (some twoWords)) (ascii ['y', 'z']) := by
  refine ⟨.new 2 pairRouting, readOnlyHosts_answering pairStores,
    readOnly_gives pairState _ _ (by decide +kernel), ?_⟩
  rintro ⟨hn, item, hget, -⟩
  have hvalid := (pairStores _).valid _ _ hget
  exact absurd hvalid (by decide)

end Libmemcached
