-- What the fetches give on two `$memc` that made the same calls, one in each
-- protocol: the same, once a value has made the binary handle allocate its
-- value buffer.
import Libmemcached.BinaryServers
import Libmemcached.FetchLoop
import Libmemcached.Healthy
import Libmemcached.KeyOrder
import Libmemcached.TwinHistories
import Libmemcached.ValueBuffer

open Chunks Override Queues

namespace Libmemcached

open memcached_return_t

variable {n : Nat}

/-- Hosts that are all up, take what is written to them, and answer a get at
once, with one block for each key that they hold. -/
structure Working (net : Network n) (stores : Fin n → Store) (p : Protocol) : Prop where
  up : ∀ s, net.connect s = SUCCESS
  takes : Takes net
  prompt : Prompt net
  serves : Serves net stores false p (wholeAnswer stores false p)

/-- A handle with the default behaviours between two calls. -/
structure Default (p : Protocol) (state : lmc_state_st n) : Prop where
  protocol : state.ptr.protocol = p
  support_cas : state.ptr.support_cas = false
  verify_key : state.ptr.verify_key = false
  get_cb : state.cb_context.get_cb = none
  tidy : Tidy state.ptr

/-- A key that is valid in both protocols is short enough for the binary
one. -/
theorem validate_binary {key : Bytes} (h : ValidKey key) :
    memcached_validate_key_length key.length true = SUCCESS := by
  have hshort : key.length < 251 := h.short
  unfold memcached_validate_key_length
  rw [if_neg (mt List.length_eq_zero_iff.mp h.nonempty), if_pos rfl, if_neg (by omega)]

theorem Default.unverified {p : Protocol} {state : lmc_state_st n} (h : Default p state)
    (keys : List Bytes) :
    ¬ (state.ptr.verify_key = true ∧ memcached_key_test keys = BAD_KEY_PROVIDED) := by
  rintro ⟨hverify, -⟩
  rw [h.verify_key] at hverify
  cases hverify

/-! ## One key -/

/-- A single get returns, with this value and these flags. -/
def Gives (out : XS n Got) (value : SV) (flags : UInt32) : Prop :=
  ∃ state got, out = .returned state got ∧ got.value = value ∧ got.flags = flags

/-- Two gets give the same value, or both none, and the same flags. -/
def SameGot (a b : XS n Got) : Prop := ∃ value flags, Gives a value flags ∧ Gives b value flags

theorem Gives.record {out : XS n Got} {value : SV} {flags : UInt32} (h : Gives out value flags)
    (rc : Got → memcached_return_t) : Gives (out.record rc) value flags := by
  obtain ⟨state, got, rfl, hvalue, hflags⟩ := h
  exact ⟨_, got, rfl, hvalue, hflags⟩

theorem Gives.same_iff {a b : XS n Got} {value value' : SV} {flags flags' : UInt32}
    (h : Gives a value flags) (h' : Gives b value' flags') :
    SameGot a b ↔ value = value' ∧ flags = flags' := by
  obtain ⟨state, got, rfl, rfl, rfl⟩ := h
  obtain ⟨state', got', rfl, rfl, rfl⟩ := h'
  constructor
  · rintro ⟨v, f, ⟨s₁, g₁, h₁, hv₁, hf₁⟩, s₂, g₂, h₂, hv₂, hf₂⟩
    cases h₁
    cases h₂
    exact ⟨hv₁.trans hv₂.symm, hf₁.trans hf₂.symm⟩
  · rintro ⟨hv, hf⟩
    exact ⟨got'.value, got'.flags, ⟨state, got, rfl, hv, hf⟩, state', got', rfl, rfl, rfl⟩

/-- The reply to a get of one key. -/
def replyTo (stores : Fin n → Store) (ptr : memcached_st n) (k : GetKey) : Option Reply :=
  if hn : 0 < n then (stores (ptr.hostOf hn k.routeKey)).reply (SvPV k.sv) else none

/-- The value that the callback copies out of the buffer for it, and the
flags. -/
def valueFrom (p : Protocol) (result : memcached_result_st) (reply : Option Reply) : SV :=
  reply.bind fun r => valueOf (storeReply false p result r)

def flagsFrom (flags : UInt32) (reply : Option Reply) : UInt32 :=
  (reply.map (·.item.flags)).getD flags

theorem callAll_reply (p : Protocol) (result : memcached_result_st) (reply : Option Reply)
    (context : lmc_cb_context_st) (h : context.dest_sv = .scalar) (hnone : context.scalar = none) :
    ∃ context', callAll [cb_store_into_sv] (resultsOf false p result reply.toList) context =
        .returned SUCCESS context' ∧ context'.scalar = valueFrom p result reply ∧
      context'.flags = flagsFrom context.flags reply := by
  cases reply with
  | none => exact ⟨context, rfl, hnone, rfl⟩
  | some r =>
    refine ⟨{ context with
      dest_sv := .scalar
      result_count := context.result_count + 1
      flags := r.item.flags
      scalar := valueOf (storeReply false p result r) }, ?_, rfl, rfl⟩
    have hflags : (storeReply false p result r).item_flags = r.item.flags := by cases p <;> rfl
    simp only [Option.toList_some, resultsOf, callAll, runCallbacks, cb_store_into_sv,
      lmc_cb_context_st.setDest, h, hflags]
    rfl

section

variable {net : Network n} {stores : Fin n → Store} {p : Protocol} {state : lmc_state_st n}
variable (hnet : Working net stores p) (h : Default p state)

include hnet h

theorem Working.serves_state : Serves net stores state.ptr.support_cas state.ptr.protocol
    (wholeAnswer stores false p) := by
  rw [h.support_cas, h.protocol]
  exact hnet.serves

/-- The spec of `_fetch_one_sv` after its request. -/
theorem fetch_one_gives {k : GetKey} (hkey : ValidKey (SvPV k.sv)) (flags : UInt32) :
    Gives (fetch_one_sv net (k.requested net state) flags (k.request net state.ptr).2)
      (valueFrom p (drainAll state.ptr).result (replyTo stores state.ptr k))
      (flagsFrom flags (replyTo stores state.ptr k)) := by
  by_cases hn : 0 < n
  · obtain ⟨route, hf, hroute⟩ := fetchHost_one hn k.master (h.unverified [SvPV k.sv])
      (Or.inl (h.unverified [k.master.getD []]))
    have hone : ∀ key ∈ [SvPV k.sv], ValidKey key := by
      intro key hmem
      rw [List.mem_singleton.mp hmem]
      exact hkey
    obtain ⟨q, hsynced, -⟩ := h.tidy
    obtain ⟨ptr', hrequest, hsynced', hconfig, hresult⟩ := mget_by_key_up hnet.up hnet.takes hsynced
      (hnet.serves_state h) (fun key hmem => Clean.oneLine (hone key hmem).clean)
      (fun _ key hmem => validate_binary (hone key hmem)) hf
    obtain ⟨howed, honly⟩ := owedFor_one stores false p route hkey
    have hreply : (stores (route (SvPV k.sv))).reply (SvPV k.sv) = replyTo stores state.ptr k := by
      rw [replyTo, dif_pos hn, hroute]
      rfl
    have hcas := hconfig.support_cas.trans h.support_cas
    have hprotocol := hconfig.protocol.trans h.protocol
    obtain ⟨context', hcall, hvalue, hflags⟩ := callAll_reply p ptr'.result
      (replyTo stores state.ptr k) (singleContext state.cb_context flags) rfl rfl
    rw [hreply] at howed
    have hstored : callAll (storeScalar ptr'.support_cas none)
        (resultsOf ptr'.support_cas ptr'.protocol ptr'.result
          (replyTo stores state.ptr k).toList) (singleContext state.cb_context flags) =
        .returned SUCCESS context' := by
      rw [hcas, hprotocol]
      exact hcall
    obtain ⟨ptr'', rc, hexec, -⟩ := fetch_execute_replies hnet.prompt hsynced' howed honly
      (storeScalar_plain ptr'.support_cas none) hstored
    rw [← GetKey.request_eq] at hrequest
    unfold GetKey.requested fetch_one_sv
    rw [hrequest, if_neg (not_not.mpr rfl)]
    unfold singleContext at hexec
    dsimp only
    rw [h.get_cb] at hexec ⊢
    rw [hexec, ← hresult]
    exact ⟨_, _, rfl, hvalue, hflags⟩
  · have hnone : replyTo stores state.ptr k = none := dif_neg hn
    have hrequest : k.request net state.ptr = (state.ptr, NO_SERVERS) := by
      rw [GetKey.request_eq, memcached_mget_by_key, fetchHost, if_neg (by simp), dif_neg hn]
    unfold GetKey.requested fetch_one_sv
    rw [hrequest, if_pos (by simp), hnone]
    exact ⟨_, _, rfl, rfl, rfl⟩

theorem fetch_gives {k : GetKey} (hkey : ValidKey (SvPV k.sv)) (flags : UInt32) :
    Gives (k.fetch net state flags)
      (valueFrom p (drainAll state.ptr).result (replyTo stores state.ptr k))
      (flagsFrom flags (replyTo stores state.ptr k)) := by
  rw [GetKey.fetch_eq]
  exact (fetch_one_gives hnet h hkey flags).record _

theorem method_gives {k : GetKey} (hkey : ValidKey (SvPV k.sv)) :
    Gives (xs_get net state k)
      (valueFrom p (drainAll state.ptr).result (replyTo stores state.ptr k))
      (flagsFrom 0 (replyTo stores state.ptr k)) := by
  rw [xs_get_eq]
  exact fetch_one_gives hnet h hkey 0

end

/-- What a text get gives is in the buffer, whatever its length. -/
theorem valueFrom_text (result : memcached_result_st) (reply : Option Reply) :
    valueFrom .text result reply = reply.map (·.item.value) := by
  cases reply with
  | none => rfl
  | some r => exact congrArg Invocation.value (invocationOf_text false result r)

/-- A binary get gives undef for an empty value when the buffer is NULL. -/
theorem valueFrom_binary (result : memcached_result_st) (reply : Option Reply) :
    valueFrom .binary result reply = reply.map (·.item.value) ↔
      result.value.current_size ≠ 0 ∨ ∀ r ∈ reply, r.item.value ≠ [] := by
  cases reply with
  | none => simp [valueFrom]
  | some r =>
    have hvalue : valueFrom .binary result (some r) =
        (invocationOf false (storeReply false .binary result r)).value := rfl
    rw [hvalue, invocationOf_binary]
    by_cases hroom : result.value.current_size ≠ 0 ∨ r.item.value ≠ []
    · rw [if_pos hroom]
      refine iff_of_true rfl (hroom.imp_right fun hne r' hr' => ?_)
      rw [← Option.some.inj hr']
      exact hne
    · rw [if_neg hroom]
      refine iff_of_false (fun heq => by cases heq) fun hall => hroom ?_
      exact hall.imp_right fun hne => hne r rfl

theorem replyTo_some {stores : Fin n → Store} {ptr : memcached_st n} {k : GetKey} {v : Bytes} :
    HeldUnder stores ptr k v ↔ ∃ r ∈ replyTo stores ptr k, r.item.value = v := by
  unfold HeldUnder replyTo
  constructor
  · rintro ⟨hn, item, hget, rfl⟩
    rw [dif_pos hn, Store.reply, hget]
    exact ⟨⟨SvPV k.sv, item⟩, rfl, rfl⟩
  · rintro ⟨r, hr, rfl⟩
    split_ifs at hr with hn
    · rw [Store.reply] at hr
      obtain ⟨item, hget, rfl⟩ := Option.map_eq_some_iff.mp hr
      exact ⟨hn, item, hget, rfl⟩
    · cases hr

/-! ## Several keys -/

/-- The hash element that a fetch of `keys` sets. -/
def Binds (stores : Fin n → Store) (ptr : memcached_st n) (keys : List Bytes) (b : Bytes × SV) :
    Prop :=
  ∃ hn item, b.1 ∈ keys ∧ (stores (ptr.hostOf hn b.1)).get b.1 = some item ∧ b.2 = some item.value

/-- No host's first reply to a get of `keys` is an empty value. -/
def FirstFilled (stores : Fin n → Store) (ptr : memcached_st n) (keys : List Bytes) : Prop :=
  ∀ hn s, ∀ r ∈ ((stores s).replies (keys.filter (ptr.hostOf hn · = s))).head?, r.item.value ≠ []

/-- A fetch of `keys` returns, with these elements set. -/
def LeavesHeld (stores : Fin n → Store) (ptr : memcached_st n) (keys : List Bytes) (dest_ref : HV)
    (out : XS n (HV × memcached_return_t)) : Prop :=
  ∃ bindings state rc, out = .returned state (override dest_ref bindings, rc) ∧
    (returnSV rc = .yes ↔ keys = [] ∨ 0 < n) ∧ ∀ b, b ∈ bindings ↔ Binds stores ptr keys b

/-- Two handles that send a key to the same host bind the same values. -/
theorem LeavesHeld.same {stores : Fin n → Store} {ptr ptr' : memcached_st n} {keys : List Bytes}
    {dest_ref : HV} {a b : XS n (HV × memcached_return_t)} (h : LeavesHeld stores ptr keys dest_ref a)
    (h' : LeavesHeld stores ptr' keys dest_ref b) (hrouting : ptr'.routing = ptr.routing) :
    SameOutcome a b := by
  obtain ⟨bs, state, rc, rfl, hyes, hbs⟩ := h
  obtain ⟨cs, state', rc', rfl, hyes', hcs⟩ := h'
  have hhost : ∀ hn, ptr'.hostOf hn = ptr.hostOf hn := by
    intro hn
    funext key
    rw [memcached_st.hostOf, memcached_st.hostOf, hrouting]
  have hmem : ∀ b, b ∈ bs ↔ b ∈ cs := by
    intro b
    rw [hbs, hcs]
    simp only [Binds, hhost]
  have hagree : ∀ key v w, (key, v) ∈ bs → (key, w) ∈ bs → v = w := by
    intro key v w hv hw
    obtain ⟨hn, item, -, hget, rfl⟩ := (hbs _).mp hv
    obtain ⟨hn', item', -, hget', rfl⟩ := (hbs _).mp hw
    rw [Option.some.inj (hget.symm.trans hget')]
  rw [override_congr dest_ref bs cs hmem hagree]
  exact ⟨state, state', _, rc, rc', rfl, rfl, hyes.trans hyes'.symm⟩

section

variable {net : Network n} {stores : Fin n → Store} {p : Protocol} {state : lmc_state_st n}
variable {keys : List Bytes}

/-- A request that is not sent binds nothing. -/
theorem fetch_all_refused (rc : memcached_return_t) (hf : fetchHost state.ptr none keys = .error rc)
    (hyes : rc = NOTFOUND ↔ keys = [] ∨ 0 < n) (hnone : ∀ b, ¬ Binds stores state.ptr keys b)
    (dest_ref : HV) :
    LeavesHeld stores state.ptr keys dest_ref (fetch_all_into_hashref net
      { state with ptr := (memcached_mget net state.ptr keys).1 }
      (memcached_mget net state.ptr keys).2 dest_ref) := by
  rw [mget_error hf]
  obtain ⟨state', hout, -⟩ := fetch_all_failed net { state with ptr := state.ptr }
    (show LMC_RETURN_OK rc = false by rcases fetchHost_error hf with rfl | rfl | rfl <;> rfl) dest_ref
  refine ⟨[], state', _, hout, ?_, fun b => iff_of_false List.not_mem_nil (hnone b)⟩
  rw [← hyes]
  rcases fetchHost_error hf with rfl | rfl | rfl <;> decide

variable (hnet : Working net stores p) (h : Default p state)
variable (hkeys : ∀ key ∈ keys, ValidKey key)
variable (hroom : p = .binary → Allocated state.ptr ∨ FirstFilled stores state.ptr keys)

include hnet h hkeys hroom

/-- A request that is sent binds what the hosts hold. -/
theorem fetch_all_served (hn : 0 < n) (hne : keys ≠ []) (dest_ref : HV) :
    LeavesHeld stores state.ptr keys dest_ref (fetch_all_into_hashref net
      { state with ptr := (memcached_mget net state.ptr keys).1 }
      (memcached_mget net state.ptr keys).2 dest_ref) := by
  have hf := fetchHost_none hn hne (h.unverified keys)
  obtain ⟨q, hsynced, hq⟩ := id h.tidy
  obtain ⟨ptr', hrequest, hsynced', hconfig, hresult⟩ := mget_by_key_up hnet.up hnet.takes hsynced
    (hnet.serves_state h) (fun key hmem => Clean.oneLine (hkeys key hmem).clean)
    (fun _ key hmem => validate_binary (hkeys key hmem)) hf
  have howed := owed_valid stores false p (state.ptr.hostOf hn) hkeys
  have hwhole : AllWhole (owedFor (wholeAnswer stores false p)
      fun s => keys.filter (state.ptr.hostOf hn · = s)) := by
    intro s qs hqs
    unfold owedFor at hqs
    split_ifs at hqs
    cases hqs
    rfl
  obtain ⟨key, hkey⟩ := List.exists_mem_of_ne_nil keys hne
  have hasked : owedFor (wholeAnswer stores false p)
      (fun s => keys.filter (state.ptr.hostOf hn · = s)) (state.ptr.hostOf hn key) ≠ none := by
    have hmine : key ∈ keys.filter (state.ptr.hostOf hn · = state.ptr.hostOf hn key) := by
      simp [hkey]
    rw [owedFor, if_neg (List.ne_nil_of_mem hmine)]
    simp
  obtain ⟨es, state', rc', hout, hyes, hsteps, -, -⟩ := fetch_all_whole hnet.prompt
    { state with ptr := ptr' } hsynced' hwhole hasked SUCCESS rfl dest_ref none h.get_cb
  -- the first reply that comes is the first one of its host
  have hfirst : RoomFor ptr'.protocol ptr'.result ((delivered es).map (·.2)) := by
    intro hbinary
    have hp : state.ptr.protocol = .binary := hconfig.protocol.symm.trans hbinary
    rw [hresult]
    refine (hroom (h.protocol.symm.trans hp)).imp (h.tidy.allocated_iff hp).mp fun hfilled => ?_
    intro r hr
    rcases hes : delivered es with _ | ⟨⟨s, r'⟩, ds⟩
    · rw [hes] at hr
      cases hr
    · rw [hes] at hr
      obtain rfl : r' = r := Option.some.inj hr
      apply hfilled hn s
      rw [← howed]
      exact hsteps.head_owed hes
  dsimp only at hout
  rw [results, bindingsOf_room hfirst] at hout
  refine ⟨((delivered es).map (·.2)).map (replyBinding ptr'.support_cas none), state', rc', ?_,
    iff_of_true hyes (Or.inr hn), ?_⟩
  · rw [memcached_mget, hrequest]
    exact hout
  · intro b
    rw [List.map_map, List.mem_map]
    constructor
    · rintro ⟨⟨s, r⟩, hr, rfl⟩
      have hmem := hsteps.mem_owed hr
      rw [howed, Store.mem_replies, List.mem_filter, decide_eq_true_eq] at hmem
      obtain ⟨⟨hkey, hhost⟩, hget⟩ := hmem
      exact ⟨hn, r.item, hkey, by rw [← hget, ← hhost]; rfl, rfl⟩
    · rintro ⟨hn', item, hkey, hget, hvalue⟩
      refine ⟨(state.ptr.hostOf hn b.1, ⟨b.1, item⟩), ?_, ?_⟩
      · rw [hsteps.delivered_all (fun _ => rfl), howed, Store.mem_replies, List.mem_filter,
          decide_eq_true_eq]
        exact ⟨⟨hkey, rfl⟩, hget⟩
      · exact Prod.ext rfl hvalue.symm

/-- The spec of `_fetch_all_into_hashref` after its request. -/
theorem fetch_all_leaves (dest_ref : HV) :
    LeavesHeld stores state.ptr keys dest_ref (fetch_all_into_hashref net
      { state with ptr := (memcached_mget net state.ptr keys).1 }
      (memcached_mget net state.ptr keys).2 dest_ref) := by
  by_cases hne : keys = []
  · apply fetch_all_refused NOTFOUND
    · rw [fetchHost, if_pos (by rw [hne]; rfl)]
    · exact iff_of_true rfl (Or.inl hne)
    · rintro b ⟨hn, item, hmem, -⟩
      rw [hne] at hmem
      cases hmem
  by_cases hn : 0 < n
  · exact fetch_all_served hnet h hkeys hroom hn hne dest_ref
  · apply fetch_all_refused NO_SERVERS
    · rw [fetchHost, if_neg (mt List.length_eq_zero_iff.mp hne), dif_neg hn]
    · exact iff_of_false (by decide) (not_or.mpr ⟨hne, hn⟩)
    · rintro b ⟨hn', -⟩
      exact hn hn'

theorem mget_into_hashref_leaves (dest_ref : HV) :
    LeavesHeld stores state.ptr keys dest_ref (xs_mget_into_hashref net state keys dest_ref) := by
  obtain ⟨bindings, state', rc, hout, hyes, hbindings⟩ :=
    fetch_all_leaves hnet h hkeys hroom dest_ref
  refine ⟨bindings, recordReturn state' rc, rc, ?_, hyes, hbindings⟩
  unfold xs_mget_into_hashref
  dsimp only
  rw [hout]

theorem get_multi_leaves : ∃ state' hv rc, xs_get_multi net state keys = .returned state' hv ∧
    LeavesHeld stores state.ptr keys (fun _ => none) (.returned state' (hv, rc)) := by
  obtain ⟨bindings, state', rc, hout, hyes, hbindings⟩ :=
    fetch_all_leaves hnet h hkeys hroom fun _ => none
  refine ⟨state', override (fun _ => none) bindings, rc, ?_, bindings, state', rc, rfl, hyes,
    hbindings⟩
  unfold xs_get_multi
  dsimp only
  rw [hout]

end

/-! ## Both protocols -/

/-- Two fetches into a hash of their own give the same hash. -/
def SameHash (a b : XS n HV) : Prop :=
  ∃ state state' hv, a = .returned state hv ∧ b = .returned state' hv

theorem Paired.default {text binary : lmc_state_st n} (h : Paired text binary) :
    Default .text text ∧ Default .binary binary :=
  ⟨⟨h.settled_text.orderly.text, h.settled_text.orderly.plain, h.unverified_text,
    h.settled_text.get_cb, h.settled_text.orderly.tidy⟩,
   ⟨h.settled_binary.binary, h.settled_binary.plain, h.unverified_binary, h.settled_binary.get_cb,
    h.settled_binary.tidy⟩⟩

/-- After any run of calls on two `$memc`, one of each protocol, a single get
gives the same on both just when the binary handle has its value buffer or
the value is not empty, and a fetch of several keys does when the binary handle
has its value buffer or no host's first reply is empty. A value that is held
comes back then, of whatever length. -/
theorem the_fetches_agree_once_the_value_buffer_is_allocated {n : Nat}
    {text binary : lmc_state_st n} (h : TwinHistory n text binary) {stores : Fin n → Store}
    {net net' : Network n} (hnet : Working net stores .text) (hnet' : Working net' stores .binary) :
    (∀ k : GetKey, ValidKey (SvPV k.sv) →
      (∀ flags, SameGot (k.fetch net text flags) (k.fetch net' binary flags) ↔
        Allocated binary.ptr ∨ ¬ HeldUnder stores text.ptr k []) ∧
      (SameGot (xs_get net text k) (xs_get net' binary k) ↔
        Allocated binary.ptr ∨ ¬ HeldUnder stores text.ptr k []) ∧
      ∀ v, HeldUnder stores text.ptr k v → ∀ flags, ∃ f, Gives (k.fetch net text flags) (some v) f ∧
        (Allocated binary.ptr ∨ v ≠ [] → Gives (k.fetch net' binary flags) (some v) f)) ∧
    ∀ keys, (∀ key ∈ keys, ValidKey key) →
      Allocated binary.ptr ∨ FirstFilled stores binary.ptr keys →
      (∀ dest_ref, SameOutcome (xs_mget_into_hashref net text keys dest_ref)
        (xs_mget_into_hashref net' binary keys dest_ref)) ∧
      SameHash (xs_get_multi net text keys) (xs_get_multi net' binary keys) := by
  have hpaired := h.paired
  obtain ⟨htext, hbinary⟩ := hpaired.default
  have hhost : ∀ hn, binary.ptr.hostOf hn = text.ptr.hostOf hn := by
    intro hn
    funext key
    rw [memcached_st.hostOf, memcached_st.hostOf, hpaired.routing]
  constructor
  · intro k hkey
    have hreply : replyTo stores binary.ptr k = replyTo stores text.ptr k := by
      simp only [replyTo, hhost]
    have hheld : (∀ r ∈ replyTo stores text.ptr k, r.item.value ≠ []) ↔
        ¬ HeldUnder stores text.ptr k [] := by
      rw [replyTo_some]
      simp only [not_exists, not_and, ne_eq]
    have hiff : valueFrom .text (drainAll text.ptr).result (replyTo stores text.ptr k) =
          valueFrom .binary (drainAll binary.ptr).result (replyTo stores binary.ptr k) ↔
        Allocated binary.ptr ∨ ¬ HeldUnder stores text.ptr k [] := by
      rw [valueFrom_text, hreply, eq_comm, valueFrom_binary, hbinary.tidy.allocated_iff
        hbinary.protocol, hheld]
    refine ⟨?_, ?_, ?_⟩
    · intro flags
      rw [(fetch_gives hnet htext hkey flags).same_iff (fetch_gives hnet' hbinary hkey flags), hiff,
        hreply, eq_self, and_true]
    · rw [(method_gives hnet htext hkey).same_iff (method_gives hnet' hbinary hkey), hiff, hreply,
        eq_self, and_true]
    · intro v hv flags
      obtain ⟨r, hr, rfl⟩ := replyTo_some.mp hv
      have hgives := fetch_gives hnet htext hkey flags
      have hgives' := fetch_gives hnet' hbinary hkey flags
      rw [valueFrom_text, hr, Option.map_some] at hgives
      refine ⟨_, hgives, fun hroom => ?_⟩
      have hvalue := (valueFrom_binary (drainAll binary.ptr).result (some r)).mpr
        (hroom.imp (hbinary.tidy.allocated_iff hbinary.protocol).mp fun hne r' hr' => by
          rw [← Option.some.inj hr']
          exact hne)
      rw [hreply, hr, hvalue, Option.map_some] at hgives'
      exact hgives'
  · intro keys hkeys hroom
    constructor
    · intro dest_ref
      exact (mget_into_hashref_leaves hnet htext hkeys (fun hp => by cases hp) dest_ref).same
        (mget_into_hashref_leaves hnet' hbinary hkeys (fun _ => hroom) dest_ref) hpaired.routing
    · obtain ⟨state, hv, rc, hout, hleaves⟩ :=
        get_multi_leaves hnet htext hkeys (fun hp => by cases hp)
      obtain ⟨state', hv', rc', hout', hleaves'⟩ :=
        get_multi_leaves hnet' hbinary hkeys (fun _ => hroom)
      obtain ⟨s, s', hash, c, c', ha, hb, -⟩ := hleaves.same hleaves' hpaired.routing
      cases ha
      cases hb
      exact ⟨state, state', hv, hout, hout'⟩

/-! ## A new pair of handles -/

theorem textHosts_working (stores : Fin n → Store) :
    Working (textHosts stores false fun _ => true) stores .text where
  up _ := rfl
  takes := textHosts_takes stores false fun _ => true
  prompt := textHosts_prompt stores false fun _ => true
  serves := textHosts_serves stores false fun _ => true

theorem binaryHosts_working (stores : Fin n → Store) :
    Working (binaryHosts stores) stores .binary where
  up _ := rfl
  takes _ _ := rfl
  prompt := binaryHosts_prompt stores
  serves := binaryHosts_serves stores false

/-- A new `$memc` of the binary protocol. -/
def pairBinary : lmc_state_st 2 := lmc_state_new (.create pairRouting .binary)

/-- The value of a get that returns. -/
def valueGiven : XS n Got → SV
  | .returned _ got => got.value
  | .croaked _ => none

theorem SameGot.valueGiven {a b : XS n Got} (h : SameGot a b) : valueGiven a = valueGiven b := by
  obtain ⟨value, flags, ⟨state, got, rfl, hvalue, -⟩, state', got', rfl, hvalue', -⟩ := h
  exact hvalue.trans hvalue'.symm

/-- An empty value comes back as undef on a new handle of the binary
protocol. -/
theorem an_empty_value_is_undef_on_a_new_binary_handle :
    TwinHistory 2 pairState pairBinary ∧
      Working (textHosts emptyValues false fun _ => true) emptyValues .text ∧
      Working (binaryHosts emptyValues) emptyValues .binary ∧
      HeldUnder emptyValues pairState.ptr (.key (some keyA)) [] ∧
      ¬ SameGot
        ((GetKey.key (some keyA)).fetch (textHosts emptyValues false fun _ => true) pairState 0)
        ((GetKey.key (some keyA)).fetch (binaryHosts emptyValues) pairBinary 0) := by
  refine ⟨.new 2 pairRouting, textHosts_working emptyValues, binaryHosts_working emptyValues,
    ⟨by decide, ⟨0, 0, [], nil_fits⟩, rfl, rfl⟩, fun hsame => ?_⟩
  have htext : valueGiven ((GetKey.key (some keyA)).fetch
      (textHosts emptyValues false fun _ => true) pairState 0) = some [] := by decide +kernel
  have hbinary : valueGiven ((GetKey.key (some keyA)).fetch (binaryHosts emptyValues)
      pairBinary 0) = none := by decide +kernel
  rw [hsame.valueGiven, hbinary] at htext
  cases htext

/-- The two handles after a get of a key with a value. -/
def textAfterGet : lmc_state_st 2 :=
  (WrapperCall.plain .method (some keyB)).run (readOnlyHosts pairStores) pairState

def binaryAfterGet : lmc_state_st 2 :=
  (WrapperCall.plain .method (some keyB)).run (binaryHosts pairStores) pairBinary

/-- Then the empty value comes back on both. -/
theorem an_empty_value_comes_back_once_the_value_buffer_is_allocated :
    SameGot
        ((GetKey.key (some keyA)).fetch (textHosts emptyValues false fun _ => true) textAfterGet 0)
        ((GetKey.key (some keyA)).fetch (binaryHosts emptyValues) binaryAfterGet 0) ∧
      SameHash (xs_get_multi (textHosts emptyValues false fun _ => true) textAfterGet [keyA, keyB])
        (xs_get_multi (binaryHosts emptyValues) binaryAfterGet [keyA, keyB]) := by
  have hhistory : TwinHistory 2 textAfterGet binaryAfterGet :=
    .call (.new 2 pairRouting) (.plain .method (some keyB)) ⟨by decide, by decide⟩
      (readOnlyHosts_answering pairStores) (binaryHosts_answering pairStores)
      (fun s hs => by cases hs.1) trivial
  have hallocated : Allocated binaryAfterGet.ptr := Or.inl (by decide +kernel)
  obtain ⟨hone, hmany⟩ := the_fetches_agree_once_the_value_buffer_is_allocated hhistory
    (textHosts_working emptyValues) (binaryHosts_working emptyValues)
  obtain ⟨hfetch, -, -⟩ := hone (.key (some keyA)) (by decide)
  obtain ⟨-, hhash⟩ := hmany [keyA, keyB] (by decide) (Or.inl hallocated)
  exact ⟨(hfetch 0).mpr (Or.inl hallocated), hhash⟩

end Libmemcached
