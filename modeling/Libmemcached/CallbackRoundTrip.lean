-- A value on its way through a set callback to a host and back through a get
-- callback: T_VALUE:pre_call on the way in, _cb_fire_perl_get_cb on the way
-- out (typemap, libmemcached.xs).
import Libmemcached.Healthy
import Libmemcached.MethodTwins
import Libmemcached.TextServers

open Chunks Decimal Override Queues

namespace Libmemcached

open memcached_return_t memcached_storage_action_t

variable {n : Nat}

/-! ## The callbacks -/

/-- What a set callback is called with. -/
def setInvocation (key value : Bytes) (flags : UInt32) : Invocation :=
  ⟨key, some value, uvOfFlags flags, none⟩

/-- Whatever the set callback makes of a value and flags, the get callback
gives them back. Neither depends on the calls before. -/
def Undoes (get_cb set_cb : Coderef) : Prop :=
  ∀ calls calls' key v f value flags cas,
    set_cb calls (setInvocation key v f) = .empty value flags →
      get_cb calls' ⟨key, value, flags, cas⟩ = .empty (some v) (uvOfFlags f)

/-- The set callback leaves a byte string in `$_`, and flags of 32 bits. -/
def LeavesSendable (set_cb : Coderef) : Prop :=
  ∀ calls key v f value flags, set_cb calls (setInvocation key v f) = .empty value flags →
    ∃ w g, value = some w ∧ flags = uvOfFlags g

theorem flagsOfUV_uvOfFlags (flags : UInt32) : flagsOfUV (uvOfFlags flags) = flags := by
  unfold flagsOfUV uvOfFlags
  exact UInt32.toUInt32_toUInt64 flags

/-! ## The storage calls -/

/-- The storage calls that replace a value as a whole. -/
inductive StoreVerb
  | set
  | add
  | replace

def StoreVerb.op : StoreVerb → memcached_storage_action_t
  | .set => SET_OP
  | .add => ADD_OP
  | .replace => REPLACE_OP

/-- A storage call, with or without a master key. -/
structure StoreCall where
  verb : StoreVerb
  master_key : Option Bytes

namespace StoreCall

def run (call : StoreCall) (net : Network n) (state : lmc_state_st n) (key value : SV)
    (expiration flags : UInt64) : XS n (memcached_return_t × Pad) :=
  match call.verb, call.master_key with
  | .set, none => xs_memcached_set net state key value expiration flags
  | .set, some m => xs_memcached_set_by_key net state (some m) key value expiration flags
  | .add, none => xs_memcached_add net state key value expiration flags
  | .add, some m => xs_memcached_add_by_key net state (some m) key value expiration flags
  | .replace, none => xs_memcached_replace net state key value expiration flags
  | .replace, some m => xs_memcached_replace_by_key net state (some m) key value expiration flags

/-- The key that is hashed for the host. -/
def routeKey (call : StoreCall) (key : Bytes) : Bytes := call.master_key.getD key

theorem run_eq (call : StoreCall) (net : Network n) (state : lmc_state_st n) (key value : SV)
    (expiration flags : UInt64) :
    call.run net state key value expiration flags =
      xs_store state (fun ptr key value expiration flags => memcached_send net ptr
        (call.routeKey key) key value expiration flags 0 call.verb.op) key value expiration
        flags := by
  obtain ⟨verb, master_key⟩ := call
  cases verb <;> cases master_key <;> rfl

end StoreCall

/-- What a host reads in the command of a storage call: the key, the flags and
the value. -/
def storedItem (command : Bytes) : Option (Bytes × UInt32 × Bytes) :=
  match lineWords command with
  | [_, key, flags, _, length] =>
    some (key, UInt32.ofNat (readDigits 0 flags).1,
      dataBlock command (readDigits 0 length).1)
  | _ => none

/-- The host holds what the command says, with its bytes and flags
unchanged. -/
def HoldsStored (store : Store) (command : Bytes) : Prop :=
  ∃ key flags value item, storedItem command = some (key, flags, value) ∧
    store.get key = some item ∧ item.flags = flags ∧ item.value = value

theorem storedItem_storageLine (verb : memcached_storage_action_t) {key : Bytes}
    (hkey : ValidKey key) (flags : UInt32) (expiration : UInt64) (value : Bytes) :
    storedItem (storageLine verb key flags expiration value.length 0 ++ value ++ [13, 10]) =
      some (key, flags, value) := by
  have hwords := lineWords_storageLine verb hkey flags expiration value.length 0
    (value ++ [13, 10])
  rw [storageWords_zero, ← List.append_assoc] at hwords
  have hblock := dataBlock_storageLine verb hkey flags expiration value 0
  unfold storedItem
  simp only [hwords, hblock]
  simp only [readDigits_decimal_end, UInt32.ofNat_toNat]

/-- The hosts answer such a command with one line, or break off in it. -/
def RepliesToStorage (net : Network n) (verb : memcached_storage_action_t) : Prop :=
  ∀ s key flags expiration value, ValidKey key → Replied (bytesOf (net.answer s
    (storageLine verb key flags expiration value.length 0 ++ value ++ [13, 10])).1)

theorem validate_not_ok {length : Nat} {binary : Bool}
    (h : memcached_validate_key_length length binary ≠ SUCCESS) :
    memcached_validate_key_length length binary = BAD_KEY_PROVIDED := by
  unfold memcached_validate_key_length at h ⊢
  split_ifs at h ⊢ <;> first | rfl | exact absurd rfl h

/-- What a storage command of the text protocol that reports a success has
done: the host of the master key was sent the command, and no other host was
sent anything. -/
structure StorageSent (ptr : memcached_st n) (q : State (Fin n) Reply)
    (verb : memcached_storage_action_t) (master_key key value : Bytes) (expiration : UInt64)
    (flags : UInt32) (ptr' : memcached_st n) (s : Fin n) (command : Bytes) : Prop where
  host : ∃ hn, s = ptr.hostOf hn master_key
  command_eq : command = storageLine verb key flags expiration value.length 0 ++ value ++ [13, 10]
  hands : Hands ptr ptr' s [command]
  tested : ¬ (ptr.verify_key = true ∧ memcached_key_test [key] = BAD_KEY_PROVIDED)
  synced : Synced ptr' (Function.update q s none)
  config : SameConfig ptr ptr'

theorem memcached_send_sent {net : Network n} {verb : memcached_storage_action_t}
    (hreplies : RepliesToStorage net verb) {ptr : memcached_st n} {q : State (Fin n) Reply}
    (h : Synced ptr q) (hq : AllWhole q) (htext : ptr.protocol = .text)
    {master_key key value : Bytes} (hkey : ValidKey key) {expiration : UInt64} {flags : UInt32}
    {ptr' : memcached_st n} {rc : memcached_return_t}
    (hsend : memcached_send net ptr master_key key value expiration flags 0 verb = (ptr', rc))
    (hok : LMC_RETURN_OK rc = true) :
    ∃ s command, StorageSent ptr q verb master_key key value expiration flags ptr' s command := by
  have hsent : ∀ {s : Fin n} {command : Bytes},
      storageWrites ptr master_key key value expiration flags 0 verb = some (s, command) →
      Hands ptr ptr' s [command] := by
    intro s command hwrites
    have hcarries := send_carries net h hwrites
    rw [hsend] at hcarries
    exact hcarries.ok hok
  unfold storageWrites at hsent
  unfold memcached_send at hsend
  rw [htext] at hsend hsent
  simp only [reduceCtorEq, decide_false] at hsend hsent
  split_ifs at hsend with hlength hn htest
  · cases hsend
    rw [validate_not_ok hlength] at hok
    cases hok
  · cases hsend
    cases hok
  · unfold memcached_send_text at hsend
    dsimp only at hsend
    by_cases hline : MEMCACHED_DEFAULT_COMMAND_SIZE ≤
        (storageLine verb key flags expiration value.length 0).length
    · rw [if_pos hline] at hsend
      cases hsend
      cases hok
    · rw [if_neg hline] at hsend
      obtain ⟨s, hs⟩ : ∃ s, s = storageHost ptr hn master_key := ⟨_, rfl⟩
      obtain ⟨command, hcommand⟩ : ∃ command, command =
        storageLine verb key flags expiration value.length 0 ++ value ++ [13, 10] := ⟨_, rfl⟩
      rw [if_neg hlength, dif_pos hn, if_neg htest, if_neg hline, ← hs, ← hcommand] at hsent
      rw [← hs, ← hcommand] at hsend
      have hreplied : Replied (bytesOf (net.answer s command).1) := by
        rw [hcommand]
        exact hreplies s key flags expiration value hkey
      have hresp : Responds net s command (q s) := by
        rcases hqs : q s with _ | ⟨rs, _ | _⟩
        · exact hreplied
        · exact absurd (hq s _ hqs) (by simp)
        · exact hreplied
      obtain ⟨hsynced, hconfig, -⟩ := exchange_text h htext s command (by rw [hcommand]; simp)
        MEMCACHED_DEFAULT_COMMAND_SIZE hresp
      -- a write that failed is no success
      have hwritten : rc ≠ WRITE_FAILURE := by
        rintro rfl
        cases hok
      have hhands := hsent rfl
      obtain ⟨rfl, rfl⟩ := Prod.mk.inj hsend
      rw [if_neg hwritten] at hhands ⊢
      exact ⟨s, command, ⟨hn, hs⟩, hcommand, hhands, htest, hsynced, hconfig⟩
  · cases hsend
    cases hok

/-! ## The set callback -/

/-- The caller's own `$key`, `$value` and `$flags` are what they were. -/
def CallerUnchanged (pad : Pad) (key value : SV) (flags : UInt64) : Prop :=
  pad.strings.take 2 = [key, value] ∧ pad.numbers.take 1 = [flags]

/-- What is sent is what the set callback has left of its own copies. -/
theorem pre_call_sendable {state : lmc_state_st n} {set_cb : Coderef}
    (hset : state.cb_context.set_cb = some set_cb) (hleaves : LeavesSendable set_cb)
    {key v : Bytes} {f : UInt32} {state' : lmc_state_st n} {pad : Pad} {value : Bytes}
    {flags : UInt32}
    (h : pre_call state (callerPad (some key) (some v) (uvOfFlags f)) =
      .ready state' pad value flags) :
    set_cb state.cb_context.calls (setInvocation key v f) =
        .empty (some value) (uvOfFlags flags) ∧
      CallerUnchanged pad (some key) (some v) (uvOfFlags f) ∧ state'.ptr = state.ptr ∧
      state'.cb_context.get_cb = state.cb_context.get_cb := by
  unfold pre_call at h
  rw [hset] at h
  simp only [callerPad, List.getD_cons_zero, List.getD_cons_succ, SvPV, Option.getD_some,
    flagsOfUV_uvOfFlags, List.length_cons, List.length_nil, List.cons_append, List.nil_append,
    cb_fire_perl_cb] at h
  cases houtcome : set_cb state.cb_context.calls ⟨key, some v, uvOfFlags f, none⟩ with
  | empty value' flags' =>
    obtain ⟨w, g, rfl, rfl⟩ := hleaves _ _ _ _ _ _ houtcome
    rw [houtcome] at h
    simp only [PreCall.ready.injEq] at h
    obtain ⟨rfl, rfl, rfl, rfl⟩ := h
    refine ⟨?_, ⟨rfl, rfl⟩, rfl, rfl⟩
    simp only [List.set_cons_succ, List.set_cons_zero, List.getD_cons_succ, List.getD_cons_zero,
      Option.getD_some, flagsOfUV_uvOfFlags]
    exact houtcome
  | items value' flags' =>
    rw [houtcome] at h
    cases h
  | died value' =>
    rw [houtcome] at h
    cases h

/-! ## The get callback -/

/-- A fetch into a hash stores what the get callback leaves, or dies. -/
theorem runCallbacks_storeHash_cases (support_cas : Bool) {get_cb : Coderef}
    (result : memcached_result_st) {context : lmc_cb_context_st}
    (hget : context.get_cb = some get_cb) :
    (∃ value flags, get_cb context.calls (invocationOf support_cas result) = .empty value flags ∧
        runCallbacks (storeHash support_cas (some get_cb)) result context =
          .returned SUCCESS { context with
            dest_sv := .element result.item_key
            dest_hv := Function.update context.dest_hv result.item_key (some value)
            flags := flagsOfUV flags
            result_count := context.result_count + 1
            calls := context.calls ++ [invocationOf support_cas result] }) ∨
      ((∀ value flags, get_cb context.calls (invocationOf support_cas result) ≠
          .empty value flags) ∧
        ∃ context', runCallbacks (storeHash support_cas (some get_cb)) result context =
          .died context') := by
  have hfired : ∀ outcome, cb_fire_perl_cb get_cb (invocationOf support_cas result) context.calls =
      outcome → (∀ value flags, outcome ≠ .empty value flags) → ∃ context',
        runCallbacks (storeHash support_cas (some get_cb)) result context = .died context' := by
    intro outcome houtcome hnot
    unfold invocationOf at houtcome
    simp only [storeHash, Option.isSome_some, if_true, runCallbacks, cb_prep_store_into_sv_of_hv,
      cb_store_into_sv, cb_fire_perl_get_cb, lmc_cb_context_st.setDest, lmc_cb_context_st.dest,
      hget, Function.update_self, Option.getD_some, houtcome]
    cases outcome with
    | empty value flags => exact absurd rfl (hnot value flags)
    | items value flags => exact ⟨_, rfl⟩
    | died value => exact ⟨_, rfl⟩
  cases hcall : get_cb context.calls (invocationOf support_cas result) with
  | empty value flags =>
    refine Or.inl ⟨value, flags, rfl, ?_⟩
    unfold invocationOf at hcall ⊢
    simp only [storeHash, Option.isSome_some, if_true, runCallbacks, cb_prep_store_into_sv_of_hv,
      cb_store_into_sv, cb_fire_perl_get_cb, cb_fire_perl_cb, lmc_cb_context_st.setDest,
      lmc_cb_context_st.dest, hget, Function.update_self, Option.getD_some, Function.update_idem,
      update_hv_fetch_lval, hcall]
  | items value flags =>
    refine Or.inr ⟨fun _ _ => by simp, hfired (.died value) ?_ (by simp)⟩
    rw [cb_fire_perl_cb, hcall]
  | died value =>
    refine Or.inr ⟨fun _ _ => by simp, hfired (.died value) ?_ (by simp)⟩
    rw [cb_fire_perl_cb, hcall]

/-- Once a result of the key is stored, the element of the key is what the get
callback makes of it, and stays so. -/
theorem callAll_storeHash_key {support_cas : Bool} {get_cb : Coderef} {key v : Bytes}
    (results : List memcached_result_st)
    (hback : ∀ result ∈ results, result.item_key = key →
      ∀ calls, ∃ flags, get_cb calls (invocationOf support_cas result) = .empty (some v) flags)
    {context context' : lmc_cb_context_st} (hget : context.get_cb = some get_cb)
    (hcall : callAll (storeHash support_cas (some get_cb)) results context =
      .returned SUCCESS context')
    (hkey : (∃ result ∈ results, result.item_key = key) ∨
      context.dest_hv key = some (some v)) : context'.dest_hv key = some (some v) := by
  induction results generalizing context with
  | nil =>
    rw [callAll] at hcall
    cases hcall
    rcases hkey with ⟨result, hmem, -⟩ | hkey
    · cases hmem
    · exact hkey
  | cons result results ih =>
    rw [callAll] at hcall
    rcases runCallbacks_storeHash_cases support_cas result hget with
      ⟨value, flags, houtcome, hrun⟩ | ⟨-, context₁, hrun⟩
    · rw [hrun] at hcall
      have hlater : ∀ r ∈ results, r.item_key = key →
          ∀ calls, ∃ flags, get_cb calls (invocationOf support_cas r) = .empty (some v) flags :=
        fun r hr => hback r (List.mem_cons_of_mem _ hr)
      refine ih hlater ?_ hcall ?_
      · exact hget
      · by_cases hthis : result.item_key = key
        · right
          obtain ⟨flags', hv⟩ := hback result (List.mem_cons_self ..) hthis context.calls
          rw [houtcome, Outcome.empty.injEq] at hv
          obtain ⟨rfl, -⟩ := hv
          rw [hthis]
          exact Function.update_self ..
        · rcases hkey with ⟨r, hr, hrkey⟩ | hkey
          · rcases List.mem_cons.mp hr with rfl | hr
            · exact absurd hrkey hthis
            · exact Or.inl ⟨r, hr, hrkey⟩
          · right
            exact (Function.update_of_ne (Ne.symm hthis) _ _).trans hkey
    · rw [hrun] at hcall
      cases hcall

/-! ## The fetches -/

/-- What the get callback makes of the item that a host holds. -/
structure KeptItem (state : lmc_state_st n) (get_cb : Coderef) (key v : Bytes) (f : UInt32)
    (item : Item) : Prop where
  text : state.ptr.protocol = .text
  callback : state.cb_context.get_cb = some get_cb
  back : ∀ calls cas, get_cb calls ⟨key, some item.value, uvOfFlags item.flags, cas⟩ =
    .empty (some v) (uvOfFlags f)

section

variable {net : Network n} {stores : Fin n → Store} {state : lmc_state_st n}
variable {q : State (Fin n) Reply} {get_cb : Coderef} {key v : Bytes} {f : UInt32} {item : Item}
variable (hnet : Healthy net stores state.ptr.support_cas) (h : Synced state.ptr q)
variable (hkept : KeptItem state get_cb key v f item)

include hnet h hkept

/-- A single get that goes to the host of the item gives back the value and
the flags. -/
theorem fetch_one_sv_back {k : GetKey} (hsv : SvPV k.sv = key) {route : Bytes → Fin n}
    (hf : fetchHost state.ptr k.master [key] = .ok route)
    (hitem : (stores (route key)).get key = some item) (flags : UInt32) :
    ∃ state', fetch_one_sv net (k.requested net state) flags (k.request net state.ptr).2 =
      .returned state' ⟨some v, f, SUCCESS⟩ := by
  have hvalid := (stores (route key)).valid key item hitem
  have hline : ∀ k ∈ [key], OneLine k := by
    intro k hk
    rw [List.mem_singleton.mp hk]
    exact Clean.oneLine hvalid.clean
  obtain ⟨ptr', hrequest, hsynced, hconfig⟩ :=
    mget_by_key_healthy hnet h hkept.text hline hf
  rw [← hsv, ← GetKey.request_eq] at hrequest
  unfold GetKey.requested
  rw [hrequest]
  obtain ⟨hone, honly⟩ := owedReplies_one state.ptr.support_cas hitem
  -- the callbacks take the one reply
  have hcall : ∀ calls, get_cb calls (invocationOf ptr'.support_cas
      (storeReply ptr'.support_cas ptr'.protocol ptr'.result ⟨key, item⟩)) =
        .empty (some v) (uvOfFlags f) := by
    intro calls
    rw [hconfig.protocol, hkept.text, invocationOf_text]
    exact hkept.back calls _
  have hrun := runCallbacks_storeScalar ptr'.support_cas
    (storeReply ptr'.support_cas ptr'.protocol ptr'.result ⟨key, item⟩)
    (show (singleContext state.cb_context flags).dest_sv = .scalar from rfl)
    hkept.callback (hcall _)
  obtain ⟨ptr'', rc, hexec, hrc, -, -⟩ := fetch_execute_one hnet.prompt hsynced hone honly
    (storeScalar_plain ptr'.support_cas (some get_cb)) hrun
  unfold singleContext at hexec
  unfold fetch_one_sv
  rw [if_neg (by simp)]
  dsimp only at hexec ⊢
  rw [hkept.callback] at hexec ⊢
  rw [hexec]
  rcases hrc with rfl | rfl <;> simp [flagsOfUV_uvOfFlags]

/-- A fetch of several keys leaves the value in the element of the key. -/
theorem fetch_all_back {keys : List Bytes} (hkeys : ∀ k ∈ keys, ValidKey k) (hmem : key ∈ keys)
    {route : Bytes → Fin n} (hf : fetchHost state.ptr none keys = .ok route)
    (hitem : (stores (route key)).get key = some item) (dest_ref : HV)
    {state' : lmc_state_st n} {hv : HV} {rc : memcached_return_t}
    (hfetch : fetch_all_into_hashref net { state with ptr := (memcached_mget net state.ptr keys).1 }
      (memcached_mget net state.ptr keys).2 dest_ref = .returned state' (hv, rc)) :
    hv key = some (some v) := by
  obtain ⟨ptr', hrequest, hsynced, hconfig⟩ :=
    mget_by_key_healthy hnet h hkept.text (fun k hk => Clean.oneLine (hkeys k hk).clean) hf
  rw [memcached_mget, hrequest] at hfetch
  unfold fetch_all_into_hashref at hfetch
  rw [if_neg (by simp [LMC_RETURN_OK])] at hfetch
  dsimp only at hfetch
  rw [hkept.callback] at hfetch
  have hfinished := fetch_execute_finished hnet.prompt hsynced
    (allWhole_owedReplies stores state.ptr.support_cas route keys)
    (storeHash_plain ptr'.support_cas (some get_cb))
    { state.cb_context with dest_hv := dest_ref, result_count := 0, get_cb := some get_cb }
  generalize memcached_fetch_execute net ptr' (storeHash ptr'.support_cas (some get_cb))
    { state.cb_context with dest_hv := dest_ref, result_count := 0, get_cb := some get_cb } = out
    at hfinished hfetch
  cases hfinished with
  | died => cases hfetch
  | @returned es ptr'' context' hsteps hcall hsynced' hconfig' =>
    cases hfetch
    -- the replies for the key are those of its host, and carry the item
    have hdelivered : ∀ t r, (t, r) ∈ delivered es → r.key = key → r.item = item := by
      intro t r hr hrkey
      obtain ⟨⟨-, hroute⟩, hget⟩ := (mem_owedReplies hkeys).mp (hsteps.mem_owed hr)
      rw [← hroute, hrkey, hitem] at hget
      exact (Option.some.inj hget).symm
    have htext := hconfig.protocol.trans hkept.text
    refine callAll_storeHash_key (results ptr' es) ?_ rfl hcall (Or.inl ?_)
    · intro result hresult hkey calls
      obtain ⟨t, r, hr, hrkey, hinvocation⟩ := of_mem_results_text htext hresult
      rw [hinvocation]
      rw [hrkey] at hkey
      unfold replyInvocation
      rw [hkey, hdelivered t r hr hkey]
      exact ⟨_, hkept.back calls _⟩
    · have hall : (route key, (⟨key, item⟩ : Reply)) ∈ delivered es := by
        apply (hsteps.delivered_all (fun _ => rfl) _ _).mpr
        exact (mem_owedReplies hkeys).mpr ⟨⟨hmem, rfl⟩, hitem⟩
      exact mem_results_text htext hall

/-- A fetch of the key alone returns. -/
theorem fetch_all_returns {route : Bytes → Fin n}
    (hf : fetchHost state.ptr none [key] = .ok route)
    (hitem : (stores (route key)).get key = some item) (dest_ref : HV) :
    ∃ state' hv rc, fetch_all_into_hashref net
      { state with ptr := (memcached_mget net state.ptr [key]).1 }
      (memcached_mget net state.ptr [key]).2 dest_ref = .returned state' (hv, rc) := by
  have hvalid := (stores (route key)).valid key item hitem
  have hline : ∀ k ∈ [key], OneLine k := by
    intro k hk
    rw [List.mem_singleton.mp hk]
    exact Clean.oneLine hvalid.clean
  obtain ⟨ptr', hrequest, hsynced, hconfig⟩ :=
    mget_by_key_healthy hnet h hkept.text hline hf
  obtain ⟨hone, honly⟩ := owedReplies_one state.ptr.support_cas hitem
  rw [memcached_mget, hrequest]
  unfold fetch_all_into_hashref
  rw [if_neg (by simp [LMC_RETURN_OK])]
  dsimp only
  rw [hkept.callback]
  let context : lmc_cb_context_st :=
    { state.cb_context with dest_hv := dest_ref, result_count := 0, get_cb := some get_cb }
  rcases runCallbacks_storeHash_cases ptr'.support_cas
      (storeReply ptr'.support_cas ptr'.protocol ptr'.result ⟨key, item⟩)
      (show context.get_cb = some get_cb from rfl) with
    ⟨value, flags, -, hrun⟩ | ⟨hnot, -⟩
  · obtain ⟨ptr'', rc, hexec, -⟩ := fetch_execute_one hnet.prompt hsynced hone honly
      (storeHash_plain ptr'.support_cas (some get_cb)) hrun
    rw [hexec]
    exact ⟨_, _, _, rfl⟩
  · refine absurd ?_ (hnot (some v) (uvOfFlags f))
    rw [hconfig.protocol, hkept.text, invocationOf_text]
    exact hkept.back _ _

end

/-! ## There and back -/

/-- A master key that the check of the fetch lets pass, where the check is
on. -/
def MasterPasses (ptr : memcached_st n) (master_key : Bytes) : Prop :=
  ptr.verify_key = true → master_key = [] ∨ memcached_key_test [master_key] = SUCCESS

/-- Every fetch of the key from the host gives back the value and the flags. -/
structure GivesBack (net : Network n) (state : lmc_state_st n) (s : Fin n) (key v : Bytes)
    (f : UInt32) : Prop where
  single : ∀ k : GetKey, SvPV k.sv = key → MasterPasses state.ptr (k.master.getD []) →
    (∃ hn, state.ptr.hostOf hn k.routeKey = s) → ∀ flags,
      (∃ state', k.fetch net state flags = .returned state' ⟨some v, f, SUCCESS⟩) ∧
      ∃ state', xs_get net state k = .returned state' ⟨some v, f, SUCCESS⟩
  multi : (∃ hn, state.ptr.hostOf hn key = s) → ∀ keys, (∀ k ∈ keys, ValidKey k) → key ∈ keys →
    (state.ptr.verify_key = true → memcached_key_test keys = SUCCESS) →
      (∀ dest_ref state' hv rc,
        xs_mget_into_hashref net state keys dest_ref = .returned state' (hv, rc) →
          hv key = some (some v)) ∧
      ∀ state' hv, xs_get_multi net state keys = .returned state' hv → hv key = some (some v)
  returns : (∃ hn, state.ptr.hostOf hn key = s) →
    (∀ dest_ref, ∃ state' got, xs_mget_into_hashref net state [key] dest_ref =
      .returned state' got) ∧
      ∃ state' hv, xs_get_multi net state [key] = .returned state' hv

theorem kept_gives_back {net : Network n} {stores : Fin n → Store} {state : lmc_state_st n}
    {q : State (Fin n) Reply} {get_cb : Coderef} {key v : Bytes} {f : UInt32} {item : Item}
    (hnet : Healthy net stores state.ptr.support_cas) (h : Synced state.ptr q)
    (hkept : KeptItem state get_cb key v f item)
    (htest : ¬ (state.ptr.verify_key = true ∧ memcached_key_test [key] = BAD_KEY_PROVIDED))
    {s : Fin n} (hitem : (stores s).get key = some item) : GivesBack net state s key v f := by
  have hpass : ∀ {keys}, (state.ptr.verify_key = true → memcached_key_test keys = SUCCESS) →
      ¬ (state.ptr.verify_key = true ∧ memcached_key_test keys = BAD_KEY_PROVIDED) := by
    rintro keys hkeys ⟨hverify, hbad⟩
    rw [hkeys hverify] at hbad
    cases hbad
  refine ⟨?_, ?_, ?_⟩
  · rintro k hsv hmaster ⟨hn, hhost⟩ flags
    obtain ⟨route, hf, hroute⟩ := fetchHost_one hn k.master htest (by
      rcases Classical.em (k.master.getD [] = []) with hnil | hnil
      · exact Or.inr hnil
      · exact Or.inl (hpass fun hverify => (hmaster hverify).resolve_left hnil))
    have hwhere : route key = s := by
      rw [hroute, ← hhost, GetKey.routeKey, hsv]
    rw [← hwhere] at hitem
    have hback := fun flags => fetch_one_sv_back hnet h hkept hsv hf hitem flags
    constructor
    · obtain ⟨state', hone⟩ := hback flags
      rw [GetKey.fetch_eq, hone]
      exact ⟨_, rfl⟩
    · rw [xs_get_eq]
      exact hback 0
  · rintro ⟨hn, rfl⟩ keys hkeys hmem htests
    have hf := fetchHost_none hn (List.ne_nil_of_mem hmem) (hpass htests)
    constructor
    · intro dest_ref state' hv rc hfetch
      simp only [xs_mget_into_hashref] at hfetch
      split at hfetch
      · rename_i state₁ hv₁ rc₁ hall
        cases hfetch
        exact fetch_all_back hnet h hkept hkeys hmem hf hitem dest_ref hall
      · cases hfetch
    · intro state' hv hfetch
      simp only [xs_get_multi] at hfetch
      split at hfetch
      · rename_i state₁ hv₁ rc₁ hall
        cases hfetch
        exact fetch_all_back hnet h hkept hkeys hmem hf hitem _ hall
      · cases hfetch
  · rintro ⟨hn, rfl⟩
    have hf := fetchHost_none hn (List.cons_ne_nil key []) htest
    have hreturns := fun dest_ref => fetch_all_returns hnet h hkept hf hitem dest_ref
    constructor
    · intro dest_ref
      obtain ⟨state', hv, rc, hall⟩ := hreturns dest_ref
      simp only [xs_mget_into_hashref, hall]
      exact ⟨_, _, rfl⟩
    · obtain ⟨state', hv, rc, hall⟩ := hreturns fun _ => none
      simp only [xs_get_multi, hall]
      exact ⟨_, _, rfl⟩

theorem textServers_healthy (stores : Fin n → Store) (withCas : Bool) :
    Healthy (textServers stores withCas) stores withCas where
  up _ := rfl
  takes := textServers_takes stores withCas
  prompt := textServers_prompt stores withCas
  serves := textServers_serves stores withCas

theorem textServers_repliesToStorage (stores : Fin n → Store) (withCas : Bool) :
    RepliesToStorage (textServers stores withCas) SET_OP := by
  intro s key flags expiration value hkey
  have hhead := head_storageLine SET_OP hkey flags expiration value.length 0 (value ++ [13, 10])
  rw [← List.append_assoc] at hhead
  refine .line storedResponse ?_ ?_
  · constructor
    · decide
    · decide
  · unfold textServers
    dsimp only
    rw [if_pos hhead]
    exact bytesOf_whole storedLine

/-- A set whose callback leaves a value, and flags that are cut to none. -/
theorem xs_memcached_set_called (stores : Fin n → Store) {state : lmc_state_st n}
    {q : State (Fin n) Reply} (h : Synced state.ptr q) (hq : AllWhole q) (hn : 0 < n)
    (htext : state.ptr.protocol = .text) {key : Bytes} (hkey : ValidKey key)
    (htest : state.ptr.verify_key = true → memcached_key_test [key] = SUCCESS)
    {set_cb : Coderef} (hset : state.cb_context.set_cb = some set_cb) {v value : Bytes}
    {f : UInt32} {flags : UInt64}
    (hcall : set_cb state.cb_context.calls (setInvocation key v f) = .empty (some value) flags)
    (hflags : flagsOfUV flags = 0) (hvalue : value.length + 2 < 2 ^ 31) :
    ∃ state' pad, xs_memcached_set (textServers stores state.ptr.support_cas) state (some key)
        (some v) 0 (uvOfFlags f) = .returned state' (SUCCESS, pad) ∧
      Synced state'.ptr (Function.update q (storageHost state.ptr hn key) none) ∧
      SameConfig state.ptr state'.ptr ∧ state'.cb_context.get_cb = state.cb_context.get_cb ∧
      Hands state.ptr state'.ptr (storageHost state.ptr hn key) [setRequest key value] := by
  obtain ⟨ptr', hstored, hsynced, hconfig, hhands⟩ :=
    memcached_set_stored stores h hq hn htext hkey htest hvalue
  unfold setInvocation at hcall
  unfold xs_memcached_set xs_store pre_call
  simp only [hset, callerPad, List.getD_cons_zero, List.getD_cons_succ, SvPV, Option.getD_some,
    flagsOfUV_uvOfFlags, List.length_cons, List.length_nil, List.cons_append, List.nil_append,
    cb_fire_perl_cb, hcall, List.set_cons_succ, List.set_cons_zero, hflags, hstored]
  exact ⟨_, _, rfl, hsynced, hconfig, rfl, hhands⟩

/-- A set callback that puts a `z` before the value, and a get callback that
takes it off. -/
def prefixing : Coderef := fun _ invocation =>
  .empty (invocation.value.map (ascii ['z'] ++ ·)) invocation.flags

def unprefixing : Coderef := fun _ invocation =>
  .empty (invocation.value.map (·.drop 1)) invocation.flags

theorem unprefixing_undoes : Undoes unprefixing prefixing := by
  intro calls calls' key v f value flags cas h
  cases h
  rfl

theorem prefixing_sendable : LeavesSendable prefixing := by
  intro calls key v f value flags h
  cases h
  exact ⟨_, f, rfl, rfl⟩

/-- The same pair, which marks its values in a bit of the flags that is not
sent. -/
def marking : Coderef := fun _ invocation =>
  .empty (invocation.value.map (ascii ['z'] ++ ·)) (invocation.flags + 0x100000000)

def unmarking : Coderef := fun _ invocation =>
  if 0x100000000 ≤ invocation.flags then
    .empty (invocation.value.map (·.drop 1)) (invocation.flags - 0x100000000)
  else .empty invocation.value invocation.flags

theorem unmarking_undoes : Undoes unmarking marking := by
  intro calls calls' key v f value flags cas h
  have hmarked : 0x100000000 ≤ uvOfFlags f + 0x100000000 := by
    have hf : f.toNat < 2 ^ 32 := f.toNat_lt
    rw [UInt64.le_iff_toNat_le, UInt64.toNat_add, uvOfFlags, UInt32.toNat_toUInt64]
    change 4294967296 ≤ (f.toNat + 4294967296) % 18446744073709551616
    omega
  cases h
  refine (if_pos hmarked).trans ?_
  rw [UInt64.add_sub_cancel]
  rfl

def pairCalled (set_cb get_cb : Coderef) : lmc_state_st 2 :=
  xs_set_callback_coderefs pairState (some set_cb) (some get_cb)

/-- The two hosts once they have executed what they were sent so far. -/
def pairAfter (state : lmc_state_st 2) : Network 2 :=
  textServers (storesAfter pairStores 0 pairState.ptr state.ptr) false

/-- A set of `value` on such hosts, as a callback leaves it, and what any fetch
through a get callback then gives. -/
theorem pairCalled_gives (set_cb get_cb : Coderef) (v value w : Bytes) {flags : UInt64} {f : UInt32}
    (hcall : set_cb [] (setInvocation keyA v 0) = .empty (some value) flags)
    (hflags : flagsOfUV flags = 0) (hvalue : value.length + 2 < 2 ^ 31)
    (hback : ∀ calls cas, get_cb calls ⟨keyA, some value, 0, cas⟩ =
      .empty (some w) (uvOfFlags f)) :
    ∃ state pad, xs_memcached_set (textServers pairStores false) (pairCalled set_cb get_cb)
        (some keyA) (some v) 0 0 = .returned state (SUCCESS, pad) ∧
      state.ptr.support_cas = false ∧ (∃ hn, state.ptr.hostOf hn keyA = 0) ∧
      (storesAfter pairStores 0 pairState.ptr state.ptr 0).get keyA =
        some ⟨0, 0, value, hvalue⟩ ∧ GivesBack (pairAfter state) state 0 keyA w f := by
  have hsynced₀ : Synced (pairCalled set_cb get_cb).ptr fun _ => none :=
    synced_create pairRouting .text
  obtain ⟨state, pad, hset, hsynced, hconfig, hget, hhands⟩ :=
    xs_memcached_set_called pairStores hsynced₀ (by simp [AllWhole]) (by decide) rfl keyA_valid
      (fun _ => by decide) rfl hcall hflags hvalue
  have hkept : KeptItem state get_cb keyA w f ⟨0, 0, value, hvalue⟩ :=
    ⟨hconfig.protocol, hget, hback⟩
  have hnet : Healthy (pairAfter state) (storesAfter pairStores 0 pairState.ptr state.ptr)
      state.ptr.support_cas := by
    rw [hconfig.support_cas]
    exact textServers_healthy _ _
  have hitem := storesAfter_get pairStores 0 keyA_valid hvalue hhands
  refine ⟨state, pad, hset, hconfig.support_cas, ⟨by decide, ?_⟩, hitem,
    kept_gives_back hnet hsynced hkept ?_ hitem⟩
  · unfold memcached_st.hostOf
    rw [hconfig.routing]
    rfl
  · rintro ⟨hverify, -⟩
    rw [hconfig.verify_key] at hverify
    cases hverify

end Libmemcached
