-- Which host a call goes to when it has a master key, and when it has none.
import Libmemcached.SentCommands

open Chunks Decimal Queues

namespace Libmemcached

open memcached_return_t memcached_server_st

variable {n : Nat}

/-! ## The calls -/

/-- The calls that exist with and without a master key, and their other
arguments. `method` is the `get` method. -/
inductive KeyedCall
  | set (value : SV) (expiration flags : UInt64)
  | add (value : SV) (expiration flags : UInt64)
  | replace (value : SV) (expiration flags : UInt64)
  | append (value : SV) (expiration flags : UInt64)
  | prepend (value : SV) (expiration flags : UInt64)
  | cas (value : SV) (expiration flags unique : UInt64)
  | delete (expiration : UInt64)
  | get (flags : UInt32)
  | method
  | mget

namespace KeyedCall

/-- The plain call on a key. -/
def plain (call : KeyedCall) (state : lmc_state_st n) (key : SV) (net : Network n) :
    lmc_state_st n :=
  match call with
  | set value expiration flags => (xs_memcached_set net state key value expiration flags).state
  | add value expiration flags => (xs_memcached_add net state key value expiration flags).state
  | replace value expiration flags =>
    (xs_memcached_replace net state key value expiration flags).state
  | append value expiration flags =>
    (xs_memcached_append net state key value expiration flags).state
  | prepend value expiration flags =>
    (xs_memcached_prepend net state key value expiration flags).state
  | cas value expiration flags unique =>
    (xs_memcached_cas net state key value expiration flags unique).state
  | delete expiration => (xs_memcached_delete net state none key expiration).1
  | get flags => (xs_memcached_get net state key flags).state
  | method => (xs_get net state (.key key)).state
  | mget => (xs_memcached_mget net state none [SvPV key]).1

/-- The same call with a master key. -/
def byKey (call : KeyedCall) (state : lmc_state_st n) (master_key key : SV) (net : Network n) :
    lmc_state_st n :=
  match call with
  | set value expiration flags =>
    (xs_memcached_set_by_key net state master_key key value expiration flags).state
  | add value expiration flags =>
    (xs_memcached_add_by_key net state master_key key value expiration flags).state
  | replace value expiration flags =>
    (xs_memcached_replace_by_key net state master_key key value expiration flags).state
  | append value expiration flags =>
    (xs_memcached_append_by_key net state master_key key value expiration flags).state
  | prepend value expiration flags =>
    (xs_memcached_prepend_by_key net state master_key key value expiration flags).state
  | cas value expiration flags unique =>
    (xs_memcached_cas_by_key net state master_key key value expiration flags unique).state
  | delete expiration => (xs_memcached_delete net state (some master_key) key expiration).1
  | get flags => (xs_memcached_get_by_key net state master_key key flags).state
  | method => (xs_get net state (.array master_key key)).state
  | mget => (xs_memcached_mget net state (some master_key) [SvPV key]).1

/-- The value and the flags that a storage call is given. -/
def stores : KeyedCall → Option (SV × UInt64)
  | set value _ flags | add value _ flags | replace value _ flags | append value _ flags
  | prepend value _ flags | cas value _ flags _ => some (value, flags)
  | _ => none

/-- The calls that fetch. They take an empty master key for none. -/
def fetches : KeyedCall → Bool
  | get _ | method | mget => true
  | _ => false

/-- The checks that a call makes before it sends anything. A fetch lets any
length pass in the text protocol, and only a fetch checks a master key; a
delete leaves out the test of the characters. -/
structure Accepted (call : KeyedCall) (state : lmc_state_st n) (master_key key : SV) : Prop where
  length : call.fetches = false ∨ state.ptr.protocol = .binary →
    memcached_validate_key_length (SvPV key).length (state.ptr.protocol = .binary) = SUCCESS
  test : (∀ expiration, call ≠ delete expiration) →
    ¬ (state.ptr.verify_key = true ∧ memcached_key_test [SvPV key] = BAD_KEY_PROVIDED)
  master : call.fetches = true → SvPV master_key = [] ∨
    ¬ (state.ptr.verify_key = true ∧ memcached_key_test [SvPV master_key] = BAD_KEY_PROVIDED)
  expiration : ∀ expiration, call = delete expiration → state.ptr.protocol = .binary →
    expiration = 0
  -- the set callback does not croak, and the length of what it leaves is a `size_t`
  value : ∀ value flags, call.stores = some (value, flags) → ∃ state' pad bytes flags',
    pre_call state (callerPad key value flags) = .ready state' pad bytes flags' ∧
      bytes.length < UInt64.size

end KeyedCall

/-! ## Where a call is sent -/

/-- The call is sent to `s`: no other host is sent anything, and `s` is sent a
request when it is up. -/
def SentTo (s : Fin n) (state : lmc_state_st n) (call : Network n → lmc_state_st n) : Prop :=
  ∀ net, ∃ requests, Hands state.ptr (call net).ptr s requests ∧ (Up net s → requests ≠ [])

/-- Hosts that are all up, and do not answer. -/
def silentServers (n : Nat) : Network n where
  connect _ := SUCCESS
  connect_code := connects_at_once
  accepts _ _ := true
  answer _ _ := ([], .timeout)
  poll _ fds := fds

/-- A call is sent to one host. -/
theorem SentTo.unique {s t : Fin n} {state : lmc_state_st n} {call : Network n → lmc_state_st n}
    (h : SentTo s state call) (h' : SentTo t state call) : s = t := by
  obtain ⟨requests, hands, hne⟩ := h (silentServers n)
  obtain ⟨more, hands', -⟩ := h' (silentServers n)
  exact hands.unique hands' (hne ⟨rfl, fun _ => rfl⟩)

theorem Carries.sentTo {state : lmc_state_st n} {s : Fin n} {command : Bytes}
    {call : Network n → lmc_state_st n} {out : Network n → memcached_st n × memcached_return_t}
    (h : ∀ net, Carries net state.ptr s command (out net)) (hptr : ∀ net, (call net).ptr = (out net).1) :
    SentTo s state call := by
  intro net
  obtain ⟨requests, hhands, -⟩ := (h net).hands
  rw [hptr]
  by_cases hup : Up net s
  · exact ⟨[command], (h net).up hup, fun _ => List.cons_ne_nil _ _⟩
  · exact ⟨requests, hhands, fun h => absurd h hup⟩

/-! ## Storage calls -/

theorem pre_call_ptr {state state' : lmc_state_st n} {pad pad' : Pad} {value : Bytes}
    {flags : UInt32} (h : pre_call state pad = .ready state' pad' value flags) :
    state'.ptr = state.ptr := by
  simp only [pre_call] at h
  split at h
  · cases h; rfl
  · split at h
    · cases h; rfl
    all_goals cases h

/-- The calls that do not fetch: delete, and those that are one storage
command, with the key as the master key when there is none. -/
theorem KeyedCall.storage_cases {call : KeyedCall} (h : call.fetches = false) :
    (∃ expiration, call = delete expiration) ∨
      ∃ value expiration flags unique verb, call.stores = some (value, flags) ∧
        (∀ expiration, call ≠ delete expiration) ∧ ∀ (state : lmc_state_st n) master_key key,
        (call.byKey state master_key key = fun net =>
          (xs_store state (memcached_send net · (SvPV master_key) · · · · unique verb) key value
            expiration flags).state) ∧
        (call.plain state key = fun net =>
          (xs_store state (fun ptr key value expiration flags =>
            memcached_send net ptr key key value expiration flags unique verb) key value
            expiration flags).state) := by
  cases call with
  | set value expiration flags =>
    exact Or.inr ⟨value, expiration, flags, 0, .SET_OP, rfl, by simp, fun _ _ _ => ⟨rfl, rfl⟩⟩
  | add value expiration flags =>
    exact Or.inr ⟨value, expiration, flags, 0, .ADD_OP, rfl, by simp, fun _ _ _ => ⟨rfl, rfl⟩⟩
  | replace value expiration flags =>
    exact Or.inr ⟨value, expiration, flags, 0, .REPLACE_OP, rfl, by simp, fun _ _ _ => ⟨rfl, rfl⟩⟩
  | append value expiration flags =>
    exact Or.inr ⟨value, expiration, flags, 0, .APPEND_OP, rfl, by simp, fun _ _ _ => ⟨rfl, rfl⟩⟩
  | prepend value expiration flags =>
    exact Or.inr ⟨value, expiration, flags, 0, .PREPEND_OP, rfl, by simp, fun _ _ _ => ⟨rfl, rfl⟩⟩
  | cas value expiration flags unique =>
    exact Or.inr ⟨value, expiration, flags, unique, .CAS_OP, rfl, by simp, fun _ _ _ => ⟨rfl, rfl⟩⟩
  | delete expiration => exact Or.inl ⟨expiration, rfl⟩
  | _ => cases h

theorem deleteWrites_accepted {ptr : memcached_st n} (hn : 0 < n) {key : Bytes}
    (hlength : memcached_validate_key_length key.length (ptr.protocol = .binary) = SUCCESS)
    {expiration : UInt64} (hexpiration : ptr.protocol = .binary → expiration = 0)
    (master_key : Bytes) :
    ∃ command, deleteWrites ptr master_key key expiration =
      some (ptr.hostOf hn master_key, command) := by
  unfold deleteWrites
  rw [if_neg (not_not.mpr hlength), dif_pos hn]
  cases hp : ptr.protocol with
  | binary =>
    dsimp only
    rw [if_pos (hexpiration hp)]
    exact ⟨_, rfl⟩
  | text => exact ⟨_, rfl⟩

section calls

variable {state : lmc_state_st n} {q : State (Fin n) Reply} (h : Synced state.ptr q) (hn : 0 < n)
variable {call : KeyedCall} {master_key key : SV}

include h

/-- A storage call that is accepted sends one command, to the host of whatever
is its master key. -/
theorem xs_store_sentTo {value : SV} {flags : UInt64}
    (hstores : call.stores = some (value, flags)) (hcall : ∀ expiration, call ≠ .delete expiration)
    (haccepted : call.Accepted state master_key key) (hfetch : call.fetches = false)
    (expiration unique : UInt64) (verb : memcached_storage_action_t) (routed : Bytes) :
    SentTo (state.ptr.hostOf hn routed) state fun net =>
      (xs_store state (fun ptr key value expiration flags =>
        memcached_send net ptr routed key value expiration flags unique verb) key value expiration
        flags).state := by
  obtain ⟨state', pad, bytes, flags', hpre, hbytes⟩ := haccepted.value value flags hstores
  have hwrites := storageWrites_accepted hn (haccepted.length (Or.inl hfetch))
    (haccepted.test hcall) hbytes routed expiration flags' unique verb
  apply Carries.sentTo (fun net => send_carries net h hwrites)
  intro net
  unfold xs_store
  rw [hpre]
  dsimp only
  rw [pre_call_ptr hpre]
  rfl

theorem xs_delete_sentTo {expiration : UInt64}
    (haccepted : (KeyedCall.delete expiration).Accepted state master_key key) (routed : Bytes)
    {call : Network n → lmc_state_st n} (hcall : ∀ net, (call net).ptr =
      (memcached_delete_by_key net state.ptr routed (SvPV key) expiration).1) :
    SentTo (state.ptr.hostOf hn routed) state call := by
  obtain ⟨command, hwrites⟩ := deleteWrites_accepted hn (haccepted.length (Or.inl rfl))
    (haccepted.expiration expiration rfl) routed
  exact Carries.sentTo (fun net => delete_carries net h hwrites) hcall

end calls

/-! ## Fetches -/

/-- A fetch of one key that is accepted is sent to the host of its master key,
or of the key when the master key is empty. -/
theorem fetch_sentTo {state : lmc_state_st n} {q : State (Fin n) Reply} (h : Synced state.ptr q)
    (hn : 0 < n) {call : KeyedCall} {master_key key : SV} (hfetch : call.fetches = true)
    (haccepted : call.Accepted state master_key key) (given : Option Bytes)
    (hgiven : given.getD [] = SvPV master_key) {run : Network n → lmc_state_st n}
    (hrun : ∀ net t, ((run net).ptr.servers t).sent =
      ((memcached_mget_by_key net state.ptr given [SvPV key]).1.servers t).sent) :
    SentTo (state.ptr.hostOf hn (if SvPV master_key = [] then SvPV key else SvPV master_key)) state
      run := by
  have htest : ∀ expiration, call ≠ .delete expiration := by
    rintro expiration rfl
    cases hfetch
  obtain ⟨route, hf, hroute⟩ := fetchHost_one hn given (haccepted.test htest) (by
    rw [hgiven]
    exact (haccepted.master hfetch).symm)
  rw [hgiven] at hroute
  intro net
  obtain ⟨requests, hhands, hup⟩ := mget_one_hands net h hf (fun hp => by
    have hlength := haccepted.length (Or.inr hp)
    rwa [hp] at hlength)
  rw [hroute] at hhands hup
  refine ⟨requests, hhands.frame (fun _ => rfl) (hrun net), fun h => ?_⟩
  rw [hup h]
  unfold oneKeyRequests
  cases state.ptr.protocol <;> exact List.cons_ne_nil _ _

/-! ## The host of a call -/

/-- The host that a call with a master key goes to. -/
def byKeyHost (call : KeyedCall) (ptr : memcached_st n) (hn : 0 < n) (master_key key : SV) :
    Fin n :=
  if call.fetches ∧ SvPV master_key = [] then ptr.hostOf hn (SvPV key)
  else ptr.hostOf hn (SvPV master_key)

theorem byKeyHost_fetch {call : KeyedCall} (hcall : call.fetches = true) (ptr : memcached_st n)
    (hn : 0 < n) (master_key key : SV) : byKeyHost call ptr hn master_key key =
      ptr.hostOf hn (if SvPV master_key = [] then SvPV key else SvPV master_key) := by
  unfold byKeyHost
  by_cases hnil : SvPV master_key = []
  · rw [if_pos ⟨hcall, hnil⟩, if_pos hnil]
  · rw [if_neg (fun hand => hnil hand.2), if_neg hnil]

theorem byKey_sentTo {state : lmc_state_st n} {q : State (Fin n) Reply} (h : Synced state.ptr q)
    (hn : 0 < n) {call : KeyedCall} {master_key key : SV}
    (haccepted : call.Accepted state master_key key) :
    SentTo (byKeyHost call state.ptr hn master_key key) state (call.byKey state master_key key) := by
  cases hcall : call.fetches with
  | false =>
    rw [byKeyHost, if_neg (by simp [hcall])]
    rcases KeyedCall.storage_cases (n := n) hcall with
      ⟨expiration, rfl⟩ | ⟨value, expiration, flags, unique, verb, hstores, hdelete, hcases⟩
    · exact xs_delete_sentTo h hn haccepted (SvPV master_key) fun _ => rfl
    · rw [(hcases state master_key key).1]
      exact xs_store_sentTo h hn hstores hdelete haccepted hcall expiration unique verb _
  | true =>
    rw [byKeyHost_fetch hcall]
    refine fetch_sentTo h hn hcall haccepted (some (SvPV master_key)) rfl fun net t => ?_
    cases call with
    | get flags =>
      simp only [KeyedCall.byKey, xs_memcached_get_by_key, record_ptr, fetch_one_sv_sent]
    | method => simp only [KeyedCall.byKey, xs_get, fetch_one_sv_sent]
    | mget => rfl
    | _ => cases hcall

theorem plain_sentTo {state : lmc_state_st n} {q : State (Fin n) Reply} (h : Synced state.ptr q)
    (hn : 0 < n) {call : KeyedCall} {key : SV} (haccepted : call.Accepted state none key) :
    SentTo (state.ptr.hostOf hn (SvPV key)) state (call.plain state key) := by
  cases hcall : call.fetches with
  | false =>
    rcases KeyedCall.storage_cases (n := n) hcall with
      ⟨expiration, rfl⟩ | ⟨value, expiration, flags, unique, verb, hstores, hdelete, hcases⟩
    · exact xs_delete_sentTo h hn haccepted (SvPV key) fun _ => rfl
    · rw [(hcases state none key).2]
      exact xs_store_sentTo h hn hstores hdelete haccepted hcall expiration unique verb (SvPV key)
  | true =>
    have hnil : SvPV (none : SV) = [] := rfl
    have hfetch : ∀ {run : Network n → lmc_state_st n}, (∀ net t, ((run net).ptr.servers t).sent =
        ((memcached_mget_by_key net state.ptr none [SvPV key]).1.servers t).sent) →
        SentTo (state.ptr.hostOf hn (SvPV key)) state run := by
      intro run hrun
      have hone := fetch_sentTo h hn hcall haccepted none rfl hrun
      rwa [if_pos hnil] at hone
    apply hfetch
    intro net t
    cases call with
    | get flags => simp only [KeyedCall.plain, xs_memcached_get, record_ptr, fetch_one_sv_sent]
    | method => simp only [KeyedCall.plain, xs_get, fetch_one_sv_sent]
    | mget => rfl
    | _ => cases hcall

/-! ## Master keys and routing -/

/-- The host that the routing picks for a string of bytes. -/
def Routing.host (routing : Routing n) (hn : 0 < n) (bytes : Bytes) : Fin n :=
  memcached_generate_hash_with_redistribution routing hn bytes


/-- What a master key is for: without bytes it changes nothing, and all calls
with the same master key and key are sent to one host. -/
def RoutesAlike (routing : Routing n) (protocol : Protocol) (master_key key : SV) : Prop :=
  ∀ (state state' : lmc_state_st n) (q q' : State (Fin n) Reply),
    Synced state.ptr q → Synced state'.ptr q' →
    state.ptr.routing = routing → state'.ptr.routing = routing →
    state.ptr.protocol = protocol → state'.ptr.protocol = protocol →
    (SvPV master_key = [] → ∀ call : KeyedCall, call.Accepted state master_key key →
      call.Accepted state' none key →
        ∃ s, SentTo s state (call.byKey state master_key key) ∧
          SentTo s state' (call.plain state' key)) ∧
    ∀ call call' : KeyedCall, call.Accepted state master_key key →
      call'.Accepted state' master_key key →
        ∃ s, SentTo s state (call.byKey state master_key key) ∧
          SentTo s state' (call'.byKey state' master_key key)

/-- An empty master key sends a delete away from the host of the key. -/
theorem routes_apart (hn : 0 < n) (routing : Routing n) (protocol : Protocol) {master_key key : SV}
    (hmaster : SvPV master_key = []) (hhost : routing.host hn [] ≠ routing.host hn (SvPV key))
    (hkey : memcached_validate_key_length (SvPV key).length (protocol = .binary) = SUCCESS) :
    ¬ RoutesAlike routing protocol master_key key := by
  intro h
  let state : lmc_state_st n := lmc_state_new (.create routing protocol)
  have hsynced : Synced state.ptr (fun _ => none) := synced_create routing protocol
  have haccepted : ∀ master_key, (KeyedCall.delete 0).Accepted state master_key key := by
    intro master_key
    refine ⟨fun _ => hkey, fun hdelete => absurd rfl (hdelete 0), ?_, ?_, ?_⟩
    · intro hfetch
      cases hfetch
    · rintro expiration hdelete -
      cases hdelete
      rfl
    · intro value flags hstores
      cases hstores
  obtain ⟨s, hbyKey, hplain⟩ := (h state state _ _ hsynced hsynced rfl rfl rfl rfl).1 hmaster
    (.delete 0) (haccepted _) (haccepted _)
  have hs := hbyKey.unique (byKey_sentTo hsynced hn (haccepted master_key))
  rw [byKeyHost, if_neg (by simp [KeyedCall.fetches]), hmaster] at hs
  exact hhost (hs.symm.trans (hplain.unique (plain_sentTo hsynced hn (haccepted none))))

/-- A master key does what it is documented to do exactly when it has bytes, or
the routing cannot tell the empty master key from the key, or the key has a
length that is refused: a storage call and a delete hash an empty master key,
and a fetch does not. With bytes it names the host of every call. -/
theorem a_master_key_routes_alike_iff_it_is_not_empty (hn : 0 < n) (routing : Routing n)
    (protocol : Protocol) (master_key key : SV) :
    (RoutesAlike routing protocol master_key key ↔
      SvPV master_key ≠ [] ∨ routing.host hn [] = routing.host hn (SvPV key) ∨
        memcached_validate_key_length (SvPV key).length (protocol = .binary) ≠ SUCCESS) ∧
    (SvPV master_key ≠ [] → ∀ (state : lmc_state_st n) (q : State (Fin n) Reply),
      Synced state.ptr q → state.ptr.routing = routing → ∀ call : KeyedCall,
        call.Accepted state master_key key →
          SentTo (routing.host hn (SvPV master_key)) state (call.byKey state master_key key)) := by
  have hhost : ∀ (state : lmc_state_st n), state.ptr.routing = routing → ∀ bytes,
      state.ptr.hostOf hn bytes = routing.host hn bytes := by
    rintro state rfl bytes
    rfl
  refine ⟨⟨fun h => ?_, ?_⟩, ?_⟩
  · by_contra hnot
    simp only [not_or, not_not] at hnot
    exact routes_apart hn routing protocol hnot.1 hnot.2.1 hnot.2.2 h
  · rintro h state state' q q' hs hs' hr hr' hp hp'
    -- the host of each call, by what makes the routes alike
    have hbyKey : ∀ (state : lmc_state_st n) (q : State (Fin n) Reply), Synced state.ptr q →
        state.ptr.routing = routing → state.ptr.protocol = protocol → ∀ call : KeyedCall,
        call.Accepted state master_key key →
          SentTo (routing.host hn (if SvPV master_key = [] then SvPV key else SvPV master_key))
            state (call.byKey state master_key key) := by
      intro state q hs hr hp call haccepted
      have hsent := byKey_sentTo hs hn haccepted
      cases hcall : call.fetches with
      | true => rwa [byKeyHost_fetch hcall, hhost state hr] at hsent
      | false =>
        rw [byKeyHost, if_neg (by simp [hcall]), hhost state hr] at hsent
        by_cases hm : SvPV master_key = []
        · rw [if_pos hm]
          rw [hm] at hsent
          rcases h with h | h | h
          · exact absurd hm h
          · rwa [← h]
          · have hlength := haccepted.length (Or.inl hcall)
            rw [hp] at hlength
            exact absurd hlength h
        · rwa [if_neg hm]
    refine ⟨fun hm call hcall hcall' => ?_, fun call call' hcall hcall' => ?_⟩
    · refine ⟨_, hbyKey state q hs hr hp call hcall, ?_⟩
      rw [if_pos hm, ← hhost state' hr']
      exact plain_sentTo hs' hn hcall'
    · exact ⟨_, hbyKey state q hs hr hp call hcall, hbyKey state' q' hs' hr' hp' call' hcall'⟩
  · intro hm state q hs hr call haccepted
    have hsent := byKey_sentTo hs hn haccepted
    rwa [byKeyHost, if_neg (fun hand => hm hand.2), hhost state hr] at hsent

/-- Three hosts whose hash is the first byte of a key. -/
def threeHosts : Routing 3 where
  distribution := .MODULA
  hashkit key := (key.headD 0).toUInt32
  hash_with_prefix_key := false

/-- The theorem at these hosts: a get with the master key `m` is sent to the
host of `m`. -/
theorem a_master_key_of_three_hosts_routes_alike :
    RoutesAlike threeHosts .text (some (ascii ['m'])) (some (ascii ['b'])) ∧
      SentTo (threeHosts.host (Nat.succ_pos 2) (ascii ['m']))
        (lmc_state_new (.create threeHosts .text))
        ((KeyedCall.get 0).byKey (lmc_state_new (.create threeHosts .text)) (some (ascii ['m']))
          (some (ascii ['b']))) := by
  have hmaster : SvPV (some (ascii ['m'])) ≠ [] := by decide
  have hall := a_master_key_routes_alike_iff_it_is_not_empty (Nat.succ_pos 2) threeHosts .text
    (some (ascii ['m'])) (some (ascii ['b']))
  refine ⟨hall.1.mpr (Or.inl hmaster), ?_⟩
  apply hall.2 hmaster _ _ (synced_create threeHosts .text) rfl
  constructor
  · exact fun _ => by decide
  · rintro - ⟨hverify, -⟩
    cases hverify
  · rintro -
    refine Or.inr ?_
    rintro ⟨hverify, -⟩
    cases hverify
  · intro expiration hdelete
    cases hdelete
  · intro value flags hstores
    cases hstores

/-- An undef master key sends a delete of the key `b` elsewhere than the plain
call does. -/
theorem an_undef_master_key_routes_apart :
    ¬ RoutesAlike threeHosts .text none (some (ascii ['b'])) :=
  routes_apart (Nat.succ_pos 2) threeHosts .text rfl (by decide) (by decide)

end Libmemcached
