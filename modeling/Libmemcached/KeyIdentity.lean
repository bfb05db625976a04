-- One key on its ways through the module: as an argument, as an element of an
-- array, as a key of a hash, and back from the host into the result hash.
import Libmemcached.KeyBuffer
import Libmemcached.KeyOrder
import Libmemcached.Lib.PerlString
import Libmemcached.TextServers

open Chunks Decimal Override PerlString Queues

namespace Libmemcached

open memcached_return_t memcached_storage_action_t

variable {n : Nat}

/-! ## Keys as strings -/

/-- `$h{$k}`: a hash compares characters, and `hv_fetch` made each key from
its bytes as Latin-1. -/
def hashLookup (hv : HV) (k : PerlString) : Option SV :=
  if ∀ c ∈ k.chars, c < 256 then hv (toLatin1 k.chars) else none

/-- `[$k]`. -/
def inArray (k : PerlString) : PlainKeys := .array [some k.bytes]

/-- `{$k => 1}`. -/
def inHash (k : PerlString) : PlainKeys := .hash [k.hashBytes] (List.nodup_singleton _)

/-- No white space and no control character. -/
def CleanChars (k : PerlString) : Prop := ∀ c ∈ k.chars, 33 ≤ c ∧ c ≠ 127

theorem isDelimiter_of_clean {c : Nat} (h : 33 ≤ c ∧ c ≠ 127) (hc : c < 256) :
    isDelimiter (UInt8.ofNat c) = false := by
  obtain ⟨hlow, hdel⟩ := h
  interval_cases c <;> first | rfl | exact absurd rfl hdel

theorem isDelimiter_of_high {b : UInt8} (h : 128 ≤ b.toNat) : isDelimiter b = false := by
  have hb := isDelimiter_of_clean (c := b.toNat) ⟨by omega, by omega⟩ b.toNat_lt
  rwa [UInt8.ofNat_toNat] at hb

theorem clean_bytes {k : PerlString} (h : CleanChars k) : Clean k.bytes := by
  intro b hb
  unfold bytes at hb
  split_ifs at hb with hflag
  · rcases utf8_bytes hb with hhigh | ⟨c, hc, hlt, rfl⟩
    · exact isDelimiter_of_high hhigh
    · exact isDelimiter_of_clean (h c hc) (by omega)
  · obtain ⟨c, hc, rfl⟩ := List.mem_map.mp hb
    exact isDelimiter_of_clean (h c hc) (k.fits (by simpa using hflag) c hc)

theorem bytes_eq_nil {k : PerlString} (h : k.chars = []) : k.bytes = [] := by
  unfold bytes
  rw [h]
  split_ifs <;> rfl

theorem bytes_ne_nil {k : PerlString} (h : k.chars ≠ []) : k.bytes ≠ [] := by
  intro hnil
  unfold bytes at hnil
  split_ifs at hnil
  · have hlength := length_utf8_ge k.chars
    rw [hnil] at hlength
    exact h (List.length_eq_zero_iff.mp (by simpa using hlength))
  · exact h (List.map_eq_nil_iff.mp hnil)

theorem validKey_bytes {k : PerlString} (hclean : CleanChars k) (hne : k.chars ≠ [])
    (hshort : k.bytes.length ≤ 250) : ValidKey k.bytes :=
  ⟨bytes_ne_nil hne, Nat.lt_succ_of_le hshort, clean_bytes hclean⟩

/-- When the internal bytes are the characters, all routes see the same key. -/
theorem bytes_of_plain {k : PerlString} (h : Ascii k.chars ∨ k.flag = false) :
    k.bytes = toLatin1 k.chars ∧ k.hashBytes = toLatin1 k.chars ∧ ∀ c ∈ k.chars, c < 256 := by
  have hlow : ∀ c ∈ k.chars, c < 256 := by
    intro c hc
    rcases h with h | h
    · have := h c hc
      omega
    · exact k.fits h c hc
  refine ⟨?_, if_pos hlow, hlow⟩
  rcases h with h | h
  · exact bytes_of_ascii h
  · exact bytes_of_flag_off h

/-- Otherwise the characters, as single bytes, are not the internal bytes. -/
theorem toLatin1_ne_bytes {k : PerlString} (h : ¬ Ascii k.chars) (hflag : k.flag = true) :
    toLatin1 k.chars ≠ k.bytes := by
  intro he
  have hlength := length_utf8_gt h
  unfold bytes at he
  rw [if_pos hflag] at he
  rw [← he] at hlength
  unfold toLatin1 at hlength
  rw [List.length_map] at hlength
  omega

/-- The test of a handle that verifies its keys lets a clean key pass when it
is ASCII. -/
theorem key_test_of_ascii {k : PerlString} (hclean : CleanChars k) (hascii : Ascii k.chars)
    (hvalid : ValidKey k.bytes) : memcached_key_test [k.bytes] = SUCCESS := by
  have hlength := validate_valid hvalid
  have hgraph : k.bytes.all isgraph = true := by
    rw [bytes_of_ascii hascii, List.all_eq_true]
    intro b hb
    obtain ⟨c, hc, rfl⟩ := List.mem_map.mp hb
    have hlt := hascii c hc
    obtain ⟨hlow, hdel⟩ := hclean c hc
    interval_cases c <;> first | rfl | exact absurd rfl hdel
  unfold memcached_key_test
  rw [if_pos]
  simp [hlength, hgraph]

/-- It turns any other key down. -/
theorem key_test_of_not_ascii {k : PerlString} (h : ¬ Ascii k.chars) :
    memcached_key_test [k.bytes] = BAD_KEY_PROVIDED := by
  have hgraph : k.bytes.all isgraph = false := by
    rw [List.all_eq_false]
    unfold Ascii at h
    simp only [not_forall, Nat.not_lt] at h
    obtain ⟨c, hc, hhigh⟩ := h
    obtain ⟨b, hb, hbhigh⟩ : ∃ b ∈ k.bytes, 128 ≤ b.toNat := by
      unfold bytes
      split_ifs with hflag
      · obtain ⟨hall, hlength⟩ := utf8Char_high hhigh
        obtain ⟨b, hb⟩ := List.exists_mem_of_length_pos (show 0 < (utf8Char c).length by omega)
        exact ⟨b, List.mem_flatMap.mpr ⟨c, hc, hb⟩, hall b hb⟩
      · have hlt := k.fits (by simpa using hflag) c hc
        refine ⟨UInt8.ofNat c, List.mem_map.mpr ⟨c, hc, rfl⟩, ?_⟩
        rw [UInt8.toNat_ofNat', Nat.mod_eq_of_lt (by omega)]
        exact hhigh
    refine ⟨b, hb, ?_⟩
    have hnot : ¬ b ≤ 126 := by
      rw [UInt8.le_iff_toNat_le]
      exact Nat.not_le.mpr (by have : (126 : UInt8).toNat = 126 := rfl; omega)
    simp [isgraph, hnot]
  unfold memcached_key_test
  rw [if_neg]
  simp [hgraph]

/-! ## A fetch of one key -/

/-- A request for one key that is refused leaves the hash as it was. -/
theorem mget_one_refused (net : Network n) (state : lmc_state_st n) {key : Bytes}
    {rc : memcached_return_t} (hf : fetchHost state.ptr none [key] = .error rc) (dest_ref : HV) :
    ∃ state' rc', xs_mget_into_hashref net state [key] dest_ref =
      .returned state' (dest_ref, rc') := by
  have hrc : LMC_RETURN_OK rc = false := by
    rcases fetchHost_error hf with rfl | rfl | rfl <;> rfl
  obtain ⟨state', hout, -⟩ := fetch_all_failed net { state with ptr := state.ptr } hrc dest_ref
  unfold xs_mget_into_hashref
  rw [mget_error hf]
  dsimp only
  rw [hout]
  exact ⟨_, _, rfl⟩

/-- What a fetch of one key from text hosts leaves: the reply of the host of
the key, if that holds the key, and no other change. -/
theorem mget_one_key (stores : Fin n → Store) (state : lmc_state_st n) {q : State (Fin n) Reply}
    (h : Synced state.ptr q) (htext : state.ptr.protocol = .text)
    (hcb : state.cb_context.get_cb = none) {key : Bytes} (hclean : Clean key)
    {route : Bytes → Fin n} (hf : fetchHost state.ptr none [key] = .ok route) (dest_ref : HV) :
    ∃ state' hv rc, xs_mget_into_hashref (textServers stores state.ptr.support_cas) state [key]
        dest_ref = .returned state' (hv, rc) ∧
      (∀ item, (stores (route key)).get key = some item → hv key = some (some item.value)) ∧
      ∀ k, k ≠ key ∨ key = [] → hv k = dest_ref k := by
  have hone : ∀ k ∈ [key], OneLine k := by
    intro k hk
    rw [List.mem_singleton.mp hk]
    exact hclean.oneLine
  obtain ⟨state', hv, rc, hout, hleaves⟩ := mget_leaves_replies (textServers_prompt _ _) state h
    htext (textServers_serves stores _) (fun s => (textServers_takes _ _ s).keys .text)
    (show state.cb_context.get_cb = (none : Option Transform).map Transform.coderef from hcb)
    (fun s _ => textServers_takes _ _ s) hone hf dest_ref
  refine ⟨state', hv, rc, hout, ?_⟩
  rcases hleaves with ⟨-, -, bindings, rfl, hbindings⟩ | ⟨hlast, -⟩
  · -- every reply is for this key, from the store of its host
    have hreply : ∀ b ∈ bindings, key ≠ [] ∧ b.1 = key ∧
        ∀ item, (stores (route key)).get key = some item → b.2 = some item.value := by
      intro b hb
      obtain ⟨s, r, hr, rfl⟩ := (hbindings b).mp hb
      rw [sentReplies, Store.mem_replies, htext] at hr
      obtain ⟨hasked, hget⟩ := hr
      have hsent : ∀ k ∈ mgetSent (textServers stores state.ptr.support_cas) state.ptr [key] s,
          k = key ∧ route k = s := by
        intro k hk
        rw [mgetSent_ok hf, sentKeys, if_pos (textServers_alive _ _ _ _), List.mem_filter,
          List.mem_singleton] at hk
        exact ⟨hk.1, by simpa using hk.2⟩
      obtain ⟨hkey, hroute⟩ : r.key = key ∧ route r.key = s := by
        apply hsent
        apply of_mem_keysAsked _ hasked
        intro k hk
        rw [(hsent k hk).1]
        exact hclean
      rw [hkey] at hget hroute
      refine ⟨((stores s).valid _ _ hget).nonempty, hkey, ?_⟩
      intro item hitem
      rw [hroute, hget] at hitem
      cases hitem
      rfl
    constructor
    · intro item hitem
      have hne : key ≠ [] := ((stores (route key)).valid _ _ hitem).nonempty
      have hmem : replyBinding state.ptr.support_cas none ⟨key, item⟩ ∈ bindings := by
        apply (hbindings _).mpr
        refine ⟨route key, ⟨key, item⟩, ?_, rfl⟩
        rw [sentReplies, Store.mem_replies]
        refine ⟨?_, hitem⟩
        apply mem_keysAsked _ hclean hne
        · rw [mgetSent_ok hf, sentKeys, if_pos (textServers_alive _ _ _ _)]
          simp
        · intro k hk
          rw [List.mem_singleton.mp (mgetSent_subset _ _ hk)]
          exact hclean.oneLine
      apply override_of_agree dest_ref bindings key (some item.value) hmem
      intro w hw
      exact (hreply _ hw).2.2 item hitem
    · intro k hk
      apply override_of_not_mem
      intro hmem
      obtain ⟨b, hb, rfl⟩ := List.mem_map.mp hmem
      obtain ⟨hne, hkey, -⟩ := hreply b hb
      rcases hk with hk | hk
      · exact hk hkey
      · exact hne hk
  · apply absurd _ hlast
    rw [lastConnectSucceeds_iff hf]
    exact askedCode_open route (fun s => decide_eq_true (textServers_alive _ _ _ s))
      (fetchHost_ok hf)

/-- `get_multi` fills a hash of its own as `mget_into_hashref` does. -/
theorem get_multi_of_mget {net : Network n} {state state' : lmc_state_st n} {keys : List Bytes}
    {hv : HV} {rc : memcached_return_t}
    (h : xs_mget_into_hashref net state keys (fun _ => none) = .returned state' (hv, rc)) :
    ∃ state'', xs_get_multi net state keys = .returned state'' hv ∧ state''.ptr = state'.ptr := by
  unfold xs_mget_into_hashref at h
  unfold xs_get_multi
  dsimp only at h ⊢
  split at h
  · rename_i state₁ hv₁ rc₁ hfetch
    cases h
    exact ⟨state₁, rfl, rfl⟩
  · cases h

/-! ## The law -/

/-- An entry of the hash under the key, with this value. -/
def Finds (k : PerlString) (v : Bytes) (hv : HV) : Prop := hashLookup hv k = some (some v)

/-- Each fetch of the keys into a hash finds the value under the key, and sends
the host `s` this one request. -/
def FetchFinds (net : Network n) (state₁ : lmc_state_st n) (s : Fin n) (request : Bytes)
    (keys : List Bytes) (k : PerlString) (v : Bytes) : Prop :=
  ∀ dest_ref, ∃ state' hv rc,
    xs_mget_into_hashref net state₁ keys dest_ref = .returned state' (hv, rc) ∧ Finds k v hv ∧
      Hands state₁.ptr state'.ptr s [request]

/-- After `memcached_set($memc, $k, $v)` on text hosts, each way to fetch the
key finds the value under it, and all ask the same host for the same bytes. The
hosts hold what they were sent. -/
def FindsItsKey (stores : Fin n → Store) (cas : UInt64) (state : lmc_state_st n)
    (k : PerlString) (v : Bytes) : Prop :=
  ∃ state₁ rc pad, xs_memcached_set (textServers stores state.ptr.support_cas) state (some k.bytes)
      (some v) 0 0 = .returned state₁ (rc, pad) ∧
    let net := textServers (storesAfter stores cas state.ptr state₁.ptr) state.ptr.support_cas
    ∃ s request, FetchFinds net state₁ s request (inArray k).keys k v ∧
      FetchFinds net state₁ s request (inHash k).keys k v ∧
      ∃ state' hv, xs_get_multi net state₁ [SvPV (some k.bytes)] = .returned state' hv ∧
        Finds k v hv ∧ Hands state₁.ptr state'.ptr s [request]

/-- `memcached_set` without a callback leaves what `memcached_set` of
libmemcached leaves. -/
theorem xs_set_without_callback (net : Network n) (state : lmc_state_st n)
    (hcb : state.cb_context.set_cb = none) (key value : Bytes) {ptr' : memcached_st n}
    {rc : memcached_return_t} (h : memcached_set net state.ptr key value 0 0 = (ptr', rc)) :
    xs_memcached_set net state (some key) (some value) 0 0 =
      .returned (recordReturn { state with ptr := ptr' } rc)
        (rc, callerPad (some key) (some value) 0) := by
  unfold xs_memcached_set xs_store pre_call
  rw [hcb]
  simp only [callerPad, List.getD_cons_zero, List.getD_cons_succ, SvPV, Option.getD_some, flagsOfUV]
  rw [show (0 : UInt64).toUInt32 = 0 from rfl, h]

section

variable {stores : Fin n → Store} {cas : UInt64} {state : lmc_state_st n}
variable {q : State (Fin n) Reply} {k : PerlString} {v : Bytes}

/-- A key whose bytes are its characters, and that the handle accepts, is
found on every way. -/
theorem finds_plain_key (hn : 0 < n) (h : Synced state.ptr q) (hq : AllWhole q)
    (htext : state.ptr.protocol = .text) (hset : state.cb_context.set_cb = none)
    (hget : state.cb_context.get_cb = none) (hclean : CleanChars k)
    (hshort : k.bytes.length ≤ 250) (hv : v.length + 2 < 2 ^ 31) (hne : k.chars ≠ [])
    (hplain : Ascii k.chars ∨ (k.flag = false ∧ state.ptr.verify_key = false)) :
    FindsItsKey stores cas state k v := by
  have hvalid := validKey_bytes hclean hne hshort
  obtain ⟨hbytes, hhash, hlow⟩ := bytes_of_plain (hplain.imp id And.left)
  have htest : state.ptr.verify_key = true → memcached_key_test [k.bytes] = SUCCESS := by
    intro hverify
    rcases hplain with hascii | ⟨-, hoff⟩
    · exact key_test_of_ascii hclean hascii hvalid
    · rw [hoff] at hverify
      cases hverify
  obtain ⟨ptr', hstored, hsynced, hconfig, hhands⟩ :=
    memcached_set_stored stores h hq hn htext hvalid htest hv
  have hitem := storesAfter_get stores cas hvalid hv hhands
  refine ⟨_, _, _, xs_set_without_callback _ state hset k.bytes v hstored, ?_⟩
  -- the host of the key is the one that the fetch asks
  have hf : fetchHost ptr' none [k.bytes] = .ok (state.ptr.hostOf hn) := by
    unfold fetchHost
    rw [if_neg (by simp), dif_pos hn, hconfig.verify_key, if_neg]
    · unfold memcached_st.hostOf
      rw [hconfig.routing]
    · rintro ⟨hverify, hbad⟩
      rw [htest hverify] at hbad
      cases hbad
  have hfetch : FetchFinds (textServers (storesAfter stores cas state.ptr ptr')
      state.ptr.support_cas) (recordReturn { state with ptr := ptr' } SUCCESS)
      (state.ptr.hostOf hn k.bytes) (textRequest state.ptr.support_cas [k.bytes]) [k.bytes] k v := by
    intro dest_ref
    obtain ⟨state', hv, rc, hout, hfound, -⟩ :=
      mget_one_key (storesAfter stores cas state.ptr ptr')
        (recordReturn { state with ptr := ptr' } SUCCESS) hsynced (hconfig.protocol.trans htext)
        hget (clean_bytes hclean) hf dest_ref
    rw [show (recordReturn { state with ptr := ptr' } SUCCESS).ptr.support_cas =
      state.ptr.support_cas from hconfig.support_cas] at hout
    refine ⟨state', hv, rc, hout, ?_, ?_⟩
    · unfold Finds hashLookup
      rw [if_pos hlow, ← hbytes]
      exact hfound _ hitem
    · have hsent := mget_into_hashref_sent (textServers (storesAfter stores cas state.ptr ptr')
        state.ptr.support_cas) (recordReturn { state with ptr := ptr' } SUCCESS) [k.bytes] dest_ref
      rw [hout] at hsent
      obtain ⟨requests, hone, hup⟩ := mget_one_hands (textServers (storesAfter stores cas state.ptr
        ptr') state.ptr.support_cas) hsynced hf (by simp [hconfig.protocol, htext])
      have hrequest : oneKeyRequests ptr' k.bytes =
          [textRequest state.ptr.support_cas [k.bytes]] := by
        unfold oneKeyRequests
        rw [hconfig.protocol, htext, hconfig.support_cas]
      rw [← hrequest, ← hup ⟨rfl, textServers_takes _ _ _⟩]
      exact hone.frame (fun _ => rfl) hsent
  have hkeys : (inArray k).keys = [k.bytes] ∧ (inHash k).keys = [k.bytes] := by
    refine ⟨rfl, ?_⟩
    have hone : (inHash k).keys = [k.hashBytes] := rfl
    rw [hone, hhash, hbytes]
  obtain ⟨harray, hhashed⟩ := hkeys
  dsimp only
  rw [harray, hhashed]
  refine ⟨_, _, hfetch, hfetch, ?_⟩
  obtain ⟨state', hv, rc, hout, hfound, hsent⟩ := hfetch fun _ => none
  obtain ⟨state'', hmulti, hptr⟩ := get_multi_of_mget hout
  rw [← hptr] at hsent
  exact ⟨state'', hv, hmulti, hfound, hsent⟩

/-- A handle whose `get_multi` leaves no entry under the key does not find
it. -/
theorem not_finds_of_get_multi {state₁ : lmc_state_st n} {rc : memcached_return_t} {pad : Pad}
    (hset : xs_memcached_set (textServers stores state.ptr.support_cas) state (some k.bytes)
      (some v) 0 0 = .returned state₁ (rc, pad))
    {state' : lmc_state_st n} {hv : HV} {rc' : memcached_return_t}
    (hmget : xs_mget_into_hashref (textServers (storesAfter stores cas state.ptr state₁.ptr)
      state.ptr.support_cas) state₁ [k.bytes] (fun _ => none) = .returned state' (hv, rc'))
    (hnot : ¬ Finds k v hv) : ¬ FindsItsKey stores cas state k v := by
  rintro ⟨state₂, rc₂, pad₂, hset', s, request, -, -, state₃, hv₃, hmulti, hfound, -⟩
  rw [hset] at hset'
  cases hset'
  obtain ⟨state'', hmulti', -⟩ := get_multi_of_mget hmget
  rw [SvPV, Option.getD_some, hmulti'] at hmulti
  cases hmulti
  exact hnot hfound

theorem not_finds_empty {k : PerlString} {v : Bytes} : ¬ Finds k v fun _ => none := by
  unfold Finds hashLookup
  split_ifs <;> simp

/-- A key that `memcached_set` turns down before it sends anything is not
found, unless the fetch of it leaves an entry. -/
theorem memcached_set_refused (net : Network n) (htext : state.ptr.protocol = .text)
    (hn : 0 < n) {key : Bytes} (value : Bytes)
    (hbad : key = [] ∨ (state.ptr.verify_key = true ∧
      memcached_key_test [key] = BAD_KEY_PROVIDED)) :
    ∃ rc, memcached_set net state.ptr key value 0 0 = (state.ptr, rc) := by
  unfold memcached_set memcached_send
  rw [htext]
  simp only [reduceCtorEq, decide_false, hn, dif_pos]
  rcases hbad with rfl | hbad
  · exact ⟨BAD_KEY_PROVIDED, rfl⟩
  · by_cases hlength : memcached_validate_key_length key.length false = SUCCESS
    · simp only [hlength, ne_eq, not_true, if_false, hbad, and_self, if_true]
      exact ⟨_, rfl⟩
    · simp only [hlength, ne_eq, not_false_eq_true, if_true]
      exact ⟨_, rfl⟩

/-- Any other key is lost on the way of `get_multi`. -/
theorem not_finds_other_key (hn : 0 < n) (h : Synced state.ptr q) (hq : AllWhole q)
    (htext : state.ptr.protocol = .text) (hset : state.cb_context.set_cb = none)
    (hget : state.cb_context.get_cb = none) (hclean : CleanChars k)
    (hshort : k.bytes.length ≤ 250) (hv : v.length + 2 < 2 ^ 31)
    (hother : k.chars = [] ∨ (¬ Ascii k.chars ∧
      (k.flag = true ∨ state.ptr.verify_key = true))) :
    ¬ FindsItsKey stores cas state k v := by
  -- the fetch, from whatever state the set leaves
  have hmulti : ∀ ptr' q', Synced ptr' q' → SameConfig state.ptr ptr' → ∀ rc,
      ∃ state' hv rc', xs_mget_into_hashref
        (textServers (storesAfter stores cas state.ptr ptr') state.ptr.support_cas)
        (recordReturn { state with ptr := ptr' } rc) [k.bytes] (fun _ => none) =
          .returned state' (hv, rc') ∧ ¬ Finds k v hv := by
    intro ptr' q' hsynced hconfig rc
    rcases hf : fetchHost ptr' none [k.bytes] with rc' | route
    · obtain ⟨state', rc'', hout⟩ := mget_one_refused
        (textServers (storesAfter stores cas state.ptr ptr') state.ptr.support_cas)
        (recordReturn { state with ptr := ptr' } rc) hf fun _ => none
      exact ⟨state', _, rc'', hout, not_finds_empty⟩
    · obtain ⟨state', hv, rc', hout, -, helse⟩ :=
        mget_one_key (storesAfter stores cas state.ptr ptr')
          (recordReturn { state with ptr := ptr' } rc) hsynced (hconfig.protocol.trans htext)
          hget (clean_bytes hclean) hf fun _ => none
      rw [show (recordReturn { state with ptr := ptr' } rc).ptr.support_cas =
        state.ptr.support_cas from hconfig.support_cas] at hout
      refine ⟨state', hv, rc', hout, ?_⟩
      have hkey : toLatin1 k.chars ≠ k.bytes ∨ k.bytes = [] := by
        rcases hother with hnil | ⟨hascii, hflag | hverify⟩
        · exact Or.inr (bytes_eq_nil hnil)
        · exact Or.inl (toLatin1_ne_bytes hascii hflag)
        · -- a handle that verifies its keys has refused this one
          exfalso
          unfold fetchHost at hf
          rw [if_neg (by simp), dif_pos hn, hconfig.verify_key,
            if_pos ⟨hverify, key_test_of_not_ascii hascii⟩] at hf
          cases hf
      unfold Finds hashLookup
      split_ifs
      · rw [helse _ hkey]
        simp
      · simp
  by_cases hsent : k.chars ≠ [] ∧ state.ptr.verify_key = false
  · obtain ⟨hne, hverify⟩ := hsent
    obtain ⟨ptr', hstored, hsynced, hconfig, -⟩ := memcached_set_stored stores h hq hn htext
      (validKey_bytes hclean hne hshort) (by rw [hverify]; simp) hv
    obtain ⟨state', hv, rc', hout, hnot⟩ := hmulti ptr' _ hsynced hconfig SUCCESS
    exact not_finds_of_get_multi (xs_set_without_callback _ state hset k.bytes v hstored) hout hnot
  · have hbad : k.bytes = [] ∨ (state.ptr.verify_key = true ∧
        memcached_key_test [k.bytes] = BAD_KEY_PROVIDED) := by
      rcases hother with hnil | ⟨hascii, -⟩
      · exact Or.inl (bytes_eq_nil hnil)
      · by_cases hnil : k.chars = []
        · exact Or.inl (bytes_eq_nil hnil)
        · refine Or.inr ⟨?_, key_test_of_not_ascii hascii⟩
          simpa [hnil] using hsent
    obtain ⟨rc, hrefused⟩ := memcached_set_refused (textServers stores state.ptr.support_cas)
      htext hn v hbad
    obtain ⟨state', hv, rc', hout, hnot⟩ := hmulti state.ptr q h (.refl _) rc
    exact not_finds_of_get_multi (xs_set_without_callback _ state hset k.bytes v hrefused) hout
      hnot

end

/-- Every way to fetch a clean key finds what was set under it exactly when the
key is not empty and its internal bytes are its characters: it is ASCII, or
its UTF8 flag is off and the handle does not verify its keys. -/
theorem a_key_is_found_iff_its_bytes_are_its_characters (hn : 0 < n) (stores : Fin n → Store)
    (cas : UInt64) (state : lmc_state_st n) {q : State (Fin n) Reply} (h : Synced state.ptr q)
    (hq : AllWhole q) (htext : state.ptr.protocol = .text)
    (hset : state.cb_context.set_cb = none) (hget : state.cb_context.get_cb = none)
    (k : PerlString) (hclean : CleanChars k) (hshort : k.bytes.length ≤ 250) (v : Bytes)
    (hv : v.length + 2 < 2 ^ 31) :
    FindsItsKey stores cas state k v ↔
      k.chars ≠ [] ∧ (Ascii k.chars ∨ (k.flag = false ∧ state.ptr.verify_key = false)) := by
  constructor
  · intro hfinds
    by_contra hother
    refine not_finds_other_key hn h hq htext hset hget hclean hshort hv ?_ hfinds
    by_cases hnil : k.chars = []
    · exact Or.inl hnil
    · simp only [ne_eq, hnil, not_false_eq_true, true_and, not_or, not_and,
        Bool.not_eq_false] at hother
      obtain ⟨hascii, hflag⟩ := hother
      refine Or.inr ⟨hascii, ?_⟩
      cases hf : k.flag with
      | true => exact Or.inl rfl
      | false => exact Or.inr (hflag hf)
  · rintro ⟨hne, hplain⟩
    exact finds_plain_key hn h hq htext hset hget hclean hshort hv hne hplain

/-- The character U+00E9 in one byte. -/
def latinKey : PerlString := ⟨[233], false, by simp⟩

/-- The same character with the UTF8 flag on. -/
def flaggedKey : PerlString := ⟨[233], true, by simp⟩

/-- The theorem at a Latin-1 key of one byte. -/
theorem a_latin_key_is_found :
    FindsItsKey pairStores 7 pairState latinKey (ascii ['v']) :=
  (a_key_is_found_iff_its_bytes_are_its_characters (by decide) pairStores 7 pairState
    (synced_create pairRouting .text) (by simp [AllWhole]) rfl rfl rfl latinKey
    (by simp [CleanChars, latinKey]) (by decide) (ascii ['v']) (by decide)).mpr
    ⟨by simp [latinKey], Or.inr ⟨rfl, rfl⟩⟩

/-- The same character with the UTF8 flag on is not found. -/
theorem a_flagged_key_is_not_found :
    ¬ FindsItsKey pairStores 7 pairState flaggedKey (ascii ['v']) :=
  not_finds_other_key (by decide) (synced_create pairRouting .text) (by simp [AllWhole]) rfl rfl
    rfl (by simp [CleanChars, flaggedKey]) (by decide) (by decide)
    (Or.inr ⟨by simp [Ascii, flaggedKey], Or.inl rfl⟩)

end Libmemcached
