-- The order of the keys of a multi-key fetch. It decides which connect is the
-- last one, whose code is the code of the request.
import Libmemcached.Hosts
import Libmemcached.WholeFetch

open Chunks Override Queues

namespace Libmemcached

open memcached_return_t memcached_server_st

variable {n : Nat}

/-- No two hosts reply with different items under the same key. -/
def NoClash (net : Network n) (stores : Fin n → Store) (ptr : memcached_st n)
    (keys : List Bytes) : Prop :=
  ∀ s t r r', r ∈ sentReplies net stores ptr keys s → r' ∈ sentReplies net stores ptr keys t →
    r.key = r'.key → r = r'

/-- Two fetches leave the same hash and return the same truth value. -/
def SameOutcome (a b : XS n (HV × memcached_return_t)) : Prop :=
  ∃ state state' hv rc rc', a = .returned state (hv, rc) ∧ b = .returned state' (hv, rc') ∧
    (returnSV rc = .yes ↔ returnSV rc' = .yes)

/-! ## The parts of the request -/

theorem fetchHost_perm (ptr : memcached_st n) {keys keys' : List Bytes} (h : keys.Perm keys') :
    fetchHost ptr none keys = fetchHost ptr none keys' := by
  have htest : memcached_key_test keys = memcached_key_test keys' := by
    rw [memcached_key_test, memcached_key_test, h.all_eq]
  rw [fetchHost, fetchHost, h.length_eq, htest]

theorem mem_sentKeys {net : Network n} {ptr : memcached_st n} {route : Bytes → Fin n}
    {keys : List Bytes} {s : Fin n} {k : Bytes} (h : k ∈ sentKeys net ptr route keys s) :
    k ∈ keys ∧ route k = s := by
  have hmem : k ∈ keys.filter (route · = s) := by
    rw [sentKeys] at h
    split_ifs at h
    · exact h
    · exact List.mem_of_mem_tail h
    · cases h
  exact ⟨(List.mem_filter.mp hmem).1, by simpa using (List.mem_filter.mp hmem).2⟩

theorem mgetSent_subset (net : Network n) (ptr : memcached_st n) {keys : List Bytes} {s : Fin n}
    {k : Bytes} (h : k ∈ mgetSent net ptr keys s) : k ∈ keys := by
  rcases hf : fetchHost ptr none keys with rc | route
  · rw [mgetSent_error hf] at h
    cases h
  · rw [mgetSent_ok hf] at h
    exact (mem_sentKeys h).1

theorem mgetSent_route (net : Network n) (ptr : memcached_st n) {keys : List Bytes} {s t : Fin n}
    {k : Bytes} (hs : k ∈ mgetSent net ptr keys s) (ht : k ∈ mgetSent net ptr keys t) : s = t := by
  rcases hf : fetchHost ptr none keys with rc | route
  · rw [mgetSent_error hf] at hs
    cases hs
  · rw [mgetSent_ok hf] at hs ht
    exact (mem_sentKeys hs).2.symm.trans (mem_sentKeys ht).2

/-- Another order of the keys sends as many of them to each host. -/
theorem mgetSent_length (net : Network n) (ptr : memcached_st n) {keys keys' : List Bytes}
    (h : keys.Perm keys') (s : Fin n) :
    (mgetSent net ptr keys s).length = (mgetSent net ptr keys' s).length := by
  rcases hf : fetchHost ptr none keys with rc | route
  · rw [mgetSent_error hf, mgetSent_error ((fetchHost_perm ptr h).symm.trans hf)]
  · have hlength := (h.filter fun k => decide (route k = s)).length_eq
    rw [mgetSent_ok hf, mgetSent_ok ((fetchHost_perm ptr h).symm.trans hf), sentKeys, sentKeys]
    split_ifs
    · exact hlength
    · rw [List.length_tail, List.length_tail, hlength]
    · rfl

/-! ## Sockets without a connection -/

/-- What the sockets are when only connects fail: a host takes every write, or
has no connection behind its socket, as one whose connect failed and left the
socket open. -/
structure Connections (net : Network n) (ptr : memcached_st n) : Prop where
  each : ∀ s, TakesAll net s ∨ Unconnected net s
  left : ∀ s, ¬ Alive net ptr s → net.leaves_open s = true → Unconnected net s

theorem Connections.of_takes {net : Network n} {ptr : memcached_st n} (ht : Takes net)
    (hleft : ∀ s, net.leaves_open s = false) : Connections net ptr :=
  ⟨fun s => Or.inl (ht s), fun s _ hopen => by rw [hleft s] at hopen; cases hopen⟩

theorem Connections.keys {net : Network n} {ptr : memcached_st n} (h : Connections net ptr)
    (s : Fin n) : TakesKeys net s .text := by
  rcases h.each s with htakes | hun
  · exact htakes.keys .text
  · exact hun.keys

/-- The request goes to a host that has no connection behind its socket. -/
def AsksUnconnected (net : Network n) (ptr : memcached_st n) (keys : List Bytes) : Prop :=
  ∃ s, mgetSent net ptr keys s ≠ [] ∧ Unconnected net s

theorem asksUnconnected_perm {net : Network n} {ptr : memcached_st n} {keys keys' : List Bytes}
    (h : keys.Perm keys') (hun : AsksUnconnected net ptr keys) : AsksUnconnected net ptr keys' := by
  obtain ⟨s, hne, hs⟩ := hun
  refine ⟨s, ?_, hs⟩
  rw [← List.length_pos_iff] at hne ⊢
  rwa [← mgetSent_length net ptr h s]

/-- Without such a host, another order of the keys sends the same ones to each
host. -/
theorem mgetSent_perm {net : Network n} {ptr : memcached_st n}
    (hconn : Connections net (drainAll ptr)) {keys keys' : List Bytes} (h : keys.Perm keys')
    (hun : ¬ AsksUnconnected net ptr keys) (s : Fin n) :
    (mgetSent net ptr keys s).Perm (mgetSent net ptr keys' s) := by
  have hlength := mgetSent_length net ptr h s
  rcases hf : fetchHost ptr none keys with rc | route
  · rw [mgetSent_error hf, mgetSent_error ((fetchHost_perm ptr h).symm.trans hf)]
  · by_cases hs : Alive net (drainAll ptr) s
    · rw [mgetSent_ok hf, mgetSent_ok ((fetchHost_perm ptr h).symm.trans hf), sentKeys, sentKeys,
        if_pos hs, if_pos hs]
      exact h.filter _
    · -- a host that cannot be reached is sent nothing
      have hnil : mgetSent net ptr keys s = [] := by
        by_contra hne
        by_cases hopen : net.leaves_open s = true
        · exact hun ⟨s, hne, hconn.left s hs hopen⟩
        · rw [mgetSent_ok hf, sentKeys, if_neg hs, if_neg hopen] at hne
          exact hne rfl
      rw [hnil, List.length_nil] at hlength
      rw [hnil, List.eq_nil_of_length_eq_zero hlength.symm]

theorem mem_keysAsked_perm {withCas : Bool} {p : Protocol} {keys keys' : List Bytes}
    (h : keys.Perm keys') (hkeys : ∀ k ∈ keys, OneLine k) (word : Bytes) :
    word ∈ keysAsked withCas p keys ↔ word ∈ keysAsked withCas p keys' := by
  cases p with
  | binary => exact h.mem_iff
  | text =>
    have hkeys' : ∀ k ∈ keys', OneLine k := fun k hk => hkeys k (h.mem_iff.mpr hk)
    rw [keysAsked, keysAsked, requestKeys_textRequest _ _ hkeys, requestKeys_textRequest _ _ hkeys',
      words_keys, words_keys]
    exact (h.flatMap_right _).mem_iff

theorem mem_sentReplies_perm {net : Network n} (stores : Fin n → Store) {ptr : memcached_st n}
    (hconn : Connections net (drainAll ptr)) {keys keys' : List Bytes} (h : keys.Perm keys')
    (hun : ¬ AsksUnconnected net ptr keys) (hkeys : ∀ k ∈ keys, OneLine k) (s : Fin n) (r : Reply) :
    r ∈ sentReplies net stores ptr keys s ↔ r ∈ sentReplies net stores ptr keys' s := by
  have hsent : ∀ k ∈ mgetSent net ptr keys s, OneLine k :=
    fun k hk => hkeys k (mgetSent_subset net ptr hk)
  rw [sentReplies, sentReplies, Store.mem_replies, Store.mem_replies,
    mem_keysAsked_perm (mgetSent_perm hconn h hun s) hsent]

/-- Keys without white space go to one host each, so no replies clash. -/
theorem noClash_of_clean (net : Network n) (stores : Fin n → Store) (ptr : memcached_st n)
    {keys : List Bytes} (hclean : ∀ k ∈ keys, Clean k) : NoClash net stores ptr keys := by
  -- the words of such keys are the keys
  have hword : ∀ s word, word ∈ keysAsked ptr.support_cas ptr.protocol (mgetSent net ptr keys s) →
      word ∈ mgetSent net ptr keys s := by
    intro s word hword
    apply of_mem_keysAsked _ hword
    intro k hk
    exact hclean k (mgetSent_subset net ptr hk)
  rintro s t ⟨k, i⟩ ⟨k', i'⟩ hr hr' hkey
  simp only at hkey
  subst hkey
  rw [sentReplies, Store.mem_replies] at hr hr'
  obtain rfl := mgetSent_route net ptr (hword s _ hr.1) (hword t _ hr'.1)
  have hitem : i = i' := Option.some.inj (hr.2.symm.trans hr'.2)
  rw [hitem]

/-! ## One fetch -/

/-- What a fetch of some keys returns and leaves in the hash when nothing but
connects fail: all replies, or nothing at all. -/
def LeavesReplies (net : Network n) (stores : Fin n → Store) (ptr : memcached_st n)
    (get_cb : Option Transform) (keys : List Bytes) (dest_ref hv : HV)
    (rc : memcached_return_t) : Prop :=
  (LastConnectSucceeds net ptr keys ∧ returnSV rc = .yes ∧
    ∃ bindings, hv = override dest_ref bindings ∧
      ∀ b, b ∈ bindings ↔
        ∃ s, ∃ r ∈ sentReplies net stores ptr keys s, b = replyBinding ptr.support_cas get_cb r) ∨
  (¬ LastConnectSucceeds net ptr keys ∧ returnSV rc ≠ .yes ∧ hv = dest_ref)

theorem LeavesReplies.yes_iff {net : Network n} {stores : Fin n → Store} {ptr : memcached_st n}
    {get_cb : Option Transform} {keys : List Bytes} {dest_ref hv : HV} {rc : memcached_return_t}
    (h : LeavesReplies net stores ptr get_cb keys dest_ref hv rc) :
    returnSV rc = .yes ↔ LastConnectSucceeds net ptr keys := by
  rcases h with ⟨hlast, hyes, -⟩ | ⟨hlast, hno, -⟩
  · exact ⟨fun _ => hlast, fun _ => hyes⟩
  · exact ⟨fun hyes => absurd hyes hno, fun h => absurd h hlast⟩

/-- Two fetches of the same keys that both read all replies leave the same
hash, unless replies clash, and so do two that read none. -/
theorem LeavesReplies.hash_eq {net : Network n} {stores : Fin n → Store} {ptr : memcached_st n}
    (hconn : Connections net (drainAll ptr)) {get_cb : Option Transform} {keys keys' : List Bytes}
    {dest_ref hv hv' : HV} {rc rc' : memcached_return_t} (hperm : keys.Perm keys')
    (hun : ¬ AsksUnconnected net ptr keys) (hline : ∀ k ∈ keys, OneLine k)
    (h : LeavesReplies net stores ptr get_cb keys dest_ref hv rc)
    (h' : LeavesReplies net stores ptr get_cb keys' dest_ref hv' rc')
    (halike : LastConnectSucceeds net ptr keys ↔ LastConnectSucceeds net ptr keys')
    (hclash : LastConnectSucceeds net ptr keys → NoClash net stores ptr keys) : hv = hv' := by
  rcases h with ⟨hlast, -, bs, rfl, hbs⟩ | ⟨hlast, -, rfl⟩
  · rcases h' with ⟨-, -, cs, rfl, hcs⟩ | ⟨hlast', -⟩
    · refine override_congr dest_ref bs cs ?_ ?_
      · intro b
        rw [hbs, hcs]
        simp only [mem_sentReplies_perm stores hconn hperm hun hline]
      · intro k v w hv hw
        obtain ⟨s, r, hr, hb⟩ := (hbs _).mp hv
        obtain ⟨t, r', hr', hb'⟩ := (hbs _).mp hw
        simp only [replyBinding, Prod.mk.injEq] at hb hb'
        have hsame := hclash hlast s t r r' hr hr' (hb.1.symm.trans hb'.1)
        rw [hb.2, hb'.2, hsame]
    · exact absurd (halike.mp hlast) hlast'
  · rcases h' with ⟨hlast', -⟩ | ⟨-, -, rfl⟩
    · exact absurd (halike.mpr hlast') hlast
    · rfl

theorem mget_leaves_replies {net : Network n} (hprompt : Prompt net)
    {stores : Fin n → Store} (state : lmc_state_st n) {q : State (Fin n) Reply}
    (h : Synced state.ptr q) (htext : state.ptr.protocol = .text)
    (hserves : Serves net stores state.ptr.support_cas .text
      (wholeAnswer stores state.ptr.support_cas .text))
    (hkeys : ∀ s, TakesKeys net s .text) {get_cb : Option Transform}
    (hcb : state.cb_context.get_cb = get_cb.map Transform.coderef)
    {keys : List Bytes} (htakes : ∀ s, mgetSent net state.ptr keys s ≠ [] → TakesAll net s)
    (hline : ∀ k ∈ keys, OneLine k) {route : Bytes → Fin n}
    (hf : fetchHost state.ptr none keys = .ok route) (dest_ref : HV) :
    ∃ state' hv rc, xs_mget_into_hashref net state keys dest_ref = .returned state' (hv, rc) ∧
      LeavesReplies net stores state.ptr get_cb keys dest_ref hv rc := by
  rw [← htext] at hserves
  rcases mget_by_key_requested h hserves none keys hline (fun hb => by rw [htext] at hb; cases hb)
    with ⟨rc, hf', -⟩ | ⟨route', hf', asked, hreq⟩
  · rw [hf] at hf'
    cases hf'
  obtain rfl : route = route' := by rw [hf] at hf'; exact Except.ok.inj hf'
  rw [mgetSent_ok hf] at htakes
  rw [← htext] at hkeys
  obtain ⟨hasked, hcode⟩ := hreq.exact hkeys htakes
  have hsent : mgetSent net state.ptr keys = asked := (mgetSent_ok hf).trans hasked.symm
  have hok : LMC_RETURN_OK (memcached_mget_by_key net state.ptr none keys).2 = true ↔
      LastConnectSucceeds net state.ptr keys := by
    rw [hcode]
    exact askedCode_ok_iff hf
  rw [← memcached_mget] at hreq hcode hok
  simp only [xs_mget_into_hashref]
  generalize memcached_mget net state.ptr keys = out at hreq hcode hok ⊢
  obtain ⟨ptr₁, rc₁⟩ := out
  dsimp only at hreq hcode hok ⊢
  by_cases hlast : LastConnectSucceeds net state.ptr keys
  · -- all hosts that were asked are read
    obtain ⟨s, hs⟩ := exists_sent hf hlast
    have howed : owedFor (wholeAnswer stores state.ptr.support_cas state.ptr.protocol) asked s ≠
        none := by
      rw [hsent] at hs
      rw [owedFor, if_neg hs]
      simp
    have hwhole : AllWhole (owedFor (wholeAnswer stores state.ptr.support_cas state.ptr.protocol)
        asked) := by
      intro s qs hqs
      rw [owedFor] at hqs
      split_ifs at hqs
      rw [← Option.some.inj hqs]
      rfl
    obtain ⟨es, state', rc', hout, hyes, hsteps, -, -⟩ := fetch_all_whole hprompt
      { state with ptr := ptr₁ } hreq.synced hwhole howed rc₁ (hok.mpr hlast) dest_ref
      get_cb hcb
    rw [hout]
    refine ⟨_, _, _, rfl, Or.inl ⟨hlast, hyes, _, rfl, ?_⟩⟩
    intro b
    simp only [results, hreq.config.protocol, hreq.config.support_cas, htext, bindingsOf_text]
    simp only [List.map_map, List.mem_map, Function.comp_apply, Prod.exists,
      hsteps.delivered_all fun _ => rfl]
    simp only [← hsent, ← owed_wholeAnswer]
    constructor
    · rintro ⟨s, r, hr, rfl⟩
      exact ⟨s, r, hr, rfl⟩
    · rintro ⟨s, r, hr, rfl⟩
      exact ⟨s, r, hr, rfl⟩
  · obtain ⟨state', hout, -⟩ := fetch_all_failed net { state with ptr := ptr₁ }
      (by simpa using mt hok.mp hlast) dest_ref
    rw [hout]
    refine ⟨_, _, _, rfl, Or.inr ⟨hlast, ?_, rfl⟩⟩
    rcases askedCode_cases net route (opensOf net (drainAll state.ptr)) (fetchHost_ok hf) with
      hsucceeds | hfail
    · exact absurd ((lastConnectSucceeds_iff hf).mpr hsucceeds) hlast
    · rw [hcode]
      exact connectFailure_not_yes hfail

/-- A request that goes to a host without a connection fails, and the fetch
stores nothing. -/
theorem mget_asks_unconnected {net : Network n} {stores : Fin n → Store} (state : lmc_state_st n)
    {q : State (Fin n) Reply} (h : Synced state.ptr q) (htext : state.ptr.protocol = .text)
    (hserves : Serves net stores state.ptr.support_cas .text
      (wholeAnswer stores state.ptr.support_cas .text))
    (hkeys : ∀ s, TakesKeys net s .text) {keys : List Bytes}
    (hun : AsksUnconnected net state.ptr keys) (hline : ∀ k ∈ keys, OneLine k)
    {route : Bytes → Fin n} (hf : fetchHost state.ptr none keys = .ok route) (dest_ref : HV) :
    ∃ state', xs_mget_into_hashref net state keys dest_ref =
      .returned state' (dest_ref, SOME_ERRORS) := by
  rw [← htext] at hserves hkeys
  rcases mget_by_key_requested h hserves none keys hline (fun hb => by rw [htext] at hb; cases hb)
    with ⟨rc, hf', -⟩ | ⟨route', hf', asked, hreq⟩
  · rw [hf] at hf'
    cases hf'
  obtain rfl : route = route' := by rw [hf] at hf'; exact Except.ok.inj hf'
  rw [AsksUnconnected, mgetSent_ok hf] at hun
  have hcode := hreq.refused hkeys htext hun
  rw [← memcached_mget] at hcode
  simp only [xs_mget_into_hashref]
  generalize memcached_mget net state.ptr keys = out at hcode ⊢
  obtain ⟨ptr₁, rc₁⟩ := out
  dsimp only at hcode ⊢
  subst hcode
  have hnot : LMC_RETURN_OK SOME_ERRORS = false := rfl
  obtain ⟨state', hout, -⟩ := fetch_all_failed net { state with ptr := ptr₁ } hnot dest_ref
  rw [hout]
  exact ⟨_, rfl⟩

/-! ## Two fetches -/

/-- The two hosts, when the second one refuses the connect. -/
def secondDown : Network 2 := textHosts pairStores false fun s => s.val == 0

end Libmemcached
