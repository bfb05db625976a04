-- A fetch on a network where nothing breaks: every answer is whole and every
-- poll finds a host. All replies are delivered, and the code is a success.
import Libmemcached.HashFetch
import Libmemcached.Requests

open Chunks Override Queues

namespace Libmemcached

open memcached_return_t memcached_server_st

variable {n : Nat}

/-- The code that the fetch of a hash returns for the code of the fetch. -/
def hashCode (rc : memcached_return_t) : memcached_return_t :=
  if rc = NOTFOUND ∨ rc = SUCCESS then SUCCESS else rc

theorem hashCode_codeAfter {es : List (Event (Fin n) Reply)} (hes : es ≠ []) :
    returnSV (hashCode (codeAfter FAILURE es)) = .yes := by
  rcases codeAfter_of_ne_nil FAILURE hes with h | h <;> rw [h] <;> decide

theorem connectFailure_not_yes {rc : memcached_return_t} (h : isConnectFailure rc = true) :
    returnSV (if rc = NOTFOUND then SUCCESS else rc) ≠ .yes := by
  revert h
  cases rc <;> decide

/-! ## What is sent -/

/-- The keys of a multi-key get that each host is sent. -/
def mgetSent (net : Network n) (ptr : memcached_st n) (keys : List Bytes) : Fin n → List Bytes :=
  match fetchHost ptr none keys with
  | .error _ => fun _ => []
  | .ok route => sentKeys net ptr route keys

theorem mgetSent_error {net : Network n} {ptr : memcached_st n} {keys : List Bytes}
    {rc : memcached_return_t} (h : fetchHost ptr none keys = .error rc) (s : Fin n) :
    mgetSent net ptr keys s = [] := by
  rw [mgetSent, h]

theorem mgetSent_ok {net : Network n} {ptr : memcached_st n} {keys : List Bytes}
    {route : Bytes → Fin n} (h : fetchHost ptr none keys = .ok route) :
    mgetSent net ptr keys = sentKeys net ptr route keys := by
  rw [mgetSent, h]

/-- The codes of the connects of a request for `keys`, in order. -/
def connects (net : Network n) (ptr : memcached_st n) (keys : List Bytes) :
    List memcached_return_t :=
  match fetchHost ptr none keys with
  | .error _ => []
  | .ok route => connectCodes net route (opensOf net (drainAll ptr)) [] keys

/-- The last connect of the request succeeds. -/
def LastConnectSucceeds (net : Network n) (ptr : memcached_st n) (keys : List Bytes) : Prop :=
  ∀ rc ∈ (connects net ptr keys).getLast?, rc = SUCCESS

/-- The replies of a host to its part of the request. -/
def sentReplies (net : Network n) (stores : Fin n → Store) (ptr : memcached_st n)
    (keys : List Bytes) (s : Fin n) : List Reply :=
  (stores s).replies (keysAsked ptr.support_cas ptr.protocol (mgetSent net ptr keys s))

theorem connects_ok {net : Network n} {ptr : memcached_st n} {keys : List Bytes}
    {route : Bytes → Fin n} (hf : fetchHost ptr none keys = .ok route) :
    connects net ptr keys = connectCodes net route (opensOf net (drainAll ptr)) [] keys := by
  rw [connects, hf]

theorem lastConnectSucceeds_iff {net : Network n} {ptr : memcached_st n} {keys : List Bytes}
    {route : Bytes → Fin n} (hf : fetchHost ptr none keys = .ok route) :
    LastConnectSucceeds net ptr keys ↔
      askedCode net route (opensOf net (drainAll ptr)) keys = SUCCESS := by
  have hne := connectCodes_ne_nil net route (opensOf net (drainAll ptr)) (fetchHost_ok hf)
  rw [LastConnectSucceeds, connects_ok hf, askedCode, List.getLast?_eq_some_getLast hne]
  simp only [Option.mem_some_iff, forall_eq', Option.getD_some]

/-- The code of the connects is a success exactly when the last of them is. -/
theorem askedCode_ok_iff {net : Network n} {ptr : memcached_st n} {keys : List Bytes}
    {route : Bytes → Fin n} (hf : fetchHost ptr none keys = .ok route) :
    LMC_RETURN_OK (askedCode net route (opensOf net (drainAll ptr)) keys) = true ↔
      LastConnectSucceeds net ptr keys := by
  rw [lastConnectSucceeds_iff hf]
  rcases askedCode_cases net route (opensOf net (drainAll ptr)) (fetchHost_ok hf) with hc | hc
  · rw [hc]
    decide
  · revert hc
    cases askedCode net route (opensOf net (drainAll ptr)) keys <;> decide

/-- The code of the request is a success exactly when its last connect is. -/
theorem request_ok_iff {net : Network n} (ht : Takes net)
    {answers : Fin n → List Bytes → Queue Reply} {route : Bytes → Fin n} {keys : List Bytes}
    {ptr ptr' : memcached_st n} {rc : memcached_return_t} {asked : Fin n → List Bytes}
    (hf : fetchHost ptr none keys = .ok route)
    (h : Requested net answers route keys ptr ptr' rc asked) :
    LMC_RETURN_OK rc = true ↔ LastConnectSucceeds net ptr keys := by
  rw [h.code_eq ht, askedCode_ok_iff hf]

/-- A request that succeeds was sent to some host. -/
theorem exists_sent {net : Network n} {ptr : memcached_st n} {keys : List Bytes}
    {route : Bytes → Fin n} (hf : fetchHost ptr none keys = .ok route)
    (h : LastConnectSucceeds net ptr keys) : ∃ s, mgetSent net ptr keys s ≠ [] := by
  rw [mgetSent_ok hf]
  exact exists_sentKeys ((lastConnectSucceeds_iff hf).mp h)

theorem keysAsked_nil (withCas : Bool) (p : Protocol) : keysAsked withCas p [] = [] := by
  cases p with
  | binary => rfl
  | text => rw [keysAsked, requestKeys_textRequest _ _ (by simp), words_keys]; rfl

/-- What a host owes after the request. -/
theorem owed_wholeAnswer {net : Network n} (stores : Fin n → Store) (ptr : memcached_st n)
    (keys : List Bytes) (s : Fin n) :
    owed (owedFor (wholeAnswer stores ptr.support_cas ptr.protocol) (mgetSent net ptr keys)) s =
      sentReplies net stores ptr keys s := by
  rw [owed, owedFor, sentReplies]
  split_ifs with hnil
  · rw [hnil, keysAsked_nil]
    rfl
  · rfl

theorem mget_error {net : Network n} {ptr : memcached_st n} {keys : List Bytes}
    {rc : memcached_return_t} (hf : fetchHost ptr none keys = .error rc) :
    memcached_mget net ptr keys = (ptr, rc) := by
  rw [memcached_mget, memcached_mget_by_key, hf]

/-- All answers that the hosts owe are whole. -/
def AllWhole (q : State (Fin n) Reply) : Prop := ∀ s qs, q s = some qs → qs.whole = true

/-- What the hosts owe after a request for `keys`. A request that is refused
leaves what they owed before. -/
def owedAfter (net : Network n) (stores : Fin n → Store) (ptr : memcached_st n)
    (q : State (Fin n) Reply) (keys : List Bytes) : State (Fin n) Reply :=
  match fetchHost ptr none keys with
  | .error _ => q
  | .ok _ => owedFor (wholeAnswer stores ptr.support_cas ptr.protocol) (mgetSent net ptr keys)

/-- The request is not refused, and its last connect succeeds. -/
def RequestSucceeds (net : Network n) (ptr : memcached_st n) (keys : List Bytes) : Prop :=
  (∃ route, fetchHost ptr none keys = .ok route) ∧ LastConnectSucceeds net ptr keys

theorem allWhole_owedAfter (net : Network n) (stores : Fin n → Store) (ptr : memcached_st n)
    {q : State (Fin n) Reply} (hq : AllWhole q) (keys : List Bytes) :
    AllWhole (owedAfter net stores ptr q keys) := by
  unfold owedAfter
  split
  · exact hq
  · intro s qs hqs
    unfold owedFor at hqs
    split_ifs at hqs
    cases hqs
    rfl

/-- The spec of `memcached_mget` with hosts that answer completely. -/
structure Owing (net : Network n) (stores : Fin n → Store) (ptr : memcached_st n)
    (q : State (Fin n) Reply) (keys : List Bytes) (ptr' : memcached_st n)
    (rc : memcached_return_t) : Prop where
  synced : Synced ptr' (owedAfter net stores ptr q keys)
  config : SameConfig ptr ptr'
  ok_iff : LMC_RETURN_OK rc = true ↔ RequestSucceeds net ptr keys

theorem mget_owing {net : Network n} (ht : Takes net) {stores : Fin n → Store}
    {ptr : memcached_st n} {q : State (Fin n) Reply} (h : Synced ptr q)
    (hserves : Serves net stores ptr.support_cas ptr.protocol
      (wholeAnswer stores ptr.support_cas ptr.protocol))
    {keys : List Bytes} (hline : ∀ k ∈ keys, OneLine k)
    (hlength : ptr.protocol = .binary →
      ∀ k ∈ keys, memcached_validate_key_length k.length true = SUCCESS) :
    Owing net stores ptr q keys (memcached_mget net ptr keys).1 (memcached_mget net ptr keys).2 := by
  rcases mget_by_key_requested h hserves none keys hline hlength with
    ⟨rc, hf, hmget⟩ | ⟨route, hf, asked, hreq⟩
  · rw [memcached_mget, hmget]
    refine ⟨?_, .refl ptr, ?_⟩
    · rw [owedAfter, hf]
      exact h
    · have hrefused : ¬ RequestSucceeds net ptr keys := by
        rintro ⟨⟨route, hok⟩, -⟩
        rw [hf] at hok
        cases hok
      rcases fetchHost_error hf with rfl | rfl | rfl <;> simp [hrefused, LMC_RETURN_OK]
  · have hsent : mgetSent net ptr keys = asked := (mgetSent_ok hf).trans (hreq.asked_eq ht).symm
    refine ⟨?_, hreq.config, ?_⟩
    · rw [owedAfter, hf, hsent]
      exact hreq.synced
    · rw [memcached_mget, request_ok_iff ht hf hreq]
      exact ⟨fun hlast => ⟨⟨route, hf⟩, hlast⟩, fun hsucceeds => hsucceeds.2⟩

/-! ## The whole fetch -/

theorem pollFails_turns {net : Network n} {ptr : memcached_st n} (h : pollFails net ptr) :
    turns net 1 ptr = none := by
  have hnone : turn net ptr = none := by
    rcases hr : memcached_io_get_readable_server net ptr with ⟨_ | s, p⟩
    · rw [turn, hr]
    · have := h.1
      rw [hr] at this
      cases this
  rw [turns, hnone]

theorem stopped_turns {net : Network n} {ptr ptr' : memcached_st n} {q q' : State (Fin n) Reply}
    {error rc : memcached_return_t} (h : Stopped net ptr q error ptr' q' rc) :
    turns net 1 ptr = none := by
  cases h with
  | nothing k hturn hwhy => rw [turns, hturn]
  | @broken s rc ptr' hturn hq hrc hsynced hconfig =>
    rw [turns, hturn]
    cases rc <;> first | rfl | exact absurd hrc (by decide)

/-- A fetch that nothing breaks stops when no host owes anything. -/
theorem Stopped.finished {net : Network n} (hprompt : Prompt net) {ptr₁ ptr' : memcached_st n}
    {q q₁ q' : State (Fin n) Reply} (hq : AllWhole q) {es : List (Event (Fin n) Reply)}
    (hsteps : Steps q es q₁) {error rc : memcached_return_t}
    (h : Stopped net ptr₁ q₁ error ptr' q' rc) :
    q₁ = (fun _ => none) ∧ q' = (fun _ => none) ∧ rc = error := by
  cases h with
  | nothing k hturn hwhy =>
    have hnone := hwhy.resolve_right (hprompt.not_pollFails _)
    exact ⟨funext hnone, funext hnone, rfl⟩
  | @broken s rc ptr' hturn hcut hrc hsynced hconfig =>
    exfalso
    rcases hs : q s with _ | qs
    · rw [hsteps.none_of_none hs] at hcut
      cases hcut
    · have := hsteps.whole_eq hs hcut
      rw [hq s qs hs] at this
      cases this

/-- The spec of a fetch into a hash that nothing breaks. -/
theorem fetch_all_whole {net : Network n} (hprompt : Prompt net) (state : lmc_state_st n)
    {q : State (Fin n) Reply} (h : Synced state.ptr q) (hq : AllWhole q) {s : Fin n}
    (hs : q s ≠ none) (rc : memcached_return_t) (hrc : LMC_RETURN_OK rc = true) (dest_ref : HV)
    (get_cb : Option Transform) (hcb : state.cb_context.get_cb = get_cb.map Transform.coderef) :
    ∃ es state' rc', fetch_all_into_hashref net state rc dest_ref = .returned state'
        (override dest_ref (bindingsOf state.ptr.support_cas get_cb (results state.ptr es)), rc') ∧
      returnSV rc' = .yes ∧ Steps q es (fun _ => none) ∧ Synced state'.ptr (fun _ => none) ∧
      SameConfig state.ptr state'.ptr := by
  obtain ⟨es, ptr₁, q₁, ptr', q', rc', hsteady⟩ := fetch_execute_steadily net h
  obtain ⟨rfl, rfl, rfl⟩ := hsteady.stop.finished hprompt hq hsteady.run.steps
  obtain ⟨state', hout, hptr⟩ := fetch_all_steadily state hsteady rc hrc dest_ref get_cb hcb
  have hsteps := hsteady.run.steps
  have hes : es ≠ [] := by
    rintro rfl
    cases hsteps
    exact hs rfl
  refine ⟨es, state', _, hout, hashCode_codeAfter hes, hsteps, ?_, ?_⟩
  · rw [hptr]
    exact hsteady.stop.synced hsteady.run.synced
  · rw [hptr]
    exact hsteady.run.config.trans hsteady.stop.config

/-! ## The replies of text hosts -/

/-- What the get callback is called with for a reply of a text host. -/
def replyInvocation (withCas : Bool) (r : Reply) : Invocation where
  key := r.key
  value := some r.item.value
  flags := uvOfFlags r.item.flags
  cas := if withCas then some r.item.cas else none

theorem string_check_allocates (string : memcached_string_st) (h : string.bytes = [])
    {need : Nat} (hneed : need ≠ 0) : (memcached_string_check string need).current_size ≠ 0 := by
  unfold memcached_string_check
  split_ifs with hroom
  · simp [MEMCACHED_BLOCK_SIZE]
  · rw [h] at hroom
    simp only [List.length_nil] at hroom
    omega

/-- A text value is never in a NULL buffer. -/
theorem invocationOf_text (withCas : Bool) (result : memcached_result_st) (r : Reply) :
    invocationOf withCas (storeReply withCas .text result r) = replyInvocation withCas r := by
  have hsize := string_check_allocates (memcached_string_reset result.value) rfl
    (Nat.succ_ne_zero (r.item.value.length + 1))
  simp only [invocationOf, storeReply, memcached_string_value, replyInvocation, hsize, if_false,
    sv_setpvn, Invocation.mk.injEq, true_and]
  split <;> rfl

/-- The results of text replies, as the callbacks see them. -/
theorem results_text (withCas : Bool) (result : memcached_result_st) (rs : List Reply) :
    (resultsOf withCas .text result rs).map (fun r => (r.item_key, invocationOf withCas r)) =
      rs.map fun r => (r.key, replyInvocation withCas r) := by
  induction rs generalizing result with
  | nil => rfl
  | cons r rs ih =>
    rw [resultsOf, List.map_cons, List.map_cons, ih, invocationOf_text]
    rfl

/-- Each result of a text fetch is a reply that came, as the callbacks see
it. -/
theorem of_mem_results_text {ptr : memcached_st n} (htext : ptr.protocol = .text)
    {es : List (Event (Fin n) Reply)} {result : memcached_result_st} (h : result ∈ results ptr es) :
    ∃ t r, (t, r) ∈ delivered es ∧ result.item_key = r.key ∧
      invocationOf ptr.support_cas result = replyInvocation ptr.support_cas r := by
  have hin := List.mem_map_of_mem (f := fun r => (r.item_key, invocationOf ptr.support_cas r)) h
  unfold results at hin
  rw [htext, results_text, List.map_map, List.mem_map] at hin
  obtain ⟨⟨t, r⟩, hr, he⟩ := hin
  obtain ⟨hkey, hinvocation⟩ := Prod.mk.inj he
  exact ⟨t, r, hr, hkey.symm, hinvocation.symm⟩

/-- Each reply that came is a result. -/
theorem mem_results_text {ptr : memcached_st n} (htext : ptr.protocol = .text)
    {es : List (Event (Fin n) Reply)} {t : Fin n} {r : Reply} (h : (t, r) ∈ delivered es) :
    ∃ result ∈ results ptr es, result.item_key = r.key := by
  have hin : (r.key, replyInvocation ptr.support_cas r) ∈
      (results ptr es).map fun r => (r.item_key, invocationOf ptr.support_cas r) := by
    unfold results
    rw [htext, results_text, List.map_map]
    exact List.mem_map.mpr ⟨_, h, rfl⟩
  obtain ⟨result, hresult, he⟩ := List.mem_map.mp hin
  exact ⟨result, hresult, (Prod.mk.inj he).1⟩

/-- The element that a reply leaves in the hash. -/
def replyElement (withCas : Bool) (get_cb : Option Transform) (r : Reply) : SV :=
  match get_cb with
  | none => some r.item.value
  | some f => (f (replyInvocation withCas r)).1

theorem elementOf_text (withCas : Bool) (get_cb : Option Transform) (result : memcached_result_st)
    (r : Reply) :
    elementOf withCas get_cb (storeReply withCas .text result r) =
      replyElement withCas get_cb r := by
  cases get_cb <;> simp only [elementOf, invocationOf_text] <;> rfl

def replyBinding (withCas : Bool) (get_cb : Option Transform) (r : Reply) : Bytes × SV :=
  (r.key, replyElement withCas get_cb r)

theorem bindingsOf_text (withCas : Bool) (get_cb : Option Transform) (result : memcached_result_st)
    (rs : List Reply) :
    bindingsOf withCas get_cb (resultsOf withCas .text result rs) =
      rs.map (replyBinding withCas get_cb) := by
  induction rs generalizing result with
  | nil => rfl
  | cons r rs ih =>
    have hrest := ih (storeReply withCas .text result r)
    rw [bindingsOf] at hrest ⊢
    rw [resultsOf, List.map_cons, List.map_cons, hrest, elementOf_text]
    rfl

end Libmemcached
