-- When a multi-key fetch reports success: a fetch that stops before the first
-- response is reported, but one that `poll` stops later is not.
import Libmemcached.Hosts
import Libmemcached.WholeFetch

open Chunks Override Queues

namespace Libmemcached

open memcached_return_t memcached_server_st

variable {n : Nat}

/-- The response of a host was read through its end marker, and what it holds
of the keys it was sent is in the hash. -/
structure ReadThrough (store : Store) (asked : List Bytes) (answer : Queue Reply)
    (results : List memcached_result_st) (host : memcached_server_st) (hv : HV) : Prop where
  whole : answer.whole = true
  consumed : Quiet host
  stored : ∀ k item, k ∈ asked → store.get k = some item →
    hv k ≠ none ∧ ∃ result ∈ results, Holds result ⟨k, item⟩

/-- If `mget_into_hashref` returns true, every host that was sent a part of the
request was read through. -/
def NoSilentLoss (net : Network n) (stores : Fin n → Store)
    (answers : Fin n → List Bytes → Queue Reply) (state : lmc_state_st n) (keys : List Bytes)
    (dest_ref : HV) : Prop :=
  ∀ state' hv rc, xs_mget_into_hashref net state keys dest_ref = .returned state' (hv, rc) →
    returnSV rc = .yes → ∀ s, mgetSent net state.ptr keys s ≠ [] →
      ReadThrough (stores s) (mgetSent net state.ptr keys s)
        (answers s (mgetSent net state.ptr keys s)) (fetchedResults net state keys)
        (state'.ptr.servers s) hv

/-- No poll of the fetch fails after a first response was read. The fetch
starts on the handle that a successful request leaves. -/
def LaterPollsSucceed (net : Network n) (ptr : memcached_st n) (keys : List Bytes) : Prop :=
  LMC_RETURN_OK (memcached_mget net ptr keys).2 = true →
    ∀ k h, turns net (k + 1) (memcached_mget net ptr keys).1 = some h → ¬ pollFails net h

theorem hashCode_ok_of_readError {rc : memcached_return_t} (h : isReadError rc = true) :
    returnSV (hashCode rc) ≠ .yes := by
  revert h
  cases rc <;> decide

theorem delivered_of_read {q q₁ : State (Fin n) Reply} {es : List (Event (Fin n) Reply)}
    (h : Steps q es q₁) {s : Fin n} {qs : Queue Reply} (hq : q s = some qs) (hs : q₁ s = none) :
    ∀ r ∈ qs.items, (s, r) ∈ delivered es := by
  intro r hr
  have howed := h.owed_eq s
  simp only [owed, hq, hs, Option.map_some, Option.map_none, Option.getD_some, Option.getD_none,
    List.append_nil] at howed
  refine mem_itemsOf.mp ?_
  rw [← howed]
  exact hr

section fetch

variable {net : Network n} {stores : Fin n → Store} {answers : Fin n → List Bytes → Queue Reply}
variable {route : Bytes → Fin n} {keys : List Bytes} {ptr ptr₁ : memcached_st n}
variable {rc₁ : memcached_return_t} {asked : Fin n → List Bytes}

theorem reply_mem_answer (hreq : Requested net answers route keys ptr ptr₁ rc₁ asked)
    (hserves : Serves net stores ptr.support_cas ptr.protocol answers)
    (hline : ∀ k ∈ keys, OneLine k) {s : Fin n} {k : Bytes} {item : Item} (hk : k ∈ asked s)
    (hitem : (stores s).get k = some item) (hwhole : (answers s (asked s)).whole = true) :
    (⟨k, item⟩ : Reply) ∈ (answers s (asked s)).items := by
  have hasked : ∀ x ∈ asked s, OneLine x := fun x hx => hline x (hreq.mem s x hx).1
  have hvalid := (stores s).valid k item hitem
  rw [(hserves s (asked s) hasked).all hwhole, Store.mem_replies]
  exact ⟨mem_keysAsked hasked hvalid.clean hvalid.nonempty hk, hitem⟩

theorem readThrough_of_closed (hreq : Requested net answers route keys ptr ptr₁ rc₁ asked)
    (hserves : Serves net stores ptr.support_cas ptr.protocol answers)
    (hline : ∀ k ∈ keys, OneLine k) {es : List (Event (Fin n) Reply)} {ptr₂ : memcached_st n}
    {q₂ : State (Fin n) Reply} (hrun : Run net ptr₁ (owedFor answers asked) es ptr₂ q₂)
    {s : Fin n} (hs : asked s ≠ []) (hclosed : q₂ s = none) (support_cas : Bool)
    (get_cb : Option Transform) (dest_ref : HV) :
    ReadThrough (stores s) (asked s) (answers s (asked s)) (results ptr₁ es) (ptr₂.servers s)
      (override dest_ref (bindingsOf support_cas get_cb (results ptr₁ es))) := by
  have howed : owedFor answers asked s = some (answers s (asked s)) := by
    rw [owedFor, if_neg hs]
  have hwhole := hrun.steps.whole_of_closed howed hclosed
  refine ⟨hwhole, ?_, ?_⟩
  · have := hrun.synced s
    rwa [hclosed] at this
  · intro k item hk hitem
    have hmem := reply_mem_answer hreq hserves hline hk hitem hwhole
    have hdel := delivered_of_read hrun.steps howed hclosed _ hmem
    obtain ⟨result, hresult, hholds⟩ := exists_resultsOf ptr₁.support_cas ptr₁.protocol ptr₁.result
      (List.mem_map.mpr ⟨_, hdel, rfl⟩)
    refine ⟨?_, result, hresult, hholds⟩
    obtain ⟨v, -, hv⟩ := override_of_mem dest_ref
      (bindingsOf support_cas get_cb (results ptr₁ es)) k (by
        simp only [bindingsOf, List.map_map, List.mem_map]
        exact ⟨result, hresult, hholds.key⟩)
    rw [hv]
    simp

/-- A fetch that `poll` ends after a response leaves a host that it has not
read through, although the code is that of a success. -/
theorem late_stop {es : List (Event (Fin n) Reply)} {ptr₂ ptr' : memcached_st n}
    {q₁ q₂ q' : State (Fin n) Reply} {rc : memcached_return_t}
    (hrun : Run net ptr₁ q₁ es ptr₂ q₂) (hes : es ≠ [])
    (hstop : Stopped net ptr₂ q₂ (codeAfter FAILURE es) ptr' q' rc) (hfail : pollFails net ptr₂) :
    returnSV (hashCode rc) = .yes ∧ ∃ s, q₁ s ≠ none ∧ ¬ Quiet (ptr'.servers s) := by
  cases hstop with
  | nothing k hturn hwhy =>
    refine ⟨?_, ?_⟩
    · exact hashCode_codeAfter hes
    · obtain ⟨-, s, hs⟩ := hfail
      refine ⟨s, ?_, fun hquiet => hs hquiet.count⟩
      intro hnone
      rw [hrun.synced.count s, hrun.steps.none_of_none hnone] at hs
      exact hs rfl
  | @broken s rc ptr' hturn hq hrc hsynced hconfig =>
    have := pollFails_turns hfail
    obtain ⟨hnone, -⟩ := hfail
    unfold turn at hturn
    split at hturn
    · cases hturn
    · rename_i hr
      rw [hr] at hnone
      cases hnone

end fetch

/-- A multi-key fetch that returns true has read every host that was sent a
part of the request through its end marker, exactly when no poll of the fetch
fails after its first response. -/
theorem a_multi_key_fetch_loses_nothing_iff_its_later_polls_succeed {net : Network n}
    (ht : Takes net) {stores : Fin n → Store} {answers : Fin n → List Bytes → Queue Reply}
    (state₀ : lmc_state_st n) {q : State (Fin n) Reply} (h : Synced state₀.ptr q)
    (hserves : Serves net stores state₀.ptr.support_cas state₀.ptr.protocol answers)
    (set_cb : Option Coderef) (get_cb : Option Transform) (keys : List Bytes)
    (hline : ∀ k ∈ keys, OneLine k)
    (hlength : state₀.ptr.protocol = .binary →
      ∀ k ∈ keys, memcached_validate_key_length k.length true = SUCCESS) (dest_ref : HV) :
    NoSilentLoss net stores answers
        (xs_set_callback_coderefs state₀ set_cb (get_cb.map Transform.coderef)) keys dest_ref ↔
      LaterPollsSucceed net state₀.ptr keys := by
  set state := xs_set_callback_coderefs state₀ set_cb (get_cb.map Transform.coderef) with hstate
  rcases mget_by_key_requested h hserves none keys hline hlength with
    ⟨rc, hf, hmget⟩ | ⟨route, hf, asked, hreq⟩
  · -- nothing is sent
    have hok : LMC_RETURN_OK rc = false := by
      rcases fetchHost_error hf with rfl | rfl | rfl <;> rfl
    constructor
    · intro _ hrc
      rw [memcached_mget, hmget, hok] at hrc
      cases hrc
    · intro _ state' hv rc' _ _ s hs
      exact absurd (mgetSent_error hf s) hs
  · have hsent : mgetSent net state.ptr keys = asked :=
      (mgetSent_ok hf).trans (hreq.asked_eq ht).symm
    rw [← memcached_mget] at hreq
    have hcases := hreq.code_cases ht (fetchHost_ok hf)
    have hmget : memcached_mget net state.ptr keys = memcached_mget net state₀.ptr keys := rfl
    simp only [NoSilentLoss, LaterPollsSucceed, hsent, xs_mget_into_hashref, hmget, fetchedResults]
    generalize memcached_mget net state₀.ptr keys = out at *
    obtain ⟨ptr₁, rc₁⟩ := out
    cases hok : LMC_RETURN_OK rc₁ with
    | false =>
      -- the fetch does not start, and the code of the failed connect is returned
      refine ⟨fun _ h => (Bool.false_ne_true h).elim, ?_⟩
      intro _ state' hv rc hout hyes
      obtain ⟨state₁, hfetch, -⟩ := fetch_all_failed net { state with ptr := ptr₁ } hok dest_ref
      simp only [hfetch, XS.returned.injEq, Prod.mk.injEq] at hout
      rcases hcases with rfl | hfail
      · exact absurd hok (by decide)
      · rw [← hout.2.2] at hyes
        exact absurd hyes (connectFailure_not_yes hfail)
    | true =>
      obtain ⟨es, ptr₂, q₂, ptr', q', rc', hsteady⟩ := fetch_execute_steadily net hreq.synced
      obtain ⟨state₁, hfetch, hptr⟩ := fetch_all_steadily { state with ptr := ptr₁ }
        hsteady rc₁ hok dest_ref get_cb rfl
      simp only [hfetch, if_true, XS.returned.injEq, Prod.mk.injEq, true_implies]
      constructor
      · -- a late stop would be reported as a success
        rintro hno k h' hk hfail
        obtain ⟨hlen, rfl⟩ := turns_unique hk (by simpa [turns] using hsteady.run.turns_eq 0)
          (pollFails_turns hfail) (stopped_turns hsteady.stop)
        have hes : es ≠ [] := by rintro rfl; simp at hlen
        obtain ⟨hyes, s, hs, hnot⟩ := late_stop hsteady.run hes hsteady.stop hfail
        have hasked : asked s ≠ [] := by
          intro hnil
          exact hs (by rw [owedFor, if_pos hnil])
        refine hnot ?_
        rw [← hptr]
        exact (hno _ _ _ ⟨rfl, rfl, rfl⟩ hyes s hasked).consumed
      · rintro hpolls state' hv rc ⟨rfl, rfl, rfl⟩ hyes s hs
        obtain ⟨hrun, hstop, hdel, -⟩ := hsteady
        have hptr' : ∀ rc, (recordReturn state₁ rc).ptr = ptr' := fun _ => hptr
        rw [hdel, hptr']
        cases hstop with
        | nothing m hturn hwhy =>
          have hes : es ≠ [] := by
            rintro rfl
            change returnSV FAILURE = .yes at hyes
            exact absurd hyes (by decide)
          rcases hwhy with hall | hfail
          · exact readThrough_of_closed hreq hserves hline hrun hs (hall s) _ get_cb dest_ref
          · obtain ⟨m, hm⟩ := Nat.exists_eq_succ_of_ne_zero (List.length_eq_zero_iff.not.mpr hes)
            refine absurd hfail (hpolls m ptr₂ ?_)
            rw [← Nat.succ_eq_add_one, ← hm]
            simpa [turns] using hrun.turns_eq 0
        | broken hturn hq hrc hsynced hconfig =>
          exact absurd hyes (hashCode_ok_of_readError hrc)

theorem a_fetch_from_two_prompt_hosts_loses_nothing :
    NoSilentLoss (textHosts pairStores false fun _ => true) pairStores
        (wholeAnswer pairStores false .text) pairState [keyA, keyB] (fun _ => none) ↔
      LaterPollsSucceed (textHosts pairStores false fun _ => true) pairState.ptr [keyA, keyB] :=
  a_multi_key_fetch_loses_nothing_iff_its_later_polls_succeed (textHosts_takes _ _ _) pairState
    (synced_create pairRouting .text) (textHosts_serves pairStores false _) none none [keyA, keyB]
    (by decide) (fun h => by cases h) (fun _ => none)

/-- The two hosts, when the second `poll` of the fetch times out. -/
def lateTimeout : Network 2 :=
  { textHosts pairStores false fun _ => true with poll := fun k fds => if k = 0 then fds else [] }

/-- The fetch of both keys then returns true although the second host was
never read. -/
theorem a_late_timeout_is_reported_as_success :
    Takes lateTimeout ∧ Serves lateTimeout pairStores false .text (wholeAnswer pairStores false .text) ∧
      ¬ NoSilentLoss lateTimeout pairStores (wholeAnswer pairStores false .text) pairState
        [keyA, keyB] (fun _ => none) := by
  refine ⟨fun _ _ => rfl, textHosts_serves pairStores false fun _ => true, fun hno => ?_⟩
  have hrun : (match xs_mget_into_hashref lateTimeout pairState [keyA, keyB] (fun _ => none) with
      | .returned state (_, rc) => some (returnSV rc, (state.ptr.servers 1).cursor_active)
      | .croaked _ => none) = some (.yes, 1) := by decide +kernel
  have hsent : mgetSent lateTimeout pairState.ptr [keyA, keyB] 1 = [keyB] := by decide +kernel
  split at hrun
  · rename_i state hv rc hout
    simp only [Option.some.injEq, Prod.mk.injEq] at hrun
    have hquiet := (hno state hv rc hout hrun.1 1 (by rw [hsent]; simp)).consumed
    rw [hquiet.count] at hrun
    exact absurd hrun.2 (by decide)
  · cases hrun

end Libmemcached
