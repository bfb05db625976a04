-- A get on hosts that are all up and answer completely: the request succeeds,
-- and the fetch hands out just the replies to it.
import Libmemcached.SingleGet
import Libmemcached.WholeFetch

open Chunks Decimal Queues

namespace Libmemcached

open memcached_return_t

variable {n : Nat} {σ : Type}

/-- All hosts are up, take what is written to them, and answer a text get at
once, with one block for each key that they hold. -/
structure Healthy (net : Network n) (stores : Fin n → Store) (withCas : Bool) : Prop where
  up : ∀ s, net.connect s = SUCCESS
  takes : Takes net
  prompt : Prompt net
  serves : Serves net stores withCas .text (wholeAnswer stores withCas .text)

/-- What the hosts owe for a request: each one the replies to its own keys. -/
def owedReplies (stores : Fin n → Store) (withCas : Bool) (route : Bytes → Fin n)
    (keys : List Bytes) : State (Fin n) Reply :=
  owedFor (wholeAnswer stores withCas .text) fun s => keys.filter (route · = s)

theorem allWhole_owedReplies (stores : Fin n → Store) (withCas : Bool) (route : Bytes → Fin n)
    (keys : List Bytes) : AllWhole (owedReplies stores withCas route keys) := by
  intro s qs hqs
  unfold owedReplies owedFor at hqs
  split_ifs at hqs
  cases hqs
  rfl

/-- A request that is not refused succeeds in either protocol, when all hosts
are up. What was pending goes into the result buffer. -/
theorem mget_by_key_up {net : Network n} (hup : ∀ s, net.connect s = SUCCESS) (htakes : Takes net)
    {stores : Fin n → Store} {answers : Fin n → List Bytes → Queue Reply} {ptr : memcached_st n}
    {q : State (Fin n) Reply} (h : Synced ptr q)
    (hserves : Serves net stores ptr.support_cas ptr.protocol answers) {master_key : Option Bytes}
    {keys : List Bytes} (hline : ∀ k ∈ keys, OneLine k)
    (hlength : ptr.protocol = .binary →
      ∀ k ∈ keys, memcached_validate_key_length k.length true = SUCCESS)
    {route : Bytes → Fin n} (hf : fetchHost ptr master_key keys = .ok route) :
    ∃ ptr', memcached_mget_by_key net ptr master_key keys = (ptr', SUCCESS) ∧
      Synced ptr' (owedFor answers fun s => keys.filter (route · = s)) ∧ SameConfig ptr ptr' ∧
      ptr'.result = (drainAll ptr).result := by
  have halive : ∀ s, Alive net (drainAll ptr) s := fun s => Or.inr (hup s)
  rcases mget_by_key_requested h hserves master_key keys hline hlength with
    ⟨rc, hf', -⟩ | ⟨route', hf', asked, hreq⟩
  · rw [hf] at hf'
    cases hf'
  obtain rfl : route = route' := by
    rw [hf] at hf'
    exact Except.ok.inj hf'
  have hasked : asked = fun s => keys.filter (route · = s) := by
    rw [hreq.asked_eq htakes]
    funext s
    rw [sentKeys, if_pos (halive s)]
  have hrc : (memcached_mget_by_key net ptr master_key keys).2 = SUCCESS := by
    rw [hreq.code_eq htakes]
    exact askedCode_open route (fun s => decide_eq_true (halive s)) (fetchHost_ok hf)
  refine ⟨(memcached_mget_by_key net ptr master_key keys).1, ?_, ?_, hreq.config, hreq.result⟩
  · rw [← hrc]
  · rw [← hasked]
    exact hreq.synced

theorem mget_by_key_healthy {net : Network n} {stores : Fin n → Store} {ptr : memcached_st n}
    (hnet : Healthy net stores ptr.support_cas) {q : State (Fin n) Reply} (h : Synced ptr q)
    (htext : ptr.protocol = .text) {master_key : Option Bytes} {keys : List Bytes}
    (hline : ∀ k ∈ keys, OneLine k) {route : Bytes → Fin n}
    (hf : fetchHost ptr master_key keys = .ok route) :
    ∃ ptr', memcached_mget_by_key net ptr master_key keys = (ptr', SUCCESS) ∧
      Synced ptr' (owedReplies stores ptr.support_cas route keys) ∧ SameConfig ptr ptr' := by
  have hserves := hnet.serves
  rw [← htext] at hserves
  obtain ⟨ptr', hmget, hsynced, hconfig, -⟩ := mget_by_key_up hnet.up hnet.takes h hserves hline
    (fun hbinary => by rw [htext] at hbinary; cases hbinary) hf
  rw [htext] at hsynced
  exact ⟨ptr', hmget, hsynced, hconfig⟩

/-- How a fetch of whole answers ends: all replies are handed out, or a
callback dies of one of them. -/
inductive Finished (callbacks : List (Callback σ)) (ptr : memcached_st n) (q : State (Fin n) Reply)
    (context : σ) : Executed n σ → Prop
  | returned {es : List (Event (Fin n) Reply)} {ptr' : memcached_st n} {context' : σ}
      (hsteps : Steps q es fun _ => none)
      (hcall : callAll callbacks (results ptr es) context = .returned SUCCESS context')
      (hsynced : Synced ptr' fun _ => none) (hconfig : SameConfig ptr ptr') :
      Finished callbacks ptr q context (.returned ptr' context' (codeAfter FAILURE es))
  | died {es : List (Event (Fin n) Reply)} {s : Fin n} {r : Reply} {q' : State (Fin n) Reply}
      {ptr' : memcached_st n} {context₁ context' : σ} (hsteps : Steps q (es ++ [.item s r]) q')
      (hcall : callAll callbacks (results ptr es) context = .returned SUCCESS context₁)
      (hresult : ptr'.result = ((delivered (es ++ [.item s r])).map (·.2)).foldl
        (storeReply ptr.support_cas ptr.protocol) ptr.result)
      (hdied : runCallbacks callbacks ptr'.result context₁ = .died context')
      (hsynced : Synced ptr' q') (hconfig : SameConfig ptr ptr') :
      Finished callbacks ptr q context (.died ptr' context')

theorem fetch_execute_finished {net : Network n} (hprompt : Prompt net) {ptr : memcached_st n}
    {q : State (Fin n) Reply} (h : Synced ptr q) (hq : AllWhole q) {callbacks : List (Callback σ)}
    (hplain : Plain callbacks) (context : σ) :
    Finished callbacks ptr q context (memcached_fetch_execute net ptr callbacks context) := by
  have hexec := fetch_execute_run net hplain context h
  generalize memcached_fetch_execute net ptr callbacks context = out at hexec
  cases hexec with
  | returned es q' hrun hcall hstop =>
    obtain ⟨rfl, rfl, rfl⟩ := hstop.finished hprompt hq hrun.steps
    exact .returned hrun.steps hcall (hstop.synced hrun.synced) (hrun.config.trans hstop.config)
  | died es s r q' hrun hcall hdied =>
    exact .died hrun.steps hcall hrun.result_eq hdied hrun.synced hrun.config

/-- A fetch from one host, with callbacks that take all its replies. -/
theorem fetch_execute_replies {net : Network n} (hprompt : Prompt net) {ptr : memcached_st n}
    {q : State (Fin n) Reply} (h : Synced ptr q) {s : Fin n} {rs : List Reply}
    (hone : q s = some ⟨rs, true⟩) (honly : ∀ t, t ≠ s → q t = none)
    {callbacks : List (Callback σ)} (hplain : Plain callbacks) {context context' : σ}
    (hcall : callAll callbacks (resultsOf ptr.support_cas ptr.protocol ptr.result rs) context =
      .returned SUCCESS context') :
    ∃ ptr' rc, memcached_fetch_execute net ptr callbacks context = .returned ptr' context' rc ∧
      (rc = SUCCESS ∨ rc = END) ∧ Synced ptr' (fun _ => none) ∧ SameConfig ptr ptr' := by
  have hq : AllWhole q := by
    intro t qs hqs
    by_cases ht : t = s
    · subst ht
      rw [hone] at hqs
      cases hqs
      rfl
    · rw [honly t ht] at hqs
      cases hqs
  have howed : owed q s = rs := by
    rw [owed, hone]
    rfl
  have hfinished := fetch_execute_finished hprompt h hq hplain context
  generalize memcached_fetch_execute net ptr callbacks context = out at hfinished
  cases hfinished with
  | @returned es ptr' context₁ hsteps hcalled hsynced hconfig =>
    obtain ⟨hdelivered, -⟩ := hsteps.delivered_single honly
    rw [howed, owed, Option.map_none, Option.getD_none, List.append_nil] at hdelivered
    rw [results, ← hdelivered, hcall] at hcalled
    cases hcalled
    refine ⟨ptr', _, rfl, ?_, hsynced, hconfig⟩
    apply codeAfter_of_ne_nil
    rintro rfl
    cases hsteps
    cases hone
  | @died es t r q' ptr' context₁ context₂ hsteps hcalled hresult hdied hsynced hconfig =>
    -- the result that it dies of is one of those that are taken
    obtain ⟨hdelivered, -⟩ := hsteps.delivered_single honly
    rw [howed, delivered_append, List.map_append, List.append_assoc] at hdelivered
    rw [results] at hcalled
    rw [hdelivered, resultsOf_append, callAll_append callbacks _ _ hcalled] at hcall
    rw [delivered_append, List.map_append, List.foldl_append] at hresult
    have hlast : ptr'.result = storeReply ptr.support_cas ptr.protocol
        (((delivered es).map (·.2)).foldl (storeReply ptr.support_cas ptr.protocol) ptr.result) r :=
      hresult
    have hdies : callAll callbacks (resultsOf ptr.support_cas ptr.protocol
        (((delivered es).map (·.2)).foldl (storeReply ptr.support_cas ptr.protocol) ptr.result)
        (r :: owed q' s)) context₁ = .died context₂ := by
      rw [resultsOf, callAll, ← hlast, hdied]
    have hcontra := hdies.symm.trans hcall
    cases hcontra

/-- A fetch of one reply, which the callbacks take. -/
theorem fetch_execute_one {net : Network n} (hprompt : Prompt net) {ptr : memcached_st n}
    {q : State (Fin n) Reply} (h : Synced ptr q) {s : Fin n} {r : Reply}
    (hone : q s = some ⟨[r], true⟩) (honly : ∀ t, t ≠ s → q t = none)
    {callbacks : List (Callback σ)} (hplain : Plain callbacks) {context context' : σ}
    (hrun : runCallbacks callbacks (storeReply ptr.support_cas ptr.protocol ptr.result r) context =
      .returned SUCCESS context') :
    ∃ ptr' rc, memcached_fetch_execute net ptr callbacks context = .returned ptr' context' rc ∧
      (rc = SUCCESS ∨ rc = END) ∧ Synced ptr' (fun _ => none) ∧ SameConfig ptr ptr' := by
  apply fetch_execute_replies hprompt h hone honly hplain
  rw [resultsOf, resultsOf, callAll, hrun]
  rfl

/-- Keys without white space are asked for as they are, so hosts owe the items
that they hold under these keys. -/
theorem wholeAnswer_valid (stores : Fin n → Store) (withCas : Bool) (p : Protocol) (s : Fin n)
    {keys : List Bytes} (hkeys : ∀ k ∈ keys, ValidKey k) :
    wholeAnswer stores withCas p s keys = ⟨(stores s).replies keys, true⟩ := by
  have hasked : keysAsked withCas p keys = keys := by
    apply keysAsked_clean
    · exact fun k hk => (hkeys k hk).clean
    · exact fun k hk => (hkeys k hk).nonempty
  rw [wholeAnswer, hasked]

theorem owed_valid (stores : Fin n → Store) (withCas : Bool) (p : Protocol) (route : Bytes → Fin n)
    {keys : List Bytes} (hkeys : ∀ k ∈ keys, ValidKey k) (t : Fin n) :
    owed (owedFor (wholeAnswer stores withCas p) fun s => keys.filter (route · = s)) t =
      (stores t).replies (keys.filter (route · = t)) := by
  have hfiltered : ∀ k ∈ keys.filter (route · = t), ValidKey k :=
    fun k hk => hkeys k (List.mem_of_mem_filter hk)
  rw [owed, owedFor]
  split_ifs with hnil
  · rw [hnil]
    rfl
  · rw [wholeAnswer_valid stores withCas p t hfiltered]
    rfl

/-- What hosts owe for one key. -/
theorem owedFor_one (stores : Fin n → Store) (withCas : Bool) (p : Protocol) (route : Bytes → Fin n)
    {key : Bytes} (hkey : ValidKey key) :
    owedFor (wholeAnswer stores withCas p) (fun s => [key].filter (route · = s)) (route key) =
        some ⟨((stores (route key)).reply key).toList, true⟩ ∧
      ∀ t, t ≠ route key →
        owedFor (wholeAnswer stores withCas p) (fun s => [key].filter (route · = s)) t = none := by
  have hone : ∀ k ∈ [key], ValidKey k := by
    intro k hk
    rw [List.mem_singleton.mp hk]
    exact hkey
  constructor
  · have hreplies : (stores (route key)).replies [key] =
        ((stores (route key)).reply key).toList := by
      rw [Store.replies, List.filterMap_cons]
      cases (stores (route key)).reply key <;> rfl
    have hmine : [key].filter (route · = route key) = [key] := by simp
    rw [owedFor, hmine, if_neg (List.cons_ne_nil key []),
      wholeAnswer_valid stores withCas p _ hone, hreplies]
  · intro t ht
    have hnone : [key].filter (route · = t) = [] := by simp [Ne.symm ht]
    rw [owedFor, hnone, if_pos rfl]

/-- What hosts owe for one key that its host holds. -/
theorem owedReplies_one {stores : Fin n → Store} (withCas : Bool) {route : Bytes → Fin n}
    {key : Bytes} {item : Item} (hitem : (stores (route key)).get key = some item) :
    owedReplies stores withCas route [key] (route key) = some ⟨[⟨key, item⟩], true⟩ ∧
      ∀ t, t ≠ route key → owedReplies stores withCas route [key] t = none := by
  obtain ⟨hone, honly⟩ := owedFor_one stores withCas .text route
    ((stores (route key)).valid key item hitem)
  have hreply : (stores (route key)).reply key = some ⟨key, item⟩ := by
    rw [Store.reply, hitem, Option.map_some]
  rw [hreply] at hone
  exact ⟨hone, honly⟩

/-- What they owe for keys that are valid: the items of these keys that the
host of each key holds. -/
theorem mem_owedReplies {stores : Fin n → Store} {withCas : Bool} {route : Bytes → Fin n}
    {keys : List Bytes} (hkeys : ∀ k ∈ keys, ValidKey k) {t : Fin n} {r : Reply} :
    r ∈ owed (owedReplies stores withCas route keys) t ↔
      (r.key ∈ keys ∧ route r.key = t) ∧ (stores t).get r.key = some r.item := by
  rw [owedReplies, owed_valid stores withCas .text route hkeys t, Store.mem_replies, List.mem_filter,
    decide_eq_true_eq]

end Libmemcached
