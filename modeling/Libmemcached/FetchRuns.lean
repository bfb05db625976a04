-- What the fetch loops deliver on a handle that is in step with its hosts:
-- the replies of the hosts, each host's in its own order, until every answer
-- is read, an answer breaks off, or `poll` finds no host.
import Libmemcached.Pending
import Mathlib.Algebra.Order.BigOperators.Group.List

open Chunks Queues

namespace Libmemcached

open memcached_return_t memcached_server_st

variable {n : Nat} {σ : Type}

/-- The settings that no request and no response changes. -/
structure SameConfig (ptr ptr' : memcached_st n) : Prop where
  routing : ptr'.routing = ptr.routing
  protocol : ptr'.protocol = ptr.protocol
  verify_key : ptr'.verify_key = ptr.verify_key
  support_cas : ptr'.support_cas = ptr.support_cas

theorem SameConfig.refl (ptr : memcached_st n) : SameConfig ptr ptr := ⟨rfl, rfl, rfl, rfl⟩

theorem SameConfig.trans {a b c : memcached_st n} (h : SameConfig a b) (h' : SameConfig b c) :
    SameConfig a c :=
  ⟨h'.routing.trans h.routing, h'.protocol.trans h.protocol, h'.verify_key.trans h.verify_key,
    h'.support_cas.trans h.support_cas⟩

/-! ## Which host is read -/

theorem scanHosts_inl (ptr : memcached_st n) (xs fds : List (Fin n)) (s : Fin n)
    (h : scanHosts ptr xs fds = .inl s) : (ptr.servers s).input.buffered ≠ [] := by
  induction xs generalizing fds with
  | nil => simp [scanHosts] at h
  | cons x xs ih =>
    rw [scanHosts] at h
    split_ifs at h with h1 h2
    · cases h; exact h2
    · exact ih _ h
    · exact ih _ h

theorem scanHosts_inr (ptr : memcached_st n) (xs fds fds' : List (Fin n))
    (h : scanHosts ptr xs fds = .inr fds') (hfds : ∀ s ∈ fds, 0 < (ptr.servers s).cursor_active) :
    ∀ s ∈ fds', 0 < (ptr.servers s).cursor_active := by
  induction xs generalizing fds with
  | nil => simp only [scanHosts, Sum.inr.injEq] at h; exact h ▸ hfds
  | cons x xs ih =>
    rw [scanHosts] at h
    split_ifs at h with h1 h2 h3
    · refine ih _ h ?_
      intro s hs
      rcases List.mem_append.mp hs with hs | hs
      · exact hfds s hs
      · rw [List.mem_singleton.mp hs]; exact h3
    · exact ih _ h hfds
    · cases h; exact hfds

/-- `poll` finds no host although a host still owes an answer. -/
def pollFails (net : Network n) (ptr : memcached_st n) : Prop :=
  (memcached_io_get_readable_server net ptr).1 = none ∧ ∃ s, (ptr.servers s).cursor_active ≠ 0

/-- Every poll finds one of the hosts it watches readable. -/
def Prompt (net : Network n) : Prop := ∀ k fds, fds ≠ [] → ∃ s ∈ fds, s ∈ net.poll k fds

theorem readable_config (net : Network n) (ptr : memcached_st n) :
    ∃ k, (memcached_io_get_readable_server net ptr).2 = { ptr with polls := k } := by
  unfold memcached_io_get_readable_server
  split
  · exact ⟨ptr.polls, rfl⟩
  · split
    · exact ⟨ptr.polls, rfl⟩
    · exact ⟨ptr.polls + 1, rfl⟩

theorem readable_owes {net : Network n} {ptr : memcached_st n} {q : State (Fin n) Reply}
    (h : Synced ptr q) {s : Fin n} (hs : (memcached_io_get_readable_server net ptr).1 = some s) :
    ∃ qs, q s = some qs := by
  -- a host that is read has buffered data or a pending response
  have hact : (ptr.servers s).input.buffered ≠ [] ∨ 0 < (ptr.servers s).cursor_active := by
    unfold memcached_io_get_readable_server at hs
    split at hs
    · rename_i x hx
      simp only [Option.some.injEq] at hs
      exact Or.inl (hs ▸ scanHosts_inl _ _ _ _ hx)
    · rename_i fds hfds
      split at hs
      · exact Or.inr (by simpa using List.find?_some hs)
      · exact Or.inr (scanHosts_inr _ _ _ _ hfds (by simp) s (List.mem_of_find?_eq_some hs))
  rcases hq : q s with _ | qs
  · have hquiet : Quiet (ptr.servers s) := by have := h s; rwa [hq] at this
    rcases hact with hb | hc
    · exact absurd (Input.buffered_eq_nil_of_bytes hquiet.input) hb
    · rw [hquiet.count] at hc; omega
  · exact ⟨qs, rfl⟩

theorem Prompt.not_pollFails {net : Network n} (hnet : Prompt net) (ptr : memcached_st n) :
    ¬ pollFails net ptr := by
  rintro ⟨hnone, s, hs⟩
  unfold memcached_io_get_readable_server at hnone
  split at hnone
  · simp at hnone
  · rename_i fds _
    split at hnone
    · have := List.find?_eq_none.mp hnone s (List.mem_finRange s)
      simp only [decide_eq_true_eq] at this
      omega
    · rename_i hlen
      obtain ⟨t, ht, hmem⟩ := hnet ptr.polls fds (by rintro rfl; simp at hlen)
      have := List.find?_eq_none.mp hnone t ht
      simp [hmem] at this

/-- No host is found: none owes an answer, or `poll` failed. -/
theorem readable_none {net : Network n} {ptr : memcached_st n} {q : State (Fin n) Reply}
    (h : Synced ptr q) (hnone : (memcached_io_get_readable_server net ptr).1 = none) :
    (∀ s, q s = none) ∨ pollFails net ptr := by
  by_cases hall : ∀ s, q s = none
  · exact Or.inl hall
  · obtain ⟨s, hs⟩ := not_forall.mp hall
    refine Or.inr ⟨hnone, s, ?_⟩
    rw [h.count s, if_pos (Option.isSome_iff_ne_none.mpr hs)]
    decide

/-! ## One response -/

theorem unread_setServer_lt (ptr : memcached_st n) (s : Fin n) (host : memcached_server_st)
    (h : host.input.bytes.length < (ptr.servers s).input.bytes.length) :
    (ptr.setServer s host).unread < ptr.unread := by
  unfold memcached_st.unread
  refine List.sum_lt_sum _ _ ?_ ⟨s, List.mem_finRange s, by simpa using h⟩
  intro t _
  by_cases ht : t = s
  · subst ht; simp only [memcached_st.setServer_self]; omega
  · rw [memcached_st.setServer_of_ne _ _ ht]

/-- One turn of the fetch loops: the host that is read, the code of its
response, and the handle then. -/
def turn (net : Network n) (ptr : memcached_st n) :
    Option (Fin n × memcached_return_t × memcached_st n) :=
  match memcached_io_get_readable_server net ptr with
  | (none, _) => none
  | (some s, ptr) =>
    let (rc, ptr) := readResponse ptr s MEMCACHED_DEFAULT_COMMAND_SIZE
    some (s, rc, if rc = END then ptr.setServer s (ptr.servers s).response_reset else ptr)

/-- `k` turns that each read a result or an end marker. -/
def turns (net : Network n) : Nat → memcached_st n → Option (memcached_st n)
  | 0, ptr => some ptr
  | k + 1, ptr =>
    match turn net ptr with
    | some (_, SUCCESS, ptr) | some (_, END, ptr) => turns net k ptr
    | _ => none

theorem fetchResultLoop_none {net : Network n} {ptr : memcached_st n} (fuel : Nat)
    (error : memcached_return_t) (h : turn net ptr = none) :
    ∃ k, fetchResultLoop net (fuel + 1) ptr error =
      (false, fetchNothing { ptr with polls := k }, error) := by
  obtain ⟨k, hk⟩ := readable_config net ptr
  refine ⟨k, ?_⟩
  unfold turn at h
  rw [fetchResultLoop, ← hk]
  split at h
  · rename_i hr
    simp only [hr]
  · cases h

theorem fetchResultLoop_some {net : Network n} {ptr ptr' : memcached_st n} {s : Fin n}
    {rc : memcached_return_t} (fuel : Nat) (error : memcached_return_t)
    (h : turn net ptr = some (s, rc, ptr')) :
    fetchResultLoop net (fuel + 1) ptr error =
      if rc = SUCCESS then (true, ptr', rc)
      else if rc = END ∨ rc = NOTFOUND then fetchResultLoop net fuel ptr' rc
      else (false, fetchNothing ptr', rc) := by
  unfold turn at h
  rcases hr : memcached_io_get_readable_server net ptr with ⟨_ | s', p⟩
  · rw [hr] at h
    cases h
  · rw [hr] at h
    simp only [Option.some.injEq, Prod.mk.injEq] at h
    obtain ⟨rfl, rfl, rfl⟩ := h
    rw [fetchResultLoop, hr]
    dsimp only
    generalize readResponse p s' MEMCACHED_DEFAULT_COMMAND_SIZE = response
    obtain ⟨rc, ptr₁⟩ := response
    split_ifs <;> simp_all

/-- The handle after one more thing was read from a host. -/
structure Next (ptr ptr' : memcached_st n) (q' : State (Fin n) Reply) : Prop where
  synced : Synced ptr' q'
  config : SameConfig ptr ptr'
  fewer : ptr'.unread < ptr.unread

/-- What one turn does on a handle that is in step with its hosts. -/
inductive Turned (net : Network n) (ptr : memcached_st n) (q : State (Fin n) Reply) : Prop
  | nothing (hturn : turn net ptr = none) (hwhy : (∀ s, q s = none) ∨ pollFails net ptr)
  | item {s : Fin n} {r : Reply} {rs : List Reply} {w : Bool} {ptr' : memcached_st n}
      (hturn : turn net ptr = some (s, SUCCESS, ptr')) (hq : q s = some ⟨r :: rs, w⟩)
      (hnext : Next ptr ptr' (Function.update q s (some ⟨rs, w⟩)))
      (hresult : ptr'.result = storeReply ptr.support_cas ptr.protocol ptr.result r)
  | close {s : Fin n} {ptr' : memcached_st n} (hturn : turn net ptr = some (s, END, ptr'))
      (hq : q s = some ⟨[], true⟩) (hnext : Next ptr ptr' (Function.update q s none))
      (hresult : ptr'.result = ptr.result)
  | broken {s : Fin n} {rc : memcached_return_t} {ptr' : memcached_st n}
      (hturn : turn net ptr = some (s, rc, ptr')) (hq : q s = some ⟨[], false⟩)
      (hrc : isReadError rc = true) (hsynced : Synced ptr' (Function.update q s none))
      (hconfig : SameConfig ptr ptr')

theorem turned {ptr : memcached_st n} {q : State (Fin n) Reply} (net : Network n)
    (h : Synced ptr q) : Turned net ptr q := by
  obtain ⟨k, hk⟩ := readable_config net ptr
  rcases hr : memcached_io_get_readable_server net ptr with ⟨_ | s, ptr₁⟩
  · exact .nothing (by simp [turn, hr]) (readable_none h (by rw [hr]))
  · obtain rfl : ptr₁ = { ptr with polls := k } := by simpa [hr] using hk
    obtain ⟨⟨rs, w⟩, hq⟩ := readable_owes (s := s) h (by rw [hr])
    have howes : Owes ptr.support_cas ptr.protocol (ptr.servers s) ⟨rs, w⟩ := by
      have := h s; rwa [hq] at this
    have hturn : ∀ rc host result, memcached_response ptr.protocol (ptr.servers s)
        MEMCACHED_DEFAULT_COMMAND_SIZE ptr.result = (rc, host, result) →
        turn net ptr = some (s, rc, { ptr.setServer s (if rc = END then host.response_reset
          else host) with result, polls := k }) := by
      intro rc host result hread
      simp only [turn, hr, readResponse, hread]
      split_ifs with hrc
      · simp [memcached_st.setServer]
      · rfl
    rcases rs with _ | ⟨r, rs⟩
    · cases w with
      | true =>
        obtain ⟨host, hread, hquiet, -, hlt⟩ :=
          response_end MEMCACHED_DEFAULT_COMMAND_SIZE ptr.result howes
        have hreset : Quiet host.response_reset := ⟨rfl, hquiet.input, hquiet.written⟩
        refine .close (hturn _ _ _ hread) hq ⟨?_, ⟨rfl, rfl, rfl, rfl⟩, ?_⟩ rfl
        · exact (h.setServer s host.response_reset none hreset).frame rfl rfl rfl
        · exact unread_setServer_lt ptr s host.response_reset hlt
      | false =>
        obtain ⟨rc, result', hrc, hread⟩ :=
          response_cut MEMCACHED_DEFAULT_COMMAND_SIZE ptr.result howes
        have hne : rc ≠ END := by rintro rfl; exact absurd hrc (by decide)
        refine .broken (hturn _ _ _ hread) hq hrc ?_ ⟨rfl, rfl, rfl, rfl⟩
        rw [if_neg hne]
        exact (h.setServer s _ none (quiet_quit _)).frame rfl rfl rfl
    · obtain ⟨host, hread, howes', hlt⟩ :=
        response_item MEMCACHED_DEFAULT_COMMAND_SIZE ptr.result howes
      refine .item (hturn _ _ _ hread) hq ⟨?_, ⟨rfl, rfl, rfl, rfl⟩, ?_⟩ rfl
      · exact (h.setServer s host (some ⟨rs, w⟩) howes').frame rfl rfl rfl
      · exact unread_setServer_lt ptr s host hlt

/-! ## Many responses -/

/-- Turns that go on, with what each one took from its host. -/
inductive Run (net : Network n) : memcached_st n → State (Fin n) Reply →
    List (Event (Fin n) Reply) → memcached_st n → State (Fin n) Reply → Prop
  | refl {ptr : memcached_st n} {q : State (Fin n) Reply} (h : Synced ptr q) :
      Run net ptr q [] ptr q
  | item {ptr ptr' ptr'' : memcached_st n} {q q'' : State (Fin n) Reply} {s : Fin n} {r : Reply}
      {rs : List Reply} {w : Bool} {es : List (Event (Fin n) Reply)} :
      turn net ptr = some (s, SUCCESS, ptr') → q s = some ⟨r :: rs, w⟩ →
      Next ptr ptr' (Function.update q s (some ⟨rs, w⟩)) →
      ptr'.result = storeReply ptr.support_cas ptr.protocol ptr.result r →
      Run net ptr' (Function.update q s (some ⟨rs, w⟩)) es ptr'' q'' →
      Run net ptr q (.item s r :: es) ptr'' q''
  | close {ptr ptr' ptr'' : memcached_st n} {q q'' : State (Fin n) Reply} {s : Fin n}
      {es : List (Event (Fin n) Reply)} :
      turn net ptr = some (s, END, ptr') → q s = some ⟨[], true⟩ →
      Next ptr ptr' (Function.update q s none) → ptr'.result = ptr.result →
      Run net ptr' (Function.update q s none) es ptr'' q'' →
      Run net ptr q (.close s :: es) ptr'' q''

namespace Run

variable {net : Network n} {ptr ptr' ptr'' : memcached_st n} {q q' q'' : State (Fin n) Reply}
variable {es fs : List (Event (Fin n) Reply)}

theorem trans (h : Run net ptr q es ptr' q') (h' : Run net ptr' q' fs ptr'' q'') :
    Run net ptr q (es ++ fs) ptr'' q'' := by
  induction h with
  | refl _ => exact h'
  | item ht hq hn hr _ ih => exact .item ht hq hn hr (ih h')
  | close ht hq hn hr _ ih => exact .close ht hq hn hr (ih h')

/-- The hosts give what their queues say. -/
theorem steps (h : Run net ptr q es ptr' q') : Steps q es q' := by
  induction h with
  | refl _ => exact .refl _
  | item _ hq _ _ _ ih => exact .item hq ih
  | close _ hq _ _ _ ih => exact .close hq ih

theorem synced (h : Run net ptr q es ptr' q') : Synced ptr' q' := by
  induction h with
  | refl h => exact h
  | item _ _ _ _ _ ih => exact ih
  | close _ _ _ _ _ ih => exact ih

theorem config (h : Run net ptr q es ptr' q') : SameConfig ptr ptr' := by
  induction h with
  | refl _ => exact .refl _
  | item _ _ hn _ _ ih => exact hn.config.trans ih
  | close _ _ hn _ _ ih => exact hn.config.trans ih

theorem unread_le (h : Run net ptr q es ptr' q') : ptr'.unread + es.length ≤ ptr.unread := by
  induction h with
  | refl _ => simp
  | item _ _ hn _ _ ih => have := hn.fewer; simp only [List.length_cons]; omega
  | close _ _ hn _ _ ih => have := hn.fewer; simp only [List.length_cons]; omega

/-- The turns of the run are the turns that the code takes. -/
theorem turns_eq (h : Run net ptr q es ptr' q') (k : Nat) :
    turns net (es.length + k) ptr = turns net k ptr' := by
  induction h with
  | refl _ => simp
  | item ht _ _ _ _ ih =>
    rw [List.length_cons, Nat.add_right_comm, turns, ht]
    exact ih
  | close ht _ _ _ _ ih =>
    rw [List.length_cons, Nat.add_right_comm, turns, ht]
    exact ih

/-- The result buffer has taken every delivered reply, one after the other. -/
theorem result_eq (h : Run net ptr q es ptr' q') :
    ptr'.result = ((delivered es).map (·.2)).foldl (storeReply ptr.support_cas ptr.protocol)
      ptr.result := by
  induction h with
  | refl _ => rfl
  | item _ _ hn hr _ ih =>
    rw [ih, hn.config.protocol, hn.config.support_cas, hr]
    rfl
  | close _ _ hn hr _ ih =>
    rw [ih, hn.config.protocol, hn.config.support_cas, hr]
    rfl

/-- The network decides what each turn takes. -/
theorem unique {a b : memcached_st n} {qa qb : State (Fin n) Reply} (h : Run net ptr q es a qa)
    (h' : Run net ptr q fs b qb) (hlen : es.length = fs.length) : es = fs ∧ a = b ∧ qa = qb := by
  induction h generalizing fs with
  | refl _ =>
    cases fs with
    | nil => cases h'; exact ⟨rfl, rfl, rfl⟩
    | cons e fs => cases hlen
  | item ht hq _ _ _ ih =>
    cases h' with
    | refl _ => cases hlen
    | item ht' hq' _ _ hrest =>
      rw [ht] at ht'
      cases ht'
      rw [hq] at hq'
      cases hq'
      obtain ⟨rfl, rfl, rfl⟩ := ih hrest (Nat.succ.inj hlen)
      exact ⟨rfl, rfl, rfl⟩
    | close ht' => rw [ht] at ht'; cases ht'
  | close ht hq _ _ _ ih =>
    cases h' with
    | refl _ => cases hlen
    | item ht' => rw [ht] at ht'; cases ht'
    | close ht' hq' _ _ hrest =>
      rw [ht] at ht'
      cases ht'
      obtain ⟨rfl, rfl, rfl⟩ := ih hrest (Nat.succ.inj hlen)
      exact ⟨rfl, rfl, rfl⟩

end Run

/-- Two ways to take turns up to where no turn goes on are the same. -/
theorem turns_unique {net : Network n} {ptr a b : memcached_st n} {k m : Nat}
    (ha : turns net k ptr = some a) (hb : turns net m ptr = some b) (ha' : turns net 1 a = none)
    (hb' : turns net 1 b = none) : k = m ∧ a = b := by
  induction k generalizing ptr m with
  | zero =>
    simp only [turns, Option.some.injEq] at ha
    subst ha
    cases m with
    | zero => simpa [turns] using hb
    | succ m =>
      exfalso
      simp only [turns] at ha' hb
      split at ha' <;> simp_all
  | succ k ih =>
    cases m with
    | zero =>
      exfalso
      simp only [turns, Option.some.injEq] at hb
      subst hb
      simp only [turns] at hb' ha
      split at hb' <;> simp_all
    | succ m =>
      simp only [turns] at ha hb
      split at ha
      · rename_i h; rw [h] at hb
        obtain ⟨rfl, rfl⟩ := ih ha hb
        exact ⟨rfl, rfl⟩
      · rename_i h; rw [h] at hb
        obtain ⟨rfl, rfl⟩ := ih ha hb
        exact ⟨rfl, rfl⟩
      · cases ha

/-- How a fetch stops when `error` is the code so far: nothing more is found,
or the answer of a host breaks off. -/
inductive Stopped (net : Network n) (ptr : memcached_st n) (q : State (Fin n) Reply)
    (error : memcached_return_t) :
    memcached_st n → State (Fin n) Reply → memcached_return_t → Prop
  | nothing (k : Nat) (hturn : turn net ptr = none)
      (hwhy : (∀ s, q s = none) ∨ pollFails net ptr) :
      Stopped net ptr q error (fetchNothing { ptr with polls := k }) q error
  | broken {s : Fin n} {rc : memcached_return_t} {ptr' : memcached_st n}
      (hturn : turn net ptr = some (s, rc, ptr')) (hq : q s = some ⟨[], false⟩)
      (hrc : isReadError rc = true) (hsynced : Synced ptr' (Function.update q s none))
      (hconfig : SameConfig ptr ptr') :
      Stopped net ptr q error (fetchNothing ptr') (Function.update q s none) rc

namespace Stopped

variable {net : Network n} {ptr ptr' : memcached_st n} {q q' : State (Fin n) Reply}
variable {error rc : memcached_return_t}

theorem synced (h : Stopped net ptr q error ptr' q' rc) (hs : Synced ptr q) : Synced ptr' q' := by
  cases h with
  | nothing k _ _ => exact hs.frame rfl rfl rfl
  | broken _ _ _ hsynced _ => exact hsynced.frame rfl rfl rfl

theorem config (h : Stopped net ptr q error ptr' q' rc) : SameConfig ptr ptr' := by
  cases h with
  | nothing k _ _ => exact ⟨rfl, rfl, rfl, rfl⟩
  | broken _ _ _ _ hc => exact hc.trans ⟨rfl, rfl, rfl, rfl⟩

end Stopped

/-- The code after the events, when it was `error` before them. -/
def codeAfter (error : memcached_return_t) (es : List (Event (Fin n) Reply)) :
    memcached_return_t :=
  es.foldl (fun _ e => match e with
    | .item _ _ => SUCCESS
    | .close _ => END) error

theorem codeAfter_append (error : memcached_return_t) (es fs : List (Event (Fin n) Reply)) :
    codeAfter error (es ++ fs) = codeAfter (codeAfter error es) fs := by
  simp [codeAfter, List.foldl_append]

theorem codeAfter_of_ne_nil (error : memcached_return_t) {es : List (Event (Fin n) Reply)}
    (h : es ≠ []) : codeAfter error es = SUCCESS ∨ codeAfter error es = END := by
  obtain ⟨fs, e, rfl⟩ : ∃ fs e, es = fs ++ [e] :=
    ⟨es.dropLast, es.getLast h, (List.dropLast_append_getLast h).symm⟩
  rw [codeAfter_append]
  cases e with
  | item s r => exact Or.inl rfl
  | close s => exact Or.inr rfl

/-- `memcached_fetch_result` reads end markers up to the next result, or up to
where the fetch stops. -/
inductive FetchedResult (net : Network n) (ptr : memcached_st n) (q : State (Fin n) Reply)
    (error : memcached_return_t) : Bool × memcached_st n × memcached_return_t → Prop
  | result (ss : List (Fin n)) {s : Fin n} {r : Reply} {ptr' : memcached_st n}
      {q' : State (Fin n) Reply}
      (hrun : Run net ptr q (ss.map Event.close ++ [.item s r]) ptr' q') :
      FetchedResult net ptr q error (true, ptr', SUCCESS)
  | stopped (ss : List (Fin n)) {ptr₁ ptr' : memcached_st n} {q₁ q' : State (Fin n) Reply}
      {rc : memcached_return_t} (hrun : Run net ptr q (ss.map Event.close) ptr₁ q₁)
      (hstop : Stopped net ptr₁ q₁ (codeAfter error (ss.map Event.close)) ptr' q' rc) :
      FetchedResult net ptr q error (false, ptr', rc)

theorem fetchResultLoop_run {net : Network n} (fuel : Nat) {ptr : memcached_st n}
    {q : State (Fin n) Reply} (error : memcached_return_t) (h : Synced ptr q)
    (hfuel : ptr.unread < fuel) :
    FetchedResult net ptr q error (fetchResultLoop net fuel ptr error) := by
  induction fuel generalizing ptr q error with
  | zero => omega
  | succ fuel ih =>
    cases turned net h with
    | nothing hturn hwhy =>
      obtain ⟨k, hk⟩ := fetchResultLoop_none fuel error hturn
      rw [hk]
      exact .stopped [] (.refl h) (.nothing k hturn hwhy)
    | @item s r rs w ptr' hturn hq hnext hresult =>
      rw [fetchResultLoop_some fuel error hturn, if_pos rfl]
      exact .result [] (.item hturn hq hnext hresult (.refl hnext.synced))
    | @close s ptr' hturn hq hnext hresult =>
      rw [fetchResultLoop_some fuel error hturn, if_neg (by decide), if_pos (Or.inl rfl)]
      have hrec := ih END hnext.synced (by have := hnext.fewer; omega)
      generalize fetchResultLoop net fuel ptr' END = out at hrec ⊢
      cases hrec with
      | result ss hrun => exact .result (s :: ss) (.close hturn hq hnext hresult hrun)
      | stopped ss hrun hstop =>
        exact .stopped (s :: ss) (.close hturn hq hnext hresult hrun) hstop
    | @broken s rc ptr' hturn hq hrc hsynced hconfig =>
      have hne : rc ≠ SUCCESS ∧ ¬ (rc = END ∨ rc = NOTFOUND) := by
        refine ⟨ne_success_of_isReadError hrc, ?_⟩
        rintro (rfl | rfl) <;> exact absurd hrc (by decide)
      rw [fetchResultLoop_some fuel error hturn, if_neg hne.1, if_neg hne.2]
      exact .stopped [] (.refl h) (.broken hturn hq hrc hsynced hconfig)

/-- The spec of `memcached_fetch_result` on a handle that is in step. -/
theorem fetch_result_run {ptr : memcached_st n} {q : State (Fin n) Reply} (net : Network n)
    (error : memcached_return_t) (h : Synced ptr q) :
    FetchedResult net ptr q error (memcached_fetch_result net ptr error) :=
  fetchResultLoop_run _ error h (Nat.lt_succ_self _)

end Libmemcached
