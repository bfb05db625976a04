-- The loop that removes what is left of earlier requests before a multi-key
-- get: it leaves every host quiet, whatever the hosts owed.
import Libmemcached.FetchRuns

open Chunks Queues

namespace Libmemcached

open memcached_return_t memcached_server_st

variable {n : Nat}

/-! ## Loops over the hosts -/

section each

variable {τ : Type} (servers : τ → Fin n → memcached_server_st) (f : τ → Fin n → τ)
variable (I : τ → Prop) (P Q : Fin n → memcached_server_st → Prop)

/-- A loop whose turn for a host changes no other host does for every host
what one turn does for its own. -/
theorem foldl_each
    (turn : ∀ st s, I st → P s (servers st s) → I (f st s) ∧ Q s (servers (f st s) s) ∧
      ∀ t, t ≠ s → servers (f st s) t = servers st t)
    (xs : List (Fin n)) (hnodup : xs.Nodup) (st : τ) (hI : I st)
    (hP : ∀ s ∈ xs, P s (servers st s)) :
    I (xs.foldl f st) ∧ (∀ s ∈ xs, Q s (servers (xs.foldl f st) s)) ∧
      ∀ s, s ∉ xs → servers (xs.foldl f st) s = servers st s := by
  induction xs generalizing st with
  | nil => exact ⟨hI, by simp, fun _ _ => rfl⟩
  | cons x xs ih =>
    obtain ⟨hx, hnodup⟩ := List.nodup_cons.mp hnodup
    obtain ⟨hI', hQx, hother⟩ := turn st x hI (hP x (by simp))
    have hP' : ∀ s ∈ xs, P s (servers (f st x) s) := by
      intro s hs
      rw [hother s (by rintro rfl; exact hx hs)]
      exact hP s (by simp [hs])
    obtain ⟨hI'', hQ, hrest⟩ := ih hnodup (f st x) hI' hP'
    refine ⟨hI'', ?_, ?_⟩
    · intro s hs
      rcases List.mem_cons.mp hs with rfl | hs
      · rw [List.foldl_cons, hrest s hx]; exact hQx
      · exact hQ s hs
    · intro s hs
      simp only [List.mem_cons, not_or] at hs
      rw [List.foldl_cons, hrest s hs.2, hother s hs.1]

theorem foldl_hosts
    (turn : ∀ st s, I st → P s (servers st s) → I (f st s) ∧ Q s (servers (f st s) s) ∧
      ∀ t, t ≠ s → servers (f st s) t = servers st t)
    (st : τ) (hI : I st) (hP : ∀ s, P s (servers st s)) :
    I ((List.finRange n).foldl f st) ∧ ∀ s, Q s (servers ((List.finRange n).foldl f st) s) := by
  obtain ⟨h1, h2, -⟩ := foldl_each servers f I P Q turn (List.finRange n)
    (List.nodup_finRange n) st hI (fun s _ => hP s)
  exact ⟨h1, fun s => h2 s (List.mem_finRange s)⟩

end each

/-! ## The drain -/

theorem drainHost_other (s t : Fin n) (fuel : Nat) (ptr : memcached_st n) (h : t ≠ s) :
    (drainHost s fuel ptr).servers t = ptr.servers t := by
  induction fuel generalizing ptr with
  | zero => rfl
  | succ fuel ih =>
    rw [drainHost]
    split
    · rfl
    · rw [ih]
      exact memcached_st.setServer_of_ne ptr _ h

theorem drainHost_config (s : Fin n) (fuel : Nat) (ptr : memcached_st n) :
    SameConfig ptr (drainHost s fuel ptr) := by
  induction fuel generalizing ptr with
  | zero => exact .refl _
  | succ fuel ih =>
    rw [drainHost]
    split
    · exact .refl _
    · have hread : SameConfig ptr (readResponse ptr s MEMCACHED_DEFAULT_COMMAND_SIZE).2 :=
        ⟨rfl, rfl, rfl, rfl⟩
      exact hread.trans (ih _)

theorem drainHost_quiet_of_count (s : Fin n) (fuel : Nat) (ptr : memcached_st n)
    (h : (ptr.servers s).cursor_active = 0) : drainHost s fuel ptr = ptr := by
  cases fuel with
  | zero => rfl
  | succ fuel => rw [drainHost, if_pos h]

/-- A queue is read to its end, and all its replies go into the result buffer
when it is whole. -/
theorem drainHost_owes (s : Fin n) (rs : List Reply) (w : Bool) (fuel : Nat)
    (ptr : memcached_st n) (hfuel : rs.length < fuel)
    (h : Owes ptr.support_cas ptr.protocol (ptr.servers s) ⟨rs, w⟩) :
    Quiet ((drainHost s fuel ptr).servers s) ∧
      (w = true → (drainHost s fuel ptr).result =
        rs.foldl (storeReply ptr.support_cas ptr.protocol) ptr.result) := by
  induction rs generalizing fuel ptr with
  | nil =>
    obtain ⟨fuel, rfl⟩ : ∃ k, fuel = k + 1 := ⟨fuel - 1, by omega⟩
    rw [drainHost, if_neg (by rw [h.count]; decide)]
    -- the last response leaves the host quiet, and the loop ends
    have hlast : ∃ rc host' result', Quiet host' ∧ (w = true → result' = ptr.result) ∧
        memcached_response ptr.protocol (ptr.servers s) MEMCACHED_DEFAULT_COMMAND_SIZE ptr.result =
          (rc, host', result') := by
      cases w with
      | true =>
        obtain ⟨host', hr, hq, -⟩ := response_end MEMCACHED_DEFAULT_COMMAND_SIZE ptr.result h
        exact ⟨_, host', _, hq, fun _ => rfl, hr⟩
      | false =>
        obtain ⟨rc, result', -, hr⟩ := response_cut MEMCACHED_DEFAULT_COMMAND_SIZE ptr.result h
        exact ⟨rc, _, result', quiet_quit _, fun hw => absurd hw (by decide), hr⟩
    obtain ⟨rc, host', result', hquiet, hresult, hr⟩ := hlast
    have hread : readResponse ptr s MEMCACHED_DEFAULT_COMMAND_SIZE =
        (rc, { ptr.setServer s host' with result := result' }) := by
      simp only [readResponse, hr]
    rw [hread, drainHost_quiet_of_count _ _ _ (by simpa using hquiet.count)]
    exact ⟨by simpa using hquiet, hresult⟩
  | cons r rs ih =>
    obtain ⟨fuel, rfl⟩ : ∃ k, fuel = k + 1 := ⟨fuel - 1, by omega⟩
    rw [drainHost, if_neg (by rw [h.count]; decide)]
    obtain ⟨host', hr, howes, -⟩ := response_item MEMCACHED_DEFAULT_COMMAND_SIZE ptr.result h
    have hread : readResponse ptr s MEMCACHED_DEFAULT_COMMAND_SIZE = (SUCCESS,
        { ptr.setServer s host' with
          result := storeReply ptr.support_cas ptr.protocol ptr.result r }) := by
      simp only [readResponse, hr]
    rw [hread]
    refine ih fuel _ ?_ ?_
    · simp only [List.length_cons] at hfuel; omega
    · simpa using howes

/-- There is at least one byte for each item of a queue. -/
theorem owes_length {withCas : Bool} {p : Protocol} {host : memcached_server_st}
    {q : Queue Reply} (h : Owes withCas p host q) : q.items.length ≤ host.input.bytes.length := by
  obtain ⟨tail, htail, -⟩ := h.input
  have hle : ∀ rs : List Reply, rs.length ≤ (rs.flatMap (render withCas p)).length := by
    intro rs
    induction rs with
    | nil => simp
    | cons r rs ih =>
      have := render_length_pos withCas p r
      simp only [List.flatMap_cons, List.length_append, List.length_cons]
      omega
  have := hle q.items
  rw [htail, List.length_append]
  omega

/-- The drain leaves the handle in step with hosts that owe nothing. -/
theorem drainAll_synced {ptr : memcached_st n} {q : State (Fin n) Reply} (h : Synced ptr q) :
    Synced (drainAll ptr) (fun _ => none) ∧ SameConfig ptr (drainAll ptr) := by
  have hturn : ∀ (st : memcached_st n) (s : Fin n), SameConfig ptr st →
      InStep ptr.support_cas ptr.protocol (st.servers s) (q s) →
      SameConfig ptr (drainHost s ((st.servers s).input.bytes.length + 1) st) ∧
        Quiet ((drainHost s ((st.servers s).input.bytes.length + 1) st).servers s) ∧
        ∀ t, t ≠ s → (drainHost s ((st.servers s).input.bytes.length + 1) st).servers t =
          st.servers t := by
    intro st s hst hstep
    refine ⟨hst.trans (drainHost_config _ _ _), ?_, fun t ht => drainHost_other s t _ st ht⟩
    rcases hq : q s with _ | ⟨rs, w⟩
    · rw [hq] at hstep
      rw [drainHost_quiet_of_count _ _ _ (Quiet.count hstep)]
      exact hstep
    · rw [hq] at hstep
      have howes : Owes st.support_cas st.protocol (st.servers s) ⟨rs, w⟩ := by
        rw [hst.support_cas, hst.protocol]; exact hstep
      exact (drainHost_owes s rs w _ st (Nat.lt_succ_of_le (owes_length howes)) howes).1
  obtain ⟨hconfig, hquiet⟩ := foldl_hosts memcached_st.servers
    (fun st s => drainHost s ((st.servers s).input.bytes.length + 1) st) (SameConfig ptr)
    (fun s host => InStep ptr.support_cas ptr.protocol host (q s)) (fun _ host => Quiet host)
    hturn ptr (.refl ptr) h
  exact ⟨hquiet, hconfig⟩

end Libmemcached
