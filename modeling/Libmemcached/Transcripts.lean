-- The responses that a fetch reads from a handle in any state, one after the
-- other, and what memcached_fetch_execute makes of them.
import Libmemcached.FetchExecute

open Chunks

namespace Libmemcached

open memcached_return_t memcached_server_st

variable {n : Nat} {σ : Type}

/-- The codes after which `memcached_fetch_result` may read on. -/
def goesOn : memcached_return_t → Bool
  | SUCCESS | END | NOTFOUND => true
  | _ => false

/-! ## What a response takes from its host -/

/-- The bytes that the host still has. -/
def memcached_server_st.left (ptr : memcached_server_st) : Nat := ptr.input.bytes.length

@[simp] theorem left_init : memcached_server_st.init.left = 0 := rfl

@[simp] theorem left_increment (ptr : memcached_server_st) :
    ptr.response_increment.left = ptr.left := rfl

@[simp] theorem left_decrement (ptr : memcached_server_st) :
    ptr.response_decrement.left = ptr.left := rfl

theorem goesOn_fault (f : Fault) : goesOn f.code = false := by
  cases f <;> rfl

/-- A reading puts no byte back, and it has taken one when the fetch may read
on after it. -/
structure Consumes (ptr : memcached_server_st) (reading : Reading) : Prop where
  le : reading.2.1.left ≤ ptr.left
  less : goesOn reading.1 = true → reading.2.1.left < ptr.left

/-- A read takes the bytes it returns; one that fails leaves none. -/
theorem io_read_left {ptr ptr' : memcached_server_st} {length : Nat} {rc : memcached_return_t}
    {bytes : Bytes} (h : memcached_io_read ptr length = (rc, bytes, ptr')) :
    ptr'.left ≤ ptr.left ∧ (goesOn rc = true → ptr'.left + length = ptr.left) := by
  unfold memcached_io_read at h
  rcases Input.take_cases ptr.input length with ⟨taken, input, htake, hlength, hbytes⟩ | ⟨htake, -⟩
  · rw [htake] at h
    cases h
    simp only [left, hbytes, List.length_append]
    omega
  · rw [htake] at h
    cases h
    refine ⟨Nat.zero_le _, fun hon => ?_⟩
    rw [goesOn_fault] at hon
    cases hon

/-- A line that is read takes a byte. -/
theorem readline_left (ptr : memcached_server_st) (size : Nat) :
    (memcached_io_readline ptr size).2.2.left ≤ ptr.left ∧
      (goesOn (memcached_io_readline ptr size).1 = true →
        (memcached_io_readline ptr size).2.2.left < ptr.left) := by
  induction size generalizing ptr with
  | zero => exact ⟨Nat.le_refl _, fun h => (nomatch h)⟩
  | succ size ih =>
    rw [memcached_io_readline]
    rcases hnext : ptr.input.next with _ | ⟨c, input⟩
    · refine ⟨Nat.zero_le _, fun h => ?_⟩
      simp only [goesOn_fault, Bool.false_eq_true] at h
    · have hless : ({ ptr with input } : memcached_server_st).left < ptr.left := by
        rcases hbytes : ptr.input.bytes with _ | ⟨b, bs⟩
        · rw [Input.next_none.mpr hbytes] at hnext
          cases hnext
        · obtain ⟨j, hj, hrest⟩ := Input.next_some hbytes
          rw [hj] at hnext
          cases hnext
          simp only [left, hrest, hbytes, List.length_cons]
          omega
      simp only
      split_ifs
      · exact ⟨hless.le, fun _ => hless⟩
      · exact ⟨hless.le, fun _ => hless⟩
      · obtain ⟨hle, -⟩ := ih { ptr with input }
        exact ⟨hle.trans hless.le, fun _ => hle.trans_lt hless⟩

theorem value_fetch_left (ptr : memcached_server_st) (buffer : Bytes)
    (result : memcached_result_st) :
    (textual_value_fetch ptr buffer result).2.1.left ≤ ptr.left := by
  unfold textual_value_fetch
  split
  · exact Nat.zero_le _
  · simp only
    split <;> rename_i hread <;> exact (io_read_left hread).1

theorem textual_switch_left (ptr : memcached_server_st) (buffer : Bytes)
    (result : memcached_result_st) : (textual_switch ptr buffer result).2.1.left ≤ ptr.left := by
  have hvalue := value_fetch_left ptr.response_increment buffer result
  rw [left_increment] at hvalue
  unfold textual_switch
  split_ifs <;> first | exact Nat.le_refl _ | exact hvalue

theorem textual_read_left (ptr : memcached_server_st) (result : memcached_result_st) :
    Consumes ptr (textual_read_one_response ptr result) := by
  have hline := readline_left ptr MEMCACHED_DEFAULT_COMMAND_SIZE
  unfold textual_read_one_response
  split
  · rename_i line ptr' hread
    rw [hread] at hline
    have hswitch := textual_switch_left ptr' (lineBuffer line) result
    exact ⟨hswitch.trans hline.1, fun _ => hswitch.trans_lt (hline.2 rfl)⟩
  · rename_i rc line ptr' _ hread
    rw [hread] at hline
    exact ⟨hline.1, hline.2⟩

theorem read_value_left (ptr : memcached_server_st) (result : memcached_result_st) (size : Nat) :
    (binary_read_value ptr result size).2.1.left ≤ ptr.left := by
  unfold binary_read_value
  simp only
  split <;> rename_i hread <;> exact (io_read_left hread).1

theorem read_item_left (ptr : memcached_server_st) (result : memcached_result_st)
    (header : Header) : (binary_read_item ptr result header).2.1.left ≤ ptr.left := by
  unfold binary_read_item
  simp only
  split
  · rename_i hflags
    have hle := (io_read_left hflags).1
    split
    · rename_i hkey
      exact (read_value_left _ _ _).trans ((io_read_left hkey).1.trans hle)
    · rename_i hkey
      exact (io_read_left hkey).1.trans hle
  · rename_i hflags
    exact (io_read_left hflags).1

theorem read_elsewhere_left (ptr : memcached_server_st) (result : memcached_result_st)
    (size : Nat) (rc : memcached_return_t) :
    (binary_read_elsewhere ptr result size rc).2.1.left ≤ ptr.left := by
  unfold binary_read_elsewhere
  split <;> rename_i hread <;> exact (io_read_left hread).1

theorem read_success_left (ptr : memcached_server_st) (buffer_length : Nat)
    (result : memcached_result_st) (header : Header) :
    (binary_read_success ptr buffer_length result header).2.1.left ≤ ptr.left := by
  have hincrement := read_item_left ptr.response_increment result header
  have hitem := read_item_left ptr result header
  have hvalue := read_value_left ptr
    { memcached_result_reset result with item_cas := UInt64.ofNat header.cas } header.bodylen
  unfold binary_read_success
  simp only
  split_ifs
  -- the code of the status does not touch the host
  · split
    · rename_i hread
      rw [hread] at hincrement
      exact hincrement
    · exact hincrement
  · split
    · rename_i hread
      rw [hread] at hitem
      exact hitem
    · exact hitem
  · exact Nat.le_refl _
  · exact read_elsewhere_left _ _ _ _
  · exact Nat.le_refl _
  · exact read_elsewhere_left _ _ _ _
  · exact Nat.le_refl _
  · exact Nat.le_refl _
  · exact Nat.le_refl _
  · exact Nat.le_refl _
  · exact read_elsewhere_left _ _ _ _
  · split
    · rename_i hread
      rw [hread] at hvalue
      exact hvalue
    · exact hvalue
  · exact Nat.le_refl _

theorem binary_read_left (fuel : Nat) (ptr : memcached_server_st) (buffer_length : Nat)
    (result : memcached_result_st) :
    Consumes ptr (binary_read_one_response fuel ptr buffer_length result) := by
  induction fuel using Nat.strong_induction_on generalizing ptr with
  | _ fuel ih =>
    rw [binary_read_one_response.eq_def]
    split
    · rename_i bytes ptr₁ hheader
      -- the header is 24 bytes, and the rest takes no byte back
      have hless : ptr₁.left < ptr.left := by
        have := (io_read_left hheader).2 rfl
        omega
      have hrest : ∀ {reading : Reading}, reading.2.1.left ≤ ptr₁.left → Consumes ptr reading :=
        fun hle => ⟨hle.trans hless.le, fun _ => hle.trans_lt hless⟩
      apply hrest
      simp only
      split_ifs
      · exact Nat.le_refl _
      · exact read_success_left _ _ _ _
      · split
        · rename_i hbody
          have hle := (io_read_left hbody).1
          split
          · exact (ih _ (Nat.lt_succ_self _) _).1.trans hle
          · exact hle
        · rename_i hbody
          exact (io_read_left hbody).1
      · exact Nat.le_refl _
    · rename_i rc bytes ptr₁ hrc hheader
      obtain ⟨hle, hon⟩ := io_read_left hheader
      exact ⟨hle, fun h => by have := hon h; simp only; omega⟩

theorem read_one_response_left (p : Protocol) (ptr : memcached_server_st) (buffer_length : Nat)
    (result : memcached_result_st) :
    Consumes ptr (memcached_read_one_response p ptr buffer_length result) := by
  -- a reset leaves no byte, and none of its codes goes on
  have hreset : ∀ {reading : Reading}, Consumes ptr reading →
      Consumes ptr (if outOfStep reading.1 then
        ((reading.1, memcached_io_reset reading.2.1, reading.2.2) : Reading)
        else (reading.1, reading.2.1, reading.2.2)) := by
    intro reading h
    split_ifs
    · exact ⟨Nat.zero_le _, fun hon => (Nat.zero_le _).trans_lt (h.less hon)⟩
    · exact ⟨h.le, h.less⟩
  cases p with
  | text =>
    have h := textual_read_left ptr.response_decrement result
    exact hreset ⟨h.le, h.less⟩
  | binary =>
    have h := binary_read_left ptr.response_decrement.input.bytes.length ptr.response_decrement
      buffer_length result
    exact hreset ⟨h.le, h.less⟩

theorem purge_left (fuel : Nat) (p : Protocol) (ptr : memcached_server_st) (buffer_length : Nat)
    (result : memcached_result_st) :
    Consumes ptr (purgePending fuel p ptr buffer_length result) := by
  induction fuel generalizing ptr result with
  | zero => exact read_one_response_left p ptr buffer_length result
  | succ fuel ih =>
    rw [purgePending]
    have hone := read_one_response_left p ptr buffer_length result
    split_ifs with hpending
    · rcases hread : memcached_read_one_response p ptr buffer_length result with ⟨rc, host, result'⟩
      rw [hread] at hone
      simp only
      split_ifs
      · have hrest := ih host result'
        exact ⟨hrest.le.trans hone.le, fun hon => (hrest.less hon).trans_le hone.le⟩
      · exact hone
    · exact hone

/-! ## The responses of a handle -/

/-- One host has less, and the others what they had. -/
theorem unread_lt {ptr ptr' : memcached_st n} (s : Fin n)
    (hothers : ∀ t, t ≠ s → ptr'.servers t = ptr.servers t)
    (hless : (ptr'.servers s).left < (ptr.servers s).left) : ptr'.unread < ptr.unread := by
  have hsame : ptr'.unread = (ptr.setServer s (ptr'.servers s)).unread := by
    unfold memcached_st.unread
    congr 1
    apply List.map_congr_left
    intro t _
    by_cases ht : t = s
    · rw [ht, memcached_st.setServer_self]
    · rw [memcached_st.setServer_of_ne _ _ ht, hothers t ht]
  rw [hsame]
  exact unread_setServer_lt ptr s _ hless

/-- A turn of the fetch after which it may go on has read a byte. -/
theorem turn_fewer {net : Network n} {ptr ptr' : memcached_st n} {s : Fin n}
    {rc : memcached_return_t} (h : turn net ptr = some (s, rc, ptr')) (hon : goesOn rc = true) :
    ptr'.unread < ptr.unread := by
  obtain ⟨k, hk⟩ := readable_config net ptr
  unfold turn at h
  split at h
  · cases h
  · rename_i s' ptr₁ hreadable
    obtain rfl : ptr₁ = { ptr with polls := k } := by rw [hreadable] at hk; exact hk
    have hread := purge_left ((ptr.servers s').input.bytes.length + 1) ptr.protocol (ptr.servers s')
      MEMCACHED_DEFAULT_COMMAND_SIZE ptr.result
    simp only [Option.some.injEq, Prod.mk.injEq] at h
    obtain ⟨rfl, rfl, rfl⟩ := h
    apply unread_lt s'
    · intro t ht
      split_ifs <;> simp [readResponse, memcached_st.setServer_of_ne _ _ ht]
    · have hless := hread.less hon
      split_ifs
      · simpa [readResponse, left, response_reset, memcached_response] using hless
      · simpa [readResponse, left, memcached_response] using hless

/-- One response: its code, and the handle after it. -/
abbrev Response (n : Nat) := memcached_return_t × memcached_st n

/-- The responses that a fetch reads, up to the first that ends it. -/
def responsesUpTo (net : Network n) : Nat → memcached_st n → List (Response n)
  | 0, _ => []
  | fuel + 1, ptr =>
    match turn net ptr with
    | none => []
    | some (_, rc, ptr) => (rc, ptr) :: if goesOn rc then responsesUpTo net fuel ptr else []

/-- All of them: each one that the fetch reads on after has taken a byte. -/
def responses (net : Network n) (ptr : memcached_st n) : List (Response n) :=
  responsesUpTo net (ptr.unread + 1) ptr

theorem responsesUpTo_same (net : Network n) (fuel more : Nat) (ptr : memcached_st n)
    (h : ptr.unread < fuel) (h' : ptr.unread < more) :
    responsesUpTo net fuel ptr = responsesUpTo net more ptr := by
  induction fuel generalizing ptr more with
  | zero => omega
  | succ fuel ih =>
    obtain ⟨more, rfl⟩ : ∃ k, more = k + 1 := ⟨more - 1, by omega⟩
    unfold responsesUpTo
    rcases hturn : turn net ptr with _ | ⟨s, rc, ptr'⟩
    · rfl
    · simp only
      by_cases hon : goesOn rc = true
      · have hless := turn_fewer hturn hon
        rw [if_pos hon, if_pos hon, ih more ptr' (by omega) (by omega)]
      · rw [if_neg hon, if_neg hon]

theorem responses_none {net : Network n} {ptr : memcached_st n} (h : turn net ptr = none) :
    responses net ptr = [] := by
  unfold responses responsesUpTo
  rw [h]

theorem responses_some {net : Network n} {ptr ptr' : memcached_st n} {s : Fin n}
    {rc : memcached_return_t} (h : turn net ptr = some (s, rc, ptr')) :
    responses net ptr = (rc, ptr') :: if goesOn rc then responses net ptr' else [] := by
  have hfirst : responses net ptr =
      (rc, ptr') :: if goesOn rc then responsesUpTo net ptr.unread ptr' else [] := by
    unfold responses
    rw [responsesUpTo, h]
  rw [hfirst]
  by_cases hon : goesOn rc = true
  · have hless := turn_fewer h hon
    rw [if_pos hon, if_pos hon]
    congr 1
    exact responsesUpTo_same net _ _ ptr' hless (Nat.lt_succ_self _)
  · rw [if_neg hon, if_neg hon]

/-- The last code of the responses, or `error` when there is none. -/
def endCode (error : memcached_return_t) (rs : List (Response n)) : memcached_return_t :=
  rs.foldl (fun _ r => r.1) error

/-- The result buffer at each result. -/
def resultsIn (rs : List (Response n)) : List memcached_result_st :=
  (rs.filter fun r => r.1 = SUCCESS).map (·.2.result)

theorem resultsIn_skip {skipped : List (Response n)} (h : ∀ r ∈ skipped, r.1 ≠ SUCCESS)
    (ptr : memcached_st n) (rs : List (Response n)) :
    resultsIn (skipped ++ (SUCCESS, ptr) :: rs) = ptr.result :: resultsIn rs := by
  have hnone : skipped.filter (fun r => r.1 = SUCCESS) = [] :=
    List.filter_eq_nil_iff.mpr fun r hr => by simpa using h r hr
  simp [resultsIn, hnone]

theorem endCode_skip (error : memcached_return_t) (skipped : List (Response n))
    (ptr : memcached_st n) (rs : List (Response n)) :
    endCode error (skipped ++ (SUCCESS, ptr) :: rs) = endCode SUCCESS rs := by
  simp [endCode, List.foldl_append]

/-! ## What the loops make of them -/

/-- What `memcached_fetch_result` does when `error` is the code so far: it
reads up to the next result, or all responses. -/
inductive FetchedNext (net : Network n) (ptr : memcached_st n) (error : memcached_return_t) :
    Bool × memcached_st n × memcached_return_t → Prop
  | result (skipped : List (Response n)) {ptr' : memcached_st n}
      (hskipped : ∀ r ∈ skipped, r.1 ≠ SUCCESS) (hfewer : ptr'.unread < ptr.unread)
      (hrest : responses net ptr = skipped ++ (SUCCESS, ptr') :: responses net ptr') :
      FetchedNext net ptr error (true, ptr', SUCCESS)
  | nothing (ptr' : memcached_st n) (hskipped : ∀ r ∈ responses net ptr, r.1 ≠ SUCCESS) :
      FetchedNext net ptr error (false, ptr', endCode error (responses net ptr))

theorem fetchResultLoop_responses {net : Network n} (fuel : Nat) (ptr : memcached_st n)
    (error : memcached_return_t) (hfuel : ptr.unread < fuel) :
    FetchedNext net ptr error (fetchResultLoop net fuel ptr error) := by
  induction fuel generalizing ptr error with
  | zero => omega
  | succ fuel ih =>
    rcases hturn : turn net ptr with _ | ⟨s, rc, ptr'⟩
    · obtain ⟨k, hk⟩ := fetchResultLoop_none fuel error hturn
      have hnil := responses_none hturn
      have hstop : FetchedNext net ptr error
          (false, fetchNothing { ptr with polls := k }, endCode error (responses net ptr)) := by
        apply FetchedNext.nothing
        simp [hnil]
      rw [hnil] at hstop
      rw [hk]
      exact hstop
    · have hresponses := responses_some hturn
      rw [fetchResultLoop_some fuel error hturn]
      by_cases hsuccess : rc = SUCCESS
      · subst hsuccess
        rw [if_pos rfl]
        exact .result [] (by simp) (turn_fewer hturn rfl) hresponses
      · rw [if_neg hsuccess]
        by_cases hmore : rc = END ∨ rc = NOTFOUND
        · have hon : goesOn rc = true := by rcases hmore with rfl | rfl <;> rfl
          rw [if_pos hmore]
          rw [if_pos hon] at hresponses
          have hnext := ih ptr' rc (by have := turn_fewer hturn hon; omega)
          generalize fetchResultLoop net fuel ptr' rc = out at hnext
          cases hnext with
          | result skipped hskipped hfewer hrest =>
            refine .result ((rc, ptr') :: skipped) ?_ (hfewer.trans (turn_fewer hturn hon)) ?_
            · intro r hr
              rcases List.mem_cons.mp hr with rfl | hr
              · exact hsuccess
              · exact hskipped r hr
            · rw [hresponses, hrest, List.cons_append]
          | nothing ptr'' hskipped =>
            have hcode : endCode rc (responses net ptr') = endCode error (responses net ptr) := by
              rw [hresponses]
              rfl
            rw [hcode]
            apply FetchedNext.nothing
            intro r hr
            rw [hresponses] at hr
            rcases List.mem_cons.mp hr with rfl | hr
            · exact hsuccess
            · exact hskipped r hr
        · have hoff : goesOn rc = false := by
            cases rc <;> first | rfl | exact absurd rfl hsuccess | exact absurd (by simp) hmore
          rw [if_neg hmore]
          rw [hoff, if_neg Bool.false_ne_true] at hresponses
          have hcode : rc = endCode error (responses net ptr) := by
            rw [hresponses]
            rfl
          have hstop : FetchedNext net ptr error
              (false, fetchNothing ptr', endCode error (responses net ptr)) := by
            apply FetchedNext.nothing
            intro r hr
            rw [hresponses, List.mem_singleton] at hr
            rw [hr]
            exact hsuccess
          rwa [← hcode] at hstop

/-- What `memcached_fetch_execute` does with callbacks that return
MEMCACHED_SUCCESS or die: they take the results in order. -/
inductive Handed (callbacks : List (Callback σ)) (rs : List (Response n)) (context : σ)
    (error : memcached_return_t) : Executed n σ → Prop
  | returned (ptr : memcached_st n) {context' : σ}
      (hcall : callAll callbacks (resultsIn rs) context = .returned SUCCESS context') :
      Handed callbacks rs context error (.returned ptr context' (endCode error rs))
  | died (ptr : memcached_st n) {context' : σ}
      (hcall : callAll callbacks (resultsIn rs) context = .died context') :
      Handed callbacks rs context error (.died ptr context')

theorem fetchExecuteLoop_responses {net : Network n} {callbacks : List (Callback σ)}
    (hplain : Plain callbacks) (fuel : Nat) (ptr : memcached_st n) (context : σ)
    (error : memcached_return_t) (hfuel : ptr.unread < fuel) :
    Handed callbacks (responses net ptr) context error
      (fetchExecuteLoop net callbacks fuel ptr context error) := by
  induction fuel generalizing ptr context error with
  | zero => omega
  | succ fuel ih =>
    have hfetch : FetchedNext net ptr error (memcached_fetch_result net ptr error) :=
      fetchResultLoop_responses _ ptr error (Nat.lt_succ_self _)
    rw [fetchExecuteLoop]
    generalize memcached_fetch_result net ptr error = out at hfetch
    cases hfetch with
    | nothing ptr' hskipped =>
      have hnone : resultsIn (responses net ptr) = [] := by
        unfold resultsIn
        rw [List.filter_eq_nil_iff.mpr fun r hr => by simpa using hskipped r hr, List.map_nil]
      apply Handed.returned
      rw [hnone]
      rfl
    | @result skipped ptr' hskipped hfewer hrest =>
      have hresults := resultsIn_skip hskipped ptr' (responses net ptr')
      have hcode := endCode_skip error skipped ptr' (responses net ptr')
      rw [← hrest] at hresults hcode
      simp only [if_true]
      rcases hcall : runCallbacks callbacks ptr'.result context with ⟨rc, context₁⟩ | context₁
      · obtain rfl := hplain _ _ _ _ hcall
        have hnext := ih ptr' context₁ SUCCESS (by omega)
        simp only
        generalize fetchExecuteLoop net callbacks fuel ptr' context₁ SUCCESS = out at hnext
        cases hnext with
        | returned ptr'' hcalls =>
          rw [← hcode]
          apply Handed.returned
          rw [hresults, callAll, hcall]
          exact hcalls
        | died ptr'' hcalls =>
          apply Handed.died
          rw [hresults, callAll, hcall]
          exact hcalls
      · apply Handed.died
        rw [hresults, callAll, hcall]

/-- The spec of `memcached_fetch_execute` on a handle in any state. -/
theorem fetch_execute_responses (net : Network n) (ptr : memcached_st n)
    {callbacks : List (Callback σ)} (hplain : Plain callbacks) (context : σ) :
    Handed callbacks (responses net ptr) context FAILURE
      (memcached_fetch_execute net ptr callbacks context) :=
  fetchExecuteLoop_responses hplain _ ptr context FAILURE (Nat.lt_succ_self _)

end Libmemcached
