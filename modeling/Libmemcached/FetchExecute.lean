-- What memcached_fetch_execute hands to its callbacks: every reply once, in
-- the order in which the hosts deliver them, until the fetch stops or a
-- callback dies.
import Libmemcached.FetchRuns

open Chunks Queues

namespace Libmemcached

open memcached_return_t memcached_server_st

variable {n : Nat} {σ : Type}

/-- The result buffer at each of a list of replies. -/
def resultsOf (withCas : Bool) (p : Protocol) : memcached_result_st → List Reply →
    List memcached_result_st
  | _, [] => []
  | result, r :: rs =>
    storeReply withCas p result r :: resultsOf withCas p (storeReply withCas p result r) rs

/-- The result buffer at each reply of a run. -/
def results (ptr : memcached_st n) (es : List (Event (Fin n) Reply)) : List memcached_result_st :=
  resultsOf ptr.support_cas ptr.protocol ptr.result ((delivered es).map (·.2))

theorem resultsOf_append (withCas : Bool) (p : Protocol) (result : memcached_result_st)
    (rs ts : List Reply) :
    resultsOf withCas p result (rs ++ ts) = resultsOf withCas p result rs ++
      resultsOf withCas p (rs.foldl (storeReply withCas p) result) ts := by
  induction rs generalizing result with
  | nil => rfl
  | cons r rs ih => simp [resultsOf, ih]

theorem Run.results_append {net : Network n} {ptr ptr' : memcached_st n}
    {q q' : State (Fin n) Reply} {es : List (Event (Fin n) Reply)} (h : Run net ptr q es ptr' q')
    (fs : List (Event (Fin n) Reply)) : results ptr (es ++ fs) = results ptr es ++ results ptr' fs := by
  rw [results, delivered_append, List.map_append, resultsOf_append, ← h.result_eq]
  simp only [results, h.config.support_cas, h.config.protocol]

/-- The result buffer holds the key, the value and the flags of a reply. -/
structure Holds (result : memcached_result_st) (r : Reply) : Prop where
  key : result.item_key = r.key
  value : result.value.bytes = r.item.value
  flags : result.item_flags = r.item.flags

theorem storeReply_holds (withCas : Bool) (p : Protocol) (result : memcached_result_st)
    (r : Reply) : Holds (storeReply withCas p result r) r := by
  cases p <;> exact ⟨rfl, rfl, rfl⟩

/-- Each reply is in the result buffer once it is delivered. -/
theorem exists_resultsOf (withCas : Bool) (p : Protocol) (result : memcached_result_st)
    {rs : List Reply} {r : Reply} (h : r ∈ rs) :
    ∃ x ∈ resultsOf withCas p result rs, Holds x r := by
  induction rs generalizing result with
  | nil => simp at h
  | cons t ts ih =>
    rcases List.mem_cons.mp h with rfl | h
    · exact ⟨_, List.mem_cons_self .., storeReply_holds withCas p result r⟩
    · obtain ⟨x, hx, hr⟩ := ih (storeReply withCas p result t) h
      exact ⟨x, List.mem_cons_of_mem _ hx, hr⟩

/-- Each delivered result holds one of the replies. -/
theorem of_mem_resultsOf (withCas : Bool) (p : Protocol) (result : memcached_result_st)
    {rs : List Reply} {x : memcached_result_st} (h : x ∈ resultsOf withCas p result rs) :
    ∃ r ∈ rs, Holds x r := by
  induction rs generalizing result with
  | nil => simp [resultsOf] at h
  | cons t ts ih =>
    rcases List.mem_cons.mp h with rfl | h
    · exact ⟨t, List.mem_cons_self .., storeReply_holds withCas p result t⟩
    · obtain ⟨r, hr, hx⟩ := ih _ h
      exact ⟨r, List.mem_cons_of_mem _ hr, hx⟩

/-- The callbacks, for one result after the other, until one of them dies. -/
def callAll (callbacks : List (Callback σ)) : List memcached_result_st → σ → Called σ
  | [], context => .returned SUCCESS context
  | result :: results, context =>
    match runCallbacks callbacks result context with
    | .returned _ context => callAll callbacks results context
    | .died context => .died context

theorem callAll_append (callbacks : List (Callback σ)) (xs ys : List memcached_result_st)
    {context context' : σ} (h : callAll callbacks xs context = .returned SUCCESS context') :
    callAll callbacks (xs ++ ys) context = callAll callbacks ys context' := by
  induction xs generalizing context with
  | nil => simp only [callAll, Called.returned.injEq, true_and] at h; rw [List.nil_append, h]
  | cons x xs ih =>
    rw [List.cons_append, callAll]
    rw [callAll] at h
    split
    · rename_i hx
      rw [hx] at h
      exact ih h
    · rename_i hx
      rw [hx] at h
      cases h

/-- Callbacks that return MEMCACHED_SUCCESS, or die. -/
def Plain (callbacks : List (Callback σ)) : Prop :=
  ∀ result context rc context',
    runCallbacks callbacks result context = .returned rc context' → rc = SUCCESS

/-- A callback that returns MEMCACHED_SUCCESS, or dies. -/
def SucceedsOrDies (callback : Callback σ) : Prop :=
  ∀ result context, ∃ context',
    callback result context = .returned SUCCESS context' ∨ callback result context = .died context'

theorem plain_of_each {callbacks : List (Callback σ)}
    (h : ∀ callback ∈ callbacks, SucceedsOrDies callback) : Plain callbacks := by
  induction callbacks with
  | nil =>
    intro result context rc context' hrun
    cases hrun
    rfl
  | cons callback callbacks ih =>
    intro result context rc context' hrun
    obtain ⟨context₁, hone⟩ := h callback (List.mem_cons_self ..) result context
    rw [runCallbacks] at hrun
    rcases hone with hone | hone <;> rw [hone] at hrun
    · exact ih (fun other hother => h other (List.mem_cons_of_mem _ hother)) _ _ _ _ hrun
    · cases hrun

/-- What `memcached_fetch_execute` does when `error` is the code so far. -/
inductive Execution (net : Network n) (callbacks : List (Callback σ)) (ptr : memcached_st n)
    (q : State (Fin n) Reply) (context : σ) (error : memcached_return_t) : Executed n σ → Prop
  | returned (es : List (Event (Fin n) Reply)) {ptr₁ ptr' : memcached_st n}
      {q₁ : State (Fin n) Reply} (q' : State (Fin n) Reply) {context' : σ}
      {rc : memcached_return_t}
      (hrun : Run net ptr q es ptr₁ q₁)
      (hcall : callAll callbacks (results ptr es) context = .returned SUCCESS context')
      (hstop : Stopped net ptr₁ q₁ (codeAfter error es) ptr' q' rc) :
      Execution net callbacks ptr q context error (.returned ptr' context' rc)
  | died (es : List (Event (Fin n) Reply)) (s : Fin n) (r : Reply) {ptr' : memcached_st n}
      (q' : State (Fin n) Reply) {context₁ context' : σ}
      (hrun : Run net ptr q (es ++ [.item s r]) ptr' q')
      (hcall : callAll callbacks (results ptr es) context = .returned SUCCESS context₁)
      (hdied : runCallbacks callbacks ptr'.result context₁ = .died context') :
      Execution net callbacks ptr q context error (.died ptr' context')

/-- The rest of an execution, after a run whose results were all handed out. -/
theorem Execution.after_run {net : Network n} {callbacks : List (Callback σ)}
    {ptr ptr' : memcached_st n} {q q' : State (Fin n) Reply} {context context₁ : σ}
    {error : memcached_return_t} {es : List (Event (Fin n) Reply)} {out : Executed n σ}
    (hrun : Run net ptr q es ptr' q')
    (hcall : callAll callbacks (results ptr es) context = .returned SUCCESS context₁)
    (h : Execution net callbacks ptr' q' context₁ (codeAfter error es) out) :
    Execution net callbacks ptr q context error out := by
  cases h with
  | returned fs q₂ hrun' hcall' hstop =>
    refine .returned (es ++ fs) q₂ (hrun.trans hrun') ?_ ?_
    · rw [hrun.results_append, callAll_append _ _ _ hcall, hcall']
    · rw [codeAfter_append]; exact hstop
  | died fs s r q₂ hrun' hcall' hdied =>
    refine .died (es ++ fs) s r q₂ ?_ ?_ hdied
    · rw [List.append_assoc]; exact hrun.trans hrun'
    · rw [hrun.results_append, callAll_append _ _ _ hcall, hcall']

theorem results_one (ptr : memcached_st n) (ss : List (Fin n)) (s : Fin n) (r : Reply) :
    results ptr (ss.map Event.close ++ [.item s r]) =
      [storeReply ptr.support_cas ptr.protocol ptr.result r] := by
  simp [results, delivered, resultsOf]

theorem fetchExecuteLoop_run {net : Network n} {callbacks : List (Callback σ)}
    (hplain : Plain callbacks) (fuel : Nat) {ptr : memcached_st n} {q : State (Fin n) Reply}
    (context : σ) (error : memcached_return_t) (h : Synced ptr q) (hfuel : ptr.unread < fuel) :
    Execution net callbacks ptr q context error
      (fetchExecuteLoop net callbacks fuel ptr context error) := by
  induction fuel generalizing ptr q context error with
  | zero => omega
  | succ fuel ih =>
    have hfetch := fetch_result_run net error h
    rw [fetchExecuteLoop]
    generalize memcached_fetch_result net ptr error = out at hfetch ⊢
    cases hfetch with
    | @stopped ss ptr₁ ptr' q₁ q' rc hrun hstop =>
      exact .returned _ q' hrun (by simp [results, resultsOf, callAll]) hstop
    | @result ss s r ptr' q' hrun =>
      have hlast : ptr'.result = storeReply ptr.support_cas ptr.protocol ptr.result r := by
        simp [hrun.result_eq, delivered]
      simp only [if_true]
      rcases hcb : runCallbacks callbacks ptr'.result context with ⟨rc, context₁⟩ | context₁
      · obtain rfl := hplain _ _ _ _ hcb
        have hless : ptr'.unread < fuel := by
          have := hrun.unread_le
          simp only [List.length_append, List.length_cons] at this
          omega
        have hcall : callAll callbacks (results ptr (ss.map Event.close ++ [.item s r])) context =
            .returned SUCCESS context₁ := by
          rw [results_one, ← hlast, callAll, hcb]; rfl
        refine .after_run hrun hcall ?_
        · have hcode : codeAfter error (ss.map Event.close ++ [.item s r]) = SUCCESS := by
            rw [codeAfter_append]; rfl
          rw [hcode]
          exact ih context₁ SUCCESS hrun.synced hless
      · refine .died (ss.map Event.close) s r q' hrun ?_ hcb
        simp [results, resultsOf, callAll]

/-- The spec of `memcached_fetch_execute` on a handle that is in step. -/
theorem fetch_execute_run {ptr : memcached_st n} {q : State (Fin n) Reply} (net : Network n)
    {callbacks : List (Callback σ)} (hplain : Plain callbacks) (context : σ) (h : Synced ptr q) :
    Execution net callbacks ptr q context FAILURE
      (memcached_fetch_execute net ptr callbacks context) :=
  fetchExecuteLoop_run hplain _ context FAILURE h (Nat.lt_succ_self _)

/-! ## Callbacks that never stop the fetch -/

/-- On contexts that satisfy `I`, the callbacks all return MEMCACHED_SUCCESS
and do what `step` says. -/
structure Steady {σ : Type} (callbacks : List (Callback σ)) (I : σ → Prop)
    (step : σ → memcached_result_st → σ) : Prop where
  run : ∀ result context, I context →
    runCallbacks callbacks result context = .returned SUCCESS (step context result)
  keep : ∀ result context, I context → I (step context result)

/-- The order in which results arrive does not depend on steady callbacks:
each takes the same results, one after the other. -/
theorem fetchExecuteLoop_foldl (net : Network n) (fuel : Nat) (ptr : memcached_st n)
    (error : memcached_return_t) :
    ∃ (ptr' : memcached_st n) (rs : List memcached_result_st) (rc : memcached_return_t),
      ∀ (σ : Type) (callbacks : List (Callback σ)) (I : σ → Prop)
        (step : σ → memcached_result_st → σ), Steady callbacks I step →
      ∀ context, I context → fetchExecuteLoop net callbacks fuel ptr context error =
        .returned ptr' (rs.foldl step context) rc := by
  induction fuel generalizing ptr error with
  | zero => exact ⟨ptr, [], error, fun _ _ _ _ _ _ _ => rfl⟩
  | succ fuel ih =>
    rcases hf : memcached_fetch_result net ptr error with ⟨_ | _, ptr₁, rc₁⟩
    · refine ⟨ptr₁, [], rc₁, fun σ callbacks I step _ context _ => ?_⟩
      simp only [fetchExecuteLoop, hf, List.foldl_nil]
    · by_cases hrc : rc₁ = SUCCESS
      · obtain ⟨ptr', rs, rc, h⟩ := ih ptr₁ SUCCESS
        refine ⟨ptr', ptr₁.result :: rs, rc, fun σ callbacks I step hstep context hI => ?_⟩
        simp only [fetchExecuteLoop, hf, hrc, if_true, hstep.run _ _ hI, List.foldl_cons]
        exact h σ callbacks I step hstep _ (hstep.keep _ _ hI)
      · obtain ⟨ptr', rs, rc, h⟩ := ih ptr₁ rc₁
        refine ⟨ptr', rs, rc, fun σ callbacks I step hstep context hI => ?_⟩
        simp only [fetchExecuteLoop, hf, hrc, if_false]
        exact h σ callbacks I step hstep _ hI

/-- A callback that notes each result. -/
def noteResult : Callback (List memcached_result_st) := fun result seen =>
  .returned SUCCESS (seen ++ [result])

/-- The results that `memcached_fetch_execute` hands to its callbacks. -/
def deliveries (net : Network n) (ptr : memcached_st n) : List memcached_result_st :=
  match memcached_fetch_execute net ptr [noteResult] [] with
  | .returned _ seen _ | .died _ seen => seen

theorem foldl_note (rs seen : List memcached_result_st) :
    rs.foldl (fun seen r => seen ++ [r]) seen = seen ++ rs := by
  induction rs generalizing seen with
  | nil => simp
  | cons r rs ih => rw [List.foldl_cons, ih]; simp

/-- Steady callbacks take the deliveries, one after the other. -/
theorem fetch_execute_foldl (net : Network n) (ptr : memcached_st n) :
    ∃ (ptr' : memcached_st n) (rc : memcached_return_t),
      ∀ (σ : Type) (callbacks : List (Callback σ)) (I : σ → Prop)
        (step : σ → memcached_result_st → σ), Steady callbacks I step →
      ∀ context, I context → memcached_fetch_execute net ptr callbacks context =
        .returned ptr' ((deliveries net ptr).foldl step context) rc := by
  obtain ⟨ptr', rs, rc, h⟩ := fetchExecuteLoop_foldl net (ptr.unread + 1) ptr FAILURE
  have hnote := h _ [noteResult] (fun _ => True) (fun seen r => seen ++ [r])
    ⟨fun _ _ _ => rfl, fun _ _ _ => trivial⟩ [] trivial
  have hdel : deliveries net ptr = rs := by
    rw [deliveries, memcached_fetch_execute, hnote, foldl_note, List.nil_append]
  exact ⟨ptr', rc, fun σ callbacks I step hstep context hI => by
    rw [hdel]; exact h σ callbacks I step hstep context hI⟩

/-- The context that an execution leaves, however it ends. -/
def Executed.context : Executed n σ → σ
  | .returned _ context _ | .died _ context => context

/-- The context that callbacks leave, however they end. -/
def Called.context : Called σ → σ
  | .returned _ context | .died context => context

/-- Callbacks that return MEMCACHED_SUCCESS or die are called for the same
results as any others, up to the one that they die of. -/
theorem fetchExecuteLoop_callAll (net : Network n) (fuel : Nat) (ptr : memcached_st n)
    (error : memcached_return_t) :
    ∃ rs : List memcached_result_st, ∀ (σ : Type) (callbacks : List (Callback σ)),
      Plain callbacks → ∀ context, (fetchExecuteLoop net callbacks fuel ptr context error).context =
        (callAll callbacks rs context).context := by
  induction fuel generalizing ptr error with
  | zero => exact ⟨[], fun _ _ _ _ => rfl⟩
  | succ fuel ih =>
    rcases hf : memcached_fetch_result net ptr error with ⟨_ | _, ptr₁, rc₁⟩
    · refine ⟨[], fun σ callbacks _ context => ?_⟩
      simp only [fetchExecuteLoop, hf]
      rfl
    · by_cases hrc : rc₁ = SUCCESS
      · obtain ⟨rs, h⟩ := ih ptr₁ SUCCESS
        refine ⟨ptr₁.result :: rs, fun σ callbacks hplain context => ?_⟩
        simp only [fetchExecuteLoop, hf, hrc, if_true, callAll]
        rcases hcall : runCallbacks callbacks ptr₁.result context with ⟨rc, context₁⟩ | context₁
        · obtain rfl := hplain _ _ _ _ hcall
          exact h σ callbacks hplain context₁
        · rfl
      · obtain ⟨rs, h⟩ := ih ptr₁ rc₁
        refine ⟨rs, fun σ callbacks hplain context => ?_⟩
        simp only [fetchExecuteLoop, hf, hrc, if_false]
        exact h σ callbacks hplain context

theorem plain_note : Plain [noteResult] := by
  intro result context rc context' hr
  simp only [runCallbacks, noteResult, Called.returned.injEq] at hr
  exact hr.1.symm

theorem callAll_note (xs seen : List memcached_result_st) :
    callAll [noteResult] xs seen = .returned SUCCESS (seen ++ xs) := by
  induction xs generalizing seen with
  | nil => simp [callAll]
  | cons x xs ih =>
    rw [callAll]
    simp only [runCallbacks, noteResult]
    rw [ih]
    simp

/-- The context that such callbacks leave is that of the deliveries. -/
theorem fetch_execute_callAll (net : Network n) (ptr : memcached_st n) {callbacks : List (Callback σ)}
    (hplain : Plain callbacks) (context : σ) :
    (memcached_fetch_execute net ptr callbacks context).context =
      (callAll callbacks (deliveries net ptr) context).context := by
  obtain ⟨rs, h⟩ := fetchExecuteLoop_callAll net (ptr.unread + 1) ptr FAILURE
  have hnote := h _ [noteResult] plain_note []
  rw [callAll_note, List.nil_append] at hnote
  have hdeliveries : deliveries net ptr = rs := by
    unfold deliveries memcached_fetch_execute
    rw [← show _ = rs from hnote]
    split <;> rename_i hout <;> rw [hout] <;> rfl
  rw [hdeliveries]
  exact h σ callbacks hplain context

/-- What `memcached_fetch_execute` with steady callbacks does on a handle that
is in step. -/
structure Steadily (net : Network n) (ptr : memcached_st n) (q : State (Fin n) Reply)
    (es : List (Event (Fin n) Reply)) (ptr₁ : memcached_st n) (q₁ : State (Fin n) Reply)
    (ptr' : memcached_st n) (q' : State (Fin n) Reply) (rc : memcached_return_t) : Prop where
  run : Run net ptr q es ptr₁ q₁
  stop : Stopped net ptr₁ q₁ (codeAfter FAILURE es) ptr' q' rc
  deliveries : deliveries net ptr = results ptr es
  exec : ∀ (σ : Type) (callbacks : List (Callback σ)) (I : σ → Prop)
    (step : σ → memcached_result_st → σ), Steady callbacks I step → ∀ context, I context →
      memcached_fetch_execute net ptr callbacks context =
        .returned ptr' ((results ptr es).foldl step context) rc

theorem fetch_execute_steadily (net : Network n) {ptr : memcached_st n} {q : State (Fin n) Reply}
    (h : Synced ptr q) : ∃ es ptr₁ q₁ ptr' q' rc, Steadily net ptr q es ptr₁ q₁ ptr' q' rc := by
  obtain ⟨ptr', rc, hexec⟩ := fetch_execute_foldl net ptr
  have hnote := hexec _ [noteResult] (fun _ => True) (fun seen r => seen ++ [r])
    ⟨fun _ _ _ => rfl, fun _ _ _ => trivial⟩ [] trivial
  rw [foldl_note, List.nil_append] at hnote
  have hrun := fetch_execute_run net plain_note [] h
  rw [hnote] at hrun
  cases hrun with
  | @returned es ptr₁ _ q₁ q' _ _ hrun hcall hstop =>
    rw [callAll_note, List.nil_append] at hcall
    have hdel : deliveries net ptr = results ptr es := by
      simp only [Called.returned.injEq, true_and] at hcall
      exact hcall.symm
    refine ⟨es, ptr₁, q₁, ptr', q', rc, hrun, hstop, hdel, ?_⟩
    intro σ callbacks I step hstep context hI
    rw [← hdel]
    exact hexec σ callbacks I step hstep context hI

end Libmemcached
