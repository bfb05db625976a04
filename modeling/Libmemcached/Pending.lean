-- A handle that is in step with its hosts: each host owes nothing, or one
-- answer that the handle waits for. Reading a response takes one reply from
-- the queue of one host, in both protocols.
import Libmemcached.Fetch
import Libmemcached.Replies
import Libmemcached.Lib.Queues

open Chunks Queues

namespace Libmemcached

open memcached_return_t memcached_server_st

variable {n : Nat}

/-! ## One host -/

/-- The host owes nothing, and nothing of it is buffered. -/
structure Quiet (host : memcached_server_st) : Prop where
  count : host.cursor_active = 0
  input : host.input.bytes = []
  written : host.write_buffer = []

/-- The host owes one answer: the replies of the queue, then the end marker,
or a fault of the socket before the answer is whole. -/
structure Owes (withCas : Bool) (p : Protocol) (host : memcached_server_st) (q : Queue Reply) :
    Prop where
  connected : host.fd = true
  count : host.cursor_active = 1
  written : host.write_buffer = []
  valid : ∀ r ∈ q.items, ValidKey r.key
  input : ∃ tail, host.input.bytes = q.items.flatMap (render withCas p) ++ tail ∧
    if q.whole then tail = renderEnd p else Cut withCas p tail

/-- The host is where the queue says. -/
def InStep (withCas : Bool) (p : Protocol) (host : memcached_server_st) :
    Option (Queue Reply) → Prop
  | none => Quiet host
  | some q => Owes withCas p host q

theorem quiet_init : Quiet .init := ⟨rfl, rfl, rfl⟩

theorem quiet_quit (host : memcached_server_st) : Quiet (memcached_quit_server host) :=
  ⟨rfl, rfl, rfl⟩

theorem inStep_count {withCas : Bool} {p : Protocol} {host : memcached_server_st}
    {o : Option (Queue Reply)} (h : InStep withCas p host o) :
    host.cursor_active = if o.isSome then 1 else 0 := by
  cases o with
  | none => exact Quiet.count h
  | some q => exact Owes.count h

/-! ## One response of one host -/

theorem purgePending_one (fuel : Nat) (p : Protocol) (ptr : memcached_server_st)
    (buffer_length : Nat) (result : memcached_result_st) (h : ptr.cursor_active = 1) :
    purgePending fuel p ptr buffer_length result =
      memcached_read_one_response p ptr buffer_length result := by
  cases fuel with
  | zero => rfl
  | succ fuel => rw [purgePending, if_neg (by omega)]

/-- With one response pending, `memcached_response` reads just that one. -/
theorem memcached_response_one (p : Protocol) (ptr : memcached_server_st) (buffer_length : Nat)
    (result : memcached_result_st) (h : ptr.cursor_active = 1) :
    memcached_response p ptr buffer_length result =
      memcached_read_one_response p ptr buffer_length result :=
  purgePending_one _ p ptr buffer_length result h

/-- A reply at the head of the bytes is read whole, and the count of the
responses stays. -/
theorem read_reply (withCas : Bool) (p : Protocol) (ptr : memcached_server_st)
    (buffer_length : Nat) (result : memcached_result_st) (r : Reply) (rest : Bytes)
    (hcount : ptr.cursor_active ≤ UINT32_MAX) (hkey : ValidKey r.key)
    (h : ptr.input.bytes = render withCas p r ++ rest) :
    ∃ input, memcached_read_one_response p ptr buffer_length result =
        (SUCCESS, { ptr with input }, storeReply withCas p result r) ∧ input.bytes = rest := by
  have hback := response_decrement_increment ptr hcount
  cases p with
  | text =>
    obtain ⟨j, hr, hj⟩ := textual_read_reply withCas ptr.response_decrement result r rest hkey h
    rw [hback] at hr
    exact ⟨j, by simp [memcached_read_one_response, hr, outOfStep], hj⟩
  | binary =>
    obtain ⟨j, hr, hj⟩ := binary_read_reply ptr.input.bytes.length ptr.response_decrement
      buffer_length result r rest hkey h
    rw [hback] at hr
    exact ⟨j, by simp [memcached_read_one_response, hr, outOfStep, storeReply], hj⟩

/-- The end marker at the head of the bytes counts one response off. -/
theorem read_end (p : Protocol) (ptr : memcached_server_st) (buffer_length : Nat)
    (result : memcached_result_st) (rest : Bytes) (h : ptr.input.bytes = renderEnd p ++ rest) :
    ∃ input, memcached_read_one_response p ptr buffer_length result =
        (END, { ptr.response_decrement with input }, result) ∧ input.bytes = rest := by
  cases p with
  | text =>
    obtain ⟨j, hr, hj⟩ := textual_read_end ptr.response_decrement result rest h
    exact ⟨j, by simp [memcached_read_one_response, hr, outOfStep], hj⟩
  | binary =>
    obtain ⟨j, hr, hj⟩ := binary_read_end ptr.input.bytes.length ptr.response_decrement
      buffer_length result rest h
    exact ⟨j, by simp [memcached_read_one_response, hr, outOfStep], hj⟩

/-- An answer that breaks off closes the connection. -/
theorem read_cut (withCas : Bool) (p : Protocol) (ptr : memcached_server_st) (buffer_length : Nat)
    (result : memcached_result_st) (h : Cut withCas p ptr.input.bytes) :
    ∃ rc result', isReadError rc = true ∧
      memcached_read_one_response p ptr buffer_length result =
        (rc, memcached_quit_server ptr, result') := by
  have hreset : ∀ rc result', (if outOfStep rc then
      ((rc, memcached_io_reset (memcached_quit_server ptr), result') : Reading)
      else (rc, memcached_quit_server ptr, result')) = (rc, memcached_quit_server ptr, result') := by
    intro rc result'
    split <;> rfl
  cases p with
  | text =>
    obtain ⟨result', hr⟩ := textual_read_cut withCas ptr.response_decrement result h
    refine ⟨_, result', isReadError_fault ptr.fault, ?_⟩
    simp only [memcached_read_one_response, hr]
    exact hreset _ _
  | binary =>
    obtain ⟨rc, result', hrc, hr⟩ := binary_read_cut ptr.response_decrement.input.bytes.length
      withCas ptr.response_decrement buffer_length result h
    refine ⟨rc, result', hrc, ?_⟩
    simp only [memcached_read_one_response, hr]
    exact hreset _ _

/-! ## The queue of a host -/

section host

variable {withCas : Bool} {p : Protocol} {host : memcached_server_st}
variable (buffer_length : Nat) (result : memcached_result_st)

theorem response_item {r : Reply} {rs : List Reply} {w : Bool}
    (h : Owes withCas p host ⟨r :: rs, w⟩) :
    ∃ host', memcached_response p host buffer_length result =
        (SUCCESS, host', storeReply withCas p result r) ∧ Owes withCas p host' ⟨rs, w⟩ ∧
      host'.input.bytes.length < host.input.bytes.length := by
  obtain ⟨tail, htail, hend⟩ := h.input
  rw [List.flatMap_cons, List.append_assoc] at htail
  obtain ⟨j, hr, hj⟩ := read_reply withCas p host buffer_length result r _
    (by rw [h.count]; decide) (h.valid r (by simp)) htail
  refine ⟨{ host with input := j }, ?_, ?_, ?_⟩
  · rw [memcached_response_one _ _ _ _ h.count, hr]
  · exact ⟨h.connected, h.count, h.written, fun x hx => h.valid x (by simp [hx]), tail, hj, hend⟩
  · have := render_length_pos withCas p r
    simp only [hj, htail, List.length_append]
    omega

theorem response_end (h : Owes withCas p host ⟨[], true⟩) :
    ∃ host', memcached_response p host buffer_length result = (END, host', result) ∧
      Quiet host' ∧ host'.fd = true ∧
      host'.input.bytes.length < host.input.bytes.length := by
  obtain ⟨tail, htail, hend⟩ := h.input
  simp only [List.flatMap_nil, List.nil_append, if_true] at htail hend
  obtain ⟨j, hr, hj⟩ := read_end p host buffer_length result [] (by simp [htail, hend])
  refine ⟨{ host.response_decrement with input := j }, ?_, ⟨?_, hj, h.written⟩, h.connected, ?_⟩
  · rw [memcached_response_one _ _ _ _ h.count, hr]
  · simp [response_decrement, h.count]
  · have := renderEnd_length_pos p
    simp only [hj, htail, hend, List.length_nil]
    omega

theorem response_cut (h : Owes withCas p host ⟨[], false⟩) :
    ∃ rc result', isReadError rc = true ∧
      memcached_response p host buffer_length result =
        (rc, memcached_quit_server host, result') := by
  obtain ⟨tail, htail, hend⟩ := h.input
  simp only [List.flatMap_nil, List.nil_append, Bool.false_eq_true, if_false] at htail hend
  obtain ⟨rc, result', hrc, hr⟩ := read_cut withCas p host buffer_length result (by rwa [htail])
  exact ⟨rc, result', hrc, by rw [memcached_response_one _ _ _ _ h.count, hr]⟩

end host

/-! ## All hosts of a handle -/

/-- The handle is in step with its hosts. Only a text host names the cas, and
only when it is asked to. -/
def Synced (ptr : memcached_st n) (q : State (Fin n) Reply) : Prop :=
  ∀ s, InStep ptr.support_cas ptr.protocol (ptr.servers s) (q s)

theorem Synced.count {ptr : memcached_st n} {q : State (Fin n) Reply} (h : Synced ptr q)
    (s : Fin n) : (ptr.servers s).cursor_active = if (q s).isSome then 1 else 0 :=
  inStep_count (h s)

theorem synced_create (routing : Routing n) (p : Protocol) :
    Synced (memcached_st.create routing p) fun _ => none :=
  fun _ => quiet_init

/-- A change of one host. -/
theorem Synced.setServer {ptr : memcached_st n} {q : State (Fin n) Reply} (h : Synced ptr q)
    (s : Fin n) (host : memcached_server_st) (o : Option (Queue Reply))
    (ho : InStep ptr.support_cas ptr.protocol host o) :
    Synced (ptr.setServer s host) (Function.update q s o) := by
  intro t
  by_cases ht : t = s
  · subst ht
    simpa using ho
  · rw [Function.update_of_ne ht, memcached_st.setServer_of_ne _ _ ht]
    exact h t

/-- Neither the result buffer nor the number of polls matters. -/
theorem Synced.frame {ptr ptr' : memcached_st n} {q : State (Fin n) Reply} (h : Synced ptr q)
    (hs : ptr'.servers = ptr.servers) (hc : ptr'.support_cas = ptr.support_cas)
    (hp : ptr'.protocol = ptr.protocol) : Synced ptr' q := by
  intro s
  rw [hs, hc, hp]
  exact h s

end Libmemcached
