-- What the hosts were sent. Reading a response and fetching leave it as it is,
-- and a flush that the host takes adds one request to it.
import Libmemcached.Fetch
import Libmemcached.Requests

open Chunks

namespace Libmemcached

open memcached_return_t memcached_server_st

variable {n : Nat}

/-! ## Reading -/

theorem io_read_sent {ptr ptr' : memcached_server_st} {length : Nat} {rc : memcached_return_t}
    {bytes : Bytes} (h : memcached_io_read ptr length = (rc, bytes, ptr')) :
    ptr'.sent = ptr.sent := by
  unfold memcached_io_read at h
  split at h <;> cases h <;> rfl

theorem readline_sent (ptr : memcached_server_st) (size : Nat) :
    (memcached_io_readline ptr size).2.2.sent = ptr.sent := by
  induction size generalizing ptr with
  | zero => rfl
  | succ size ih =>
    rw [memcached_io_readline]
    rcases ptr.input.next with _ | ⟨c, input⟩
    · rfl
    · dsimp only
      split_ifs
      · rfl
      · rfl
      · exact ih { ptr with input }

/-- A value only takes from what arrived, and so do the other parts of a
response below. -/
theorem value_fetch_sent (ptr : memcached_server_st) (buffer : Bytes)
    (result : memcached_result_st) :
    (textual_value_fetch ptr buffer result).2.1.sent = ptr.sent := by
  unfold textual_value_fetch
  split
  · rfl
  · dsimp only
    split <;> rename_i hread <;> exact io_read_sent hread

theorem ite_sent {c : Prop} [Decidable c] {a b : Reading} {log : List Bytes}
    (ha : a.2.1.sent = log) (hb : b.2.1.sent = log) : (if c then a else b).2.1.sent = log := by
  split
  · exact ha
  · exact hb

theorem textual_switch_sent (ptr : memcached_server_st) (buffer : Bytes)
    (result : memcached_result_st) : (textual_switch ptr buffer result).2.1.sent = ptr.sent := by
  have hvalue := value_fetch_sent ptr.response_increment buffer result
  unfold textual_switch
  repeat' apply ite_sent
  all_goals first | rfl | exact hvalue

theorem textual_read_sent (ptr : memcached_server_st) (result : memcached_result_st) :
    (textual_read_one_response ptr result).2.1.sent = ptr.sent := by
  have hline := readline_sent ptr MEMCACHED_DEFAULT_COMMAND_SIZE
  unfold textual_read_one_response
  split
  · rename_i line ptr' hread
    rw [hread] at hline
    exact (textual_switch_sent ptr' (lineBuffer line) result).trans hline
  · rename_i rc line ptr' _ hread
    rw [hread] at hline
    exact hline

theorem read_value_sent (ptr : memcached_server_st) (result : memcached_result_st) (size : Nat) :
    (binary_read_value ptr result size).2.1.sent = ptr.sent := by
  unfold binary_read_value
  dsimp only
  split <;> rename_i hread <;> exact io_read_sent hread

theorem read_item_sent (ptr : memcached_server_st) (result : memcached_result_st)
    (header : Header) : (binary_read_item ptr result header).2.1.sent = ptr.sent := by
  unfold binary_read_item
  dsimp only
  split
  · rename_i hflags
    split
    · rename_i hkey
      exact (read_value_sent _ _ _).trans ((io_read_sent hkey).trans (io_read_sent hflags))
    · rename_i hkey
      exact (io_read_sent hkey).trans (io_read_sent hflags)
  · rename_i hflags
    exact io_read_sent hflags

theorem read_elsewhere_sent (ptr : memcached_server_st) (result : memcached_result_st)
    (size : Nat) (rc : memcached_return_t) :
    (binary_read_elsewhere ptr result size rc).2.1.sent = ptr.sent := by
  unfold binary_read_elsewhere
  split <;> rename_i hread <;> exact io_read_sent hread

theorem read_success_sent (ptr : memcached_server_st) (buffer_length : Nat)
    (result : memcached_result_st) (header : Header) :
    (binary_read_success ptr buffer_length result header).2.1.sent = ptr.sent := by
  have hincrement := read_item_sent ptr.response_increment result header
  have hitem := read_item_sent ptr result header
  have hvalue := read_value_sent ptr
    { memcached_result_reset result with item_cas := UInt64.ofNat header.cas } header.bodylen
  unfold binary_read_success
  dsimp only
  repeat' apply ite_sent
  -- the code of the status does not touch the host
  · split
    · rename_i hread
      rw [hread] at hincrement
      exact hincrement
    · exact hincrement
  · split
    · rename_i hread
      rw [hread] at hitem
      exact hitem
    · exact hitem
  · rfl
  · exact read_elsewhere_sent _ _ _ _
  · rfl
  · exact read_elsewhere_sent _ _ _ _
  · rfl
  · rfl
  · rfl
  · rfl
  · exact read_elsewhere_sent _ _ _ _
  · split
    · rename_i hread
      rw [hread] at hvalue
      exact hvalue
    · exact hvalue
  · rfl

/-- What comes behind the response of a quiet command is read as well. -/
theorem binary_read_sent (fuel : Nat) (ptr : memcached_server_st) (buffer_length : Nat)
    (result : memcached_result_st) :
    (binary_read_one_response fuel ptr buffer_length result).2.1.sent = ptr.sent := by
  induction fuel using Nat.strong_induction_on generalizing ptr with
  | _ fuel ih =>
    rw [binary_read_one_response.eq_def]
    split
    · rename_i hheader
      rw [← io_read_sent hheader]
      dsimp only
      split_ifs
      · rfl
      · exact read_success_sent _ _ _ _
      · split
        · rename_i hbody
          rw [← io_read_sent hbody]
          split
          · exact ih _ (Nat.lt_succ_self _) _
          · rfl
        · rename_i hbody
          exact io_read_sent hbody
      · rfl
    · rename_i hheader
      exact io_read_sent hheader

theorem read_one_response_sent (p : Protocol) (ptr : memcached_server_st) (buffer_length : Nat)
    (result : memcached_result_st) :
    (memcached_read_one_response p ptr buffer_length result).2.1.sent = ptr.sent := by
  unfold memcached_read_one_response
  cases p with
  | binary =>
    have hread := binary_read_sent ptr.response_decrement.input.bytes.length
      ptr.response_decrement buffer_length result
    dsimp only
    split_ifs <;> exact hread
  | text =>
    have hread := textual_read_sent ptr.response_decrement result
    dsimp only
    split_ifs <;> exact hread

/-- The purge reads what is pending. -/
theorem purge_sent (fuel : Nat) (p : Protocol) (ptr : memcached_server_st) (buffer_length : Nat)
    (result : memcached_result_st) :
    (purgePending fuel p ptr buffer_length result).2.1.sent = ptr.sent := by
  induction fuel generalizing ptr result with
  | zero => exact read_one_response_sent p ptr buffer_length result
  | succ fuel ih =>
    have hone := read_one_response_sent p ptr buffer_length result
    rw [purgePending]
    split_ifs
    · rcases hread : memcached_read_one_response p ptr buffer_length result with ⟨rc, host, result'⟩
      rw [hread] at hone
      dsimp only
      split_ifs
      · exact (ih host result').trans hone
      · exact hone
    · exact hone

theorem setServer_sent (ptr : memcached_st n) {s : Fin n} {host : memcached_server_st}
    (h : host.sent = (ptr.servers s).sent) (t : Fin n) :
    ((ptr.setServer s host).servers t).sent = (ptr.servers t).sent := by
  by_cases ht : t = s
  · rw [ht, memcached_st.setServer_self, h]
  · rw [memcached_st.setServer_of_ne _ _ ht]

/-- A response that is read sends nothing. -/
theorem readResponse_sent (ptr : memcached_st n) (s : Fin n) (buffer_length : Nat) (t : Fin n) :
    ((readResponse ptr s buffer_length).2.servers t).sent = (ptr.servers t).sent := by
  have hone := purge_sent ((ptr.servers s).input.bytes.length + 1) ptr.protocol (ptr.servers s)
    buffer_length ptr.result
  unfold readResponse memcached_response
  exact setServer_sent ptr hone t

theorem drainHost_sent (s : Fin n) (fuel : Nat) (ptr : memcached_st n) (t : Fin n) :
    ((drainHost s fuel ptr).servers t).sent = (ptr.servers t).sent := by
  induction fuel generalizing ptr with
  | zero => rfl
  | succ fuel ih =>
    rw [drainHost]
    split_ifs
    · rfl
    · rw [ih]
      exact readResponse_sent _ _ _ _

theorem drainAll_sent (ptr : memcached_st n) (t : Fin n) :
    ((drainAll ptr).servers t).sent = (ptr.servers t).sent := by
  have hfold : ∀ (hosts : List (Fin n)) (ptr : memcached_st n),
      ((hosts.foldl (fun ptr s => drainHost s ((ptr.servers s).input.bytes.length + 1) ptr)
        ptr).servers t).sent = (ptr.servers t).sent := by
    intro hosts
    induction hosts with
    | nil => intros; rfl
    | cons s hosts ih =>
      intro ptr
      rw [List.foldl_cons, ih]
      exact drainHost_sent _ _ _ _
  exact hfold _ _

/-! ## Fetching -/

theorem readable_server_servers (net : Network n) (ptr : memcached_st n) :
    (memcached_io_get_readable_server net ptr).2.servers = ptr.servers := by
  unfold memcached_io_get_readable_server
  split
  · rfl
  · split_ifs <;> rfl

theorem fetchResultLoop_sent (net : Network n) (fuel : Nat) (ptr : memcached_st n)
    (error : memcached_return_t) (t : Fin n) :
    ((fetchResultLoop net fuel ptr error).2.1.servers t).sent = (ptr.servers t).sent := by
  induction fuel generalizing ptr error with
  | zero => rfl
  | succ fuel ih =>
    have hservers := readable_server_servers net ptr
    rw [fetchResultLoop]
    rcases hreadable : memcached_io_get_readable_server net ptr with ⟨_ | s, ptr₁⟩
    · rw [hreadable] at hservers
      dsimp only
      exact congrArg (fun servers => (servers t).sent) hservers
    · rw [hreadable] at hservers
      have hread := readResponse_sent ptr₁ s MEMCACHED_DEFAULT_COMMAND_SIZE t
      rw [show ptr₁.servers = ptr.servers from hservers] at hread
      dsimp only
      split_ifs
      · exact hread
      · -- the END of a host sets its count only
        rw [ih, ← hread]
        exact setServer_sent _ (by rfl) t
      · exact hread
      · exact (ih _ _).trans hread

theorem fetchExecuteLoop_sent {σ : Type} (net : Network n) (callbacks : List (Callback σ))
    (fuel : Nat) (ptr : memcached_st n) (context : σ) (rc : memcached_return_t) (t : Fin n) :
    ((fetchExecuteLoop net callbacks fuel ptr context rc).ptr.servers t).sent =
      (ptr.servers t).sent := by
  induction fuel generalizing ptr context rc with
  | zero => rfl
  | succ fuel ih =>
    have hone := fetchResultLoop_sent net (ptr.unread + 1) ptr rc t
    rw [← memcached_fetch_result] at hone
    rw [fetchExecuteLoop]
    rcases hfetch : memcached_fetch_result net ptr rc with ⟨_ | _, ptr₁, rc₁⟩
    · rw [hfetch] at hone
      exact hone
    · rw [hfetch] at hone
      dsimp only
      split_ifs
      · rcases runCallbacks callbacks ptr₁.result context with ⟨rc₂, context₂⟩ | context₂
        · exact (ih _ _ _).trans hone
        · exact hone
      · exact (ih _ _ _).trans hone

/-- No fetch sends anything, however it ends. -/
theorem fetch_execute_sent {σ : Type} (net : Network n) (ptr : memcached_st n)
    (callbacks : List (Callback σ)) (context : σ) (t : Fin n) :
    ((memcached_fetch_execute net ptr callbacks context).ptr.servers t).sent =
      (ptr.servers t).sent :=
  fetchExecuteLoop_sent net callbacks _ ptr context FAILURE t

/-! ## Writing -/

/-- A connect sends nothing either. -/
theorem connect_sent (net : Network n) (s : Fin n) (host : memcached_server_st) :
    (memcached_connect net s host).2.sent = host.sent := by
  unfold memcached_connect
  split_ifs
  · rfl
  · split <;> rfl

/-- What is only buffered is not sent yet. -/
theorem write_sent (net : Network n) (s : Fin n) (host : memcached_server_st) (buffer : Bytes) :
    (memcached_io_write net s host buffer false).2.sent = host.sent := by
  rcases write_cases net s host buffer with ⟨hw, -⟩ | hw
  · rw [hw]
    rfl
  · rw [hw]

/-- A flush sends one request, or nothing. -/
theorem flush_sent (net : Network n) (s : Fin n) (host : memcached_server_st) (buffer : Bytes) :
    (memcached_io_write net s host buffer true).2.sent = host.sent ++
      (if (memcached_io_write net s host buffer true).1 = true ∧ host.write_buffer ++ buffer ≠ []
        then [host.write_buffer ++ buffer] else []) := by
  rcases flush_cases net s host buffer with ⟨hw, -⟩ | ⟨hnil, hw⟩ | ⟨hne, -, hw⟩
  · simp [hw, memcached_quit_server]
  · simp [hw, hnil]
  · simp [hw, hne]

/-- A command that is written is the one request that the host takes. -/
theorem vdo_sent {net : Network n} {s : Fin n} {host host' : memcached_server_st}
    {command : Bytes} {rc : memcached_return_t} (hwritten : host.write_buffer = [])
    (hne : command ≠ []) (h : memcached_vdo net s host command true = (rc, host')) :
    host'.sent = host.sent ++ if rc = SUCCESS then [command] else [] := by
  have hconnect := connect_sent net s host
  have hbuffer : (memcached_connect net s host).2.write_buffer = [] := by
    unfold memcached_connect
    split_ifs
    · exact hwritten
    · split <;> exact hwritten
  unfold memcached_vdo at h
  rcases hc : memcached_connect net s host with ⟨code, host₁⟩
  rw [hc] at h hconnect hbuffer
  have hflush := flush_sent net s host₁ command
  have hbytes : host₁.write_buffer ++ command = command := by
    rw [show host₁.write_buffer = [] from hbuffer, List.nil_append]
  rw [hbytes] at hflush
  by_cases hcode : code = SUCCESS
  · subst hcode
    dsimp only at h hconnect
    rcases hw : memcached_io_write net s host₁ command true with ⟨_ | _, host₂⟩
    · rw [hw] at h hflush
      cases h
      simpa [hconnect] using hflush
    · rw [hw] at h hflush
      cases h
      change host₂.sent = _
      simpa [hconnect, hne] using hflush
  · have heq : (code, host₁) = (rc, host') := by
      rw [← h]
      cases code <;> first | rfl | exact absurd rfl hcode
    cases heq
    simpa [hcode] using hconnect

end Libmemcached
