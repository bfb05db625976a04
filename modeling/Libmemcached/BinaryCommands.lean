-- The commands of the binary protocol on hosts with nothing pending: each one
-- reads its own response, and leaves nothing pending.
import Libmemcached.OwnResponses
import Libmemcached.Tidy

open Chunks Decimal Queues

namespace Libmemcached

open memcached_return_t memcached_server_st memcached_storage_action_t

variable {n : Nat}

/-! ## What hosts do -/

/-- The response to an increment or a decrement: the number, or a failure with
a text. -/
structure NumberPacket where
  opcode : Nat
  status : Nat
  cas : Nat
  body : Bytes
  known : opcode = PROTOCOL_BINARY_CMD_INCREMENT ∨ opcode = PROTOCOL_BINARY_CMD_DECREMENT
  status_fits : status < 2 ^ 16
  settled : status ≠ PROTOCOL_BINARY_RESPONSE_AUTH_CONTINUE
  cas_fits : cas < 2 ^ 64
  body_fits : body.length < 2 ^ 32
  number : status = 0 → body.length = 8

def NumberPacket.bytes (packet : NumberPacket) : Bytes :=
  responseHeader packet.opcode packet.status packet.body.length packet.cas ++ packet.body

/-- The whole response to a binary command that is not a get. -/
inductive BinaryReplied : Bytes → Prop
  | status (packet : StatusPacket) : BinaryReplied packet.bytes
  | number (packet : NumberPacket) : BinaryReplied packet.bytes

/-- The answer to a request for the figures: a packet for each, and one
without a body. -/
inductive StatPackets : Bytes → Prop
  | last : StatPackets (renderHeader PROTOCOL_BINARY_CMD_STAT 0 0 0 0)
  | stat (keylen : Nat) (body : Bytes) (hkey : keylen < 2 ^ 16) (hne : body ≠ [])
      (hfits : body.length < 2 ^ 32) {rest : Bytes} (h : StatPackets rest) :
      StatPackets (renderHeader PROTOCOL_BINARY_CMD_STAT keylen 0 body.length 0 ++ body ++ rest)

/-- The commands that are answered with one packet. -/
def commandOpcodes : List Nat :=
  [PROTOCOL_BINARY_CMD_SET, PROTOCOL_BINARY_CMD_ADD, PROTOCOL_BINARY_CMD_REPLACE,
    PROTOCOL_BINARY_CMD_DELETE, PROTOCOL_BINARY_CMD_INCREMENT, PROTOCOL_BINARY_CMD_DECREMENT,
    PROTOCOL_BINARY_CMD_FLUSH, PROTOCOL_BINARY_CMD_APPEND, PROTOCOL_BINARY_CMD_PREPEND]

/-- Hosts of the binary protocol. They answer a get with one packet for each
key that they hold and a NOOP, and every other command with its own
response. -/
structure AnsweringBinary (net : Network n) (stores : Fin n → Store) : Prop where
  gets : Serves net stores false .binary (wholeAnswer stores false .binary)
  commands : ∀ s opcode keylen extlen bodylen cas rest, opcode ∈ commandOpcodes →
    BinaryReplied (bytesOf
      (net.answer s (requestHeader opcode keylen extlen bodylen cas ++ rest)).1)
  stats : ∀ s, StatPackets (bytesOf
    (net.answer s (requestHeader PROTOCOL_BINARY_CMD_STAT 0 0 0 0)).1)

/-! ## One response -/

theorem requestHeader_ne_nil (opcode keylen extlen bodylen cas : Nat) (rest : Bytes) :
    requestHeader opcode keylen extlen bodylen cas ++ rest ≠ [] := by
  simp [requestHeader]

theorem NumberPacket.packetFits (packet : NumberPacket) :
    PacketFits packet.opcode packet.status packet.cas packet.body := by
  refine ⟨?_, packet.status_fits, packet.cas_fits, packet.body_fits⟩
  rcases packet.known with hop | hop <;> rw [hop] <;> decide

/-- Eight bytes are a number for the caller, and out of step when nobody asked
for one. -/
theorem NumberPacket.read_success (packet : NumberPacket) (h : packet.status = 0) (fuel : Nat)
    (host : memcached_server_st) (buffer_length : Nat) (result : memcached_result_st)
    (hinput : host.input.bytes = packet.bytes) :
    ∃ rc input, binary_read_one_response fuel host buffer_length result =
        (rc, { host with input }, result) ∧
      (rc = PROTOCOL_ERROR ∨ rc = SUCCESS ∧ input.bytes = []) := by
  obtain ⟨j, hhead, hj⟩ := io_read_append host _ packet.body hinput
  rw [length_responseHeader] at hhead
  have hread : binary_read_one_response fuel host buffer_length result =
      if buffer_length ≠ 8 then (PROTOCOL_ERROR, { host with input := j }, result)
      else binary_read_elsewhere { host with input := j } result 8 SUCCESS := by
    rw [binary_read_one_response, hhead]
    dsimp only
    rw [packet.packetFits.parseHeader, if_neg (not_not.mpr rfl), if_pos (Or.inl h), h,
      packet.number h]
    rcases packet.known with hknown | hknown <;> rw [hknown] <;>
      by_cases hbuffer : buffer_length = 8 <;> simp [binary_read_success, hbuffer, statusCode,
        PROTOCOL_BINARY_CMD_INCREMENT, PROTOCOL_BINARY_CMD_DECREMENT, PROTOCOL_BINARY_CMD_GETKQ,
        PROTOCOL_BINARY_CMD_GETK]
  rw [hread]
  by_cases hbuffer : buffer_length = 8
  · obtain ⟨k, hrest, hk⟩ := io_read_append { host with input := j } packet.body []
      (by rw [hj, List.append_nil])
    rw [packet.number h] at hrest
    rw [if_neg (not_not.mpr hbuffer), binary_read_elsewhere, hrest]
    exact ⟨SUCCESS, k, rfl, Or.inr ⟨rfl, hk⟩⟩
  · rw [if_pos hbuffer]
    exact ⟨PROTOCOL_ERROR, j, rfl, Or.inl rfl⟩

theorem NumberPacket.read (packet : NumberPacket) (host : memcached_server_st)
    (buffer_length : Nat) (result : memcached_result_st) (h : host.input.bytes = packet.bytes) :
    ∃ rc host', memcached_read_one_response .binary host buffer_length result =
        (rc, host', result) ∧
      (host.cursor_active = 1 → host.write_buffer = [] → Quiet host') := by
  have hread : ∃ rc input, binary_read_one_response host.response_decrement.input.bytes.length
      host.response_decrement buffer_length result =
        (rc, { host.response_decrement with input }, result) ∧
      (rc = PROTOCOL_ERROR ∨ input.bytes = []) := by
    by_cases hstatus : packet.status = 0
    · obtain ⟨rc, input, hr, hcases⟩ := packet.read_success hstatus
        host.response_decrement.input.bytes.length host.response_decrement buffer_length result h
      exact ⟨rc, input, hr, hcases.imp_right And.right⟩
    · have hquiet : isQuietStorage packet.opcode = false := by
        rcases packet.known with hop | hop <;> rw [hop] <;> rfl
      obtain ⟨input, hr, hi⟩ := packet.packetFits.read_failure hquiet hstatus packet.settled
        host.response_decrement.input.bytes.length host.response_decrement buffer_length result h
      exact ⟨_, input, hr, Or.inr hi⟩
  obtain ⟨rc, input, hr, hcases⟩ := hread
  simp only [memcached_read_one_response, hr]
  split_ifs with hstep
  · exact ⟨rc, _, rfl, fun _ _ => quiet_quit _⟩
  · refine ⟨rc, _, rfl, fun hcount hwritten => ⟨?_, ?_, hwritten⟩⟩
    · simp [response_decrement, hcount]
    · apply hcases.resolve_left
      rintro rfl
      exact hstep rfl

theorem BinaryReplied.read {bytes : Bytes} (h : BinaryReplied bytes) {host : memcached_server_st}
    (buffer_length : Nat) (result : memcached_result_st) (hcount : host.cursor_active = 1)
    (hwritten : host.write_buffer = []) (hinput : host.input.bytes = bytes) :
    ∃ rc host', memcached_response .binary host buffer_length result = (rc, host', result) ∧
      Quiet host' := by
  rw [memcached_response_one _ _ _ _ hcount]
  cases h with
  | status packet =>
    obtain ⟨host', hr, hquiet⟩ := packet.read host buffer_length result hinput
    exact ⟨_, host', hr, hquiet hcount hwritten⟩
  | number packet =>
    obtain ⟨rc, host', hr, hquiet⟩ := packet.read host buffer_length result hinput
    exact ⟨rc, host', hr, hquiet hcount hwritten⟩

theorem readResponse_binary {ptr : memcached_st n} (hbinary : ptr.protocol = .binary) (s : Fin n)
    {host host' : memcached_server_st} {rc : memcached_return_t} {buffer_length : Nat}
    (h : memcached_response .binary host buffer_length ptr.result = (rc, host', ptr.result)) :
    readResponse (ptr.setServer s host) s buffer_length = (rc, ptr.setServer s host') := by
  unfold readResponse
  simp only [memcached_st.setServer_protocol, hbinary, memcached_st.setServer_self,
    memcached_st.setServer_result, h]
  simp [memcached_st.setServer, hbinary]

/-! ## Commands to one host -/

/-- A command to a quiet host is not written, or its answer is all that there
is to read. -/
theorem vdo_quiet (net : Network n) (s : Fin n) {host : memcached_server_st} (h : Quiet host)
    {command : Bytes} (hne : command ≠ []) :
    (∃ rc host', memcached_vdo net s host command true = (rc, host') ∧ rc ≠ SUCCESS) ∨
      ∃ host', memcached_vdo net s host command true = (SUCCESS, host') ∧
        host'.cursor_active = 1 ∧ host'.write_buffer = [] ∧
        host'.input.bytes = bytesOf (net.answer s command).1 := by
  have hstep : InStep false .binary host none := h
  rcases vdo_cases net hstep command hne with
    ⟨rc, host', hvdo, hrc, -, -⟩ | ⟨host', hvdo, -, hcount, hwritten, hinput⟩
  · exact Or.inl ⟨rc, host', hvdo, hrc⟩
  · refine Or.inr ⟨host', hvdo, hcount, hwritten, ?_⟩
    rw [hinput, h.input, List.nil_append]

/-- A host without pending responses is quiet. -/
theorem Tidy.quiet_of_idle {ptr : memcached_st n} (h : Tidy ptr) {s : Fin n}
    (hidle : (ptr.servers s).cursor_active = 0) : Quiet (ptr.servers s) := by
  obtain ⟨q, hsynced, -⟩ := h
  have hstep := hsynced s
  rcases hq : q s with _ | qs
  · rw [hq] at hstep
    exact hstep
  · rw [hq] at hstep
    have hcount : (ptr.servers s).cursor_active = 1 := Owes.count hstep
    rw [hidle] at hcount
    cases hcount

section

variable {net : Network n} {stores : Fin n → Store} {ptr : memcached_st n}
variable (h : Tidy ptr) (hbinary : ptr.protocol = .binary) {s : Fin n}
variable (hidle : (ptr.servers s).cursor_active = 0)

include h hbinary hidle

/-- A command and its response. Where the command cannot be written, the host
is reset or left as it is. -/
theorem Tidy.command {command : Bytes} (hne : command ≠ [])
    (hreplied : BinaryReplied (bytesOf (net.answer s command).1)) (buffer_length : Nat) :
    (∃ rc host', memcached_vdo net s (ptr.servers s) command true = (rc, host') ∧ rc ≠ SUCCESS ∧
        Follows ptr (ptr.setServer s (memcached_io_reset host'))) ∨
      ∃ host', memcached_vdo net s (ptr.servers s) command true = (SUCCESS, host') ∧
        Follows ptr (readResponse (ptr.setServer s host') s buffer_length).2 := by
  rcases vdo_quiet net s (h.quiet_of_idle hidle) hne with
    ⟨rc, host', hvdo, hrc⟩ | ⟨host', hvdo, hcount, hwritten, hinput⟩
  · exact Or.inl ⟨rc, host', hvdo, hrc, h.quiet s (quiet_quit _)⟩
  · obtain ⟨rc, host'', hr, hquiet⟩ :=
      hreplied.read buffer_length ptr.result hcount hwritten hinput
    refine Or.inr ⟨host', hvdo, ?_⟩
    rw [readResponse_binary hbinary s hr]
    exact h.quiet s hquiet

theorem Tidy.send_binary (hnet : AnsweringBinary net stores) (key value : Bytes)
    (expiration : UInt64) (flags : UInt32) (cas : UInt64) (verb : memcached_storage_action_t) :
    Follows ptr (memcached_send_binary net ptr s key value expiration flags cas verb).1 := by
  have hopcode : get_com_code verb ∈ commandOpcodes := by cases verb <;> decide
  have hreplied : BinaryReplied (bytesOf (net.answer s
      (storagePacket verb key value flags expiration cas)).1) := by
    simp only [storagePacket, List.append_assoc]
    exact hnet.commands s _ _ _ _ _ _ hopcode
  have hne : storagePacket verb key value flags expiration cas ≠ [] := by
    simp only [storagePacket, List.append_assoc]
    exact requestHeader_ne_nil _ _ _ _ _ _
  unfold memcached_send_binary
  rcases h.command hbinary hidle hne hreplied 0 with
    ⟨rc, host', hvdo, hrc, hfollows⟩ | ⟨host', hvdo, hfollows⟩
  · rw [hvdo]
    cases rc <;> first | exact hfollows | exact absurd rfl hrc
  · rw [hvdo]
    exact hfollows

theorem Tidy.binary_delete (hnet : AnsweringBinary net stores) (key : Bytes) :
    Follows ptr (Libmemcached.binary_delete net ptr s key).1 := by
  unfold Libmemcached.binary_delete
  dsimp only
  rcases h.command hbinary hidle (requestHeader_ne_nil _ _ _ _ _ key)
      (hnet.commands s PROTOCOL_BINARY_CMD_DELETE key.length 0 key.length 0 key (by decide))
      MEMCACHED_DEFAULT_COMMAND_SIZE with
    ⟨rc, host', hvdo, hrc, hfollows⟩ | ⟨host', hvdo, hfollows⟩
  · rw [hvdo]
    cases rc <;> first | exact hfollows | exact absurd rfl hrc
  · rw [hvdo]
    exact hfollows

theorem Tidy.binary_incr_decr (hnet : AnsweringBinary net stores) (op : IncrDecr) (key : Bytes)
    (offset : UInt64) : Follows ptr (Libmemcached.binary_incr_decr net ptr s op key offset) := by
  have hopcode : op.opcode ∈ commandOpcodes := by cases op <;> decide
  unfold Libmemcached.binary_incr_decr
  simp only [List.append_assoc]
  rcases h.command hbinary hidle (requestHeader_ne_nil _ _ _ _ _ _)
      (hnet.commands s op.opcode key.length 20 (key.length + 20) 0
        (bigEndian 8 offset.toNat ++ (bigEndian 8 0 ++ (bigEndian 4 0xffffffff ++ key))) hopcode)
      8 with
    ⟨rc, host', hvdo, hrc, hfollows⟩ | ⟨host', hvdo, hfollows⟩
  · rw [hvdo]
    cases rc <;> first | exact hfollows | exact absurd rfl hrc
  · rw [hvdo]
    exact hfollows

end

section

variable {net : Network n} {stores : Fin n → Store} {ptr : memcached_st n}
variable (h : Tidy ptr) (hbinary : ptr.protocol = .binary) (hnet : AnsweringBinary net stores)

include h hbinary hnet

theorem Tidy.send {master_key key : Bytes}
    (hidle : ∀ hn, (ptr.servers (storageHost ptr hn master_key)).cursor_active = 0) (value : Bytes)
    (expiration : UInt64) (flags : UInt32) (cas : UInt64) (verb : memcached_storage_action_t) :
    Follows ptr (memcached_send net ptr master_key key value expiration flags cas verb).1 := by
  unfold memcached_send
  rw [hbinary]
  dsimp only
  split_ifs with hlength hn htest
  · exact h.refl
  · exact h.refl
  · exact h.send_binary hbinary (hidle hn) hnet key value expiration flags cas verb
  · exact h.refl

theorem Tidy.delete_by_key {master_key key : Bytes}
    (hidle : ∀ hn, (ptr.servers (storageHost ptr hn master_key)).cursor_active = 0)
    (expiration : UInt64) :
    Follows ptr (memcached_delete_by_key net ptr master_key key expiration).1 := by
  unfold memcached_delete_by_key
  rw [hbinary]
  dsimp only
  by_cases hlength : memcached_validate_key_length key.length (decide (Protocol.binary = .binary)) ≠
      SUCCESS
  · rw [if_pos hlength]
    exact h.refl
  · rw [if_neg hlength]
    by_cases hn : 0 < n
    · rw [dif_pos hn]
      by_cases hexpiration : expiration = 0
      · rw [if_pos hexpiration]
        exact h.binary_delete hbinary (hidle hn) hnet key
      · rw [if_neg hexpiration]
        exact h.refl
    · rw [dif_neg hn]
      exact h.refl

theorem Tidy.incr_decr {key : Bytes}
    (hidle : ∀ hn, (ptr.servers (storageHost ptr hn key)).cursor_active = 0) (op : IncrDecr)
    (offset : UInt64) : Follows ptr (memcached_incr_decr net ptr op key offset) := by
  unfold memcached_incr_decr
  rw [hbinary]
  dsimp only
  split_ifs with hlength hn
  · exact h.refl
  · exact h.binary_incr_decr hbinary (hidle hn) hnet op key offset
  · exact h.refl

end

/-! ## Commands to all hosts -/

/-- The host has the response to one command to give, and nothing else. -/
structure Waiting (host : memcached_server_st) : Prop where
  count : host.cursor_active = 1
  written : host.write_buffer = []
  input : BinaryReplied host.input.bytes

/-- The first loop of a flush that succeeds leaves each host with its response
to give. -/
theorem flushHosts_waiting {net : Network n} {packet : Bytes} (hne : packet ≠ [])
    (hreplied : ∀ s, BinaryReplied (bytesOf (net.answer s packet).1)) {hosts : List (Fin n)}
    (hnodup : hosts.Nodup) {ptr : memcached_st n} (hquiet : ∀ s ∈ hosts, Quiet (ptr.servers s))
    (hsent : (flushHosts net packet hosts ptr).2 = true) :
    SameConfig ptr (flushHosts net packet hosts ptr).1 ∧
      (∀ s ∈ hosts, Waiting ((flushHosts net packet hosts ptr).1.servers s)) ∧
      ∀ s ∉ hosts, (flushHosts net packet hosts ptr).1.servers s = ptr.servers s := by
  induction hosts generalizing ptr with
  | nil => exact ⟨.refl ptr, by simp, fun _ _ => rfl⟩
  | cons t hosts ih =>
    obtain ⟨ht, hnodup⟩ := List.nodup_cons.mp hnodup
    rcases vdo_quiet net t (hquiet t (List.mem_cons_self ..)) hne with
      ⟨rc, host', hvdo, hrc⟩ | ⟨host', hvdo, hcount, hwritten, hinput⟩
    · rw [flushHosts, hvdo] at hsent
      cases rc <;> first | cases hsent | exact absurd rfl hrc
    · have hother : ∀ s ∈ hosts, Quiet ((ptr.setServer t host').servers s) := by
        intro s hs
        rw [memcached_st.setServer_of_ne _ _ (by rintro rfl; exact ht hs)]
        exact hquiet s (List.mem_cons_of_mem _ hs)
      rw [flushHosts, hvdo] at hsent ⊢
      dsimp only at hsent ⊢
      obtain ⟨hconfig, hwaiting, hrest⟩ := ih hnodup hother hsent
      have hopened : SameConfig ptr (ptr.setServer t host') := ⟨rfl, rfl, rfl, rfl⟩
      refine ⟨hopened.trans hconfig, ?_, ?_⟩
      · intro s hs
        rcases List.mem_cons.mp hs with rfl | hs
        · rw [hrest s ht, memcached_st.setServer_self]
          exact ⟨hcount, hwritten, hinput ▸ hreplied s⟩
        · exact hwaiting s hs
      · intro s hs
        rw [List.mem_cons, not_or] at hs
        rw [hrest s hs.2, memcached_st.setServer_of_ne _ _ hs.1]

/-- The second loop reads them. -/
theorem readFlushed_quiet {ptr₀ ptr : memcached_st n} (hbinary : ptr₀.protocol = .binary)
    (hconfig : SameConfig ptr₀ ptr) (hwaiting : ∀ s, Waiting (ptr.servers s)) :
    Follows ptr₀ ((List.finRange n).foldl readFlushed ptr) := by
  have hturn : ∀ (st : memcached_st n) (s : Fin n), SameConfig ptr₀ st → Waiting (st.servers s) →
      SameConfig ptr₀ (readFlushed st s) ∧ Quiet ((readFlushed st s).servers s) ∧
        ∀ t, t ≠ s → (readFlushed st s).servers t = st.servers t := by
    intro st s hst hwaits
    obtain ⟨rc, host', hr, hquiet⟩ :=
      hwaits.input.read 0 st.result hwaits.count hwaits.written rfl
    have hsame : st.setServer s (st.servers s) = st := by simp [memcached_st.setServer]
    have hread := readResponse_binary (hst.protocol.trans hbinary) s hr
    rw [hsame] at hread
    rw [readFlushed, if_pos (by rw [hwaits.count]; decide), hread]
    exact ⟨hst.trans ⟨rfl, rfl, rfl, rfl⟩, by simpa using hquiet,
      fun t ht => memcached_st.setServer_of_ne st host' ht⟩
  obtain ⟨hsame, hquiet⟩ := foldl_hosts memcached_st.servers readFlushed (SameConfig ptr₀)
    (fun _ host => Waiting host) (fun _ host => Quiet host) hturn ptr hconfig hwaiting
  exact ⟨hsame, fun _ => none, hquiet, fun _ _ hq => by cases hq⟩

/-- A flush that succeeds. -/
theorem Tidy.flush_binary {net : Network n} {stores : Fin n → Store} {ptr : memcached_st n}
    (h : Tidy ptr) (hbinary : ptr.protocol = .binary) (hnet : AnsweringBinary net stores)
    (hidle : ∀ s, (ptr.servers s).cursor_active = 0) (expiration : UInt64)
    (hsuccess : (memcached_flush_binary net ptr expiration).2 = SUCCESS) :
    Follows ptr (memcached_flush_binary net ptr expiration).1 := by
  unfold memcached_flush_binary at hsuccess ⊢
  dsimp only at hsuccess ⊢
  by_cases hn : n = 0
  · rw [if_pos hn]
    exact h.refl
  · rw [if_neg hn] at hsuccess ⊢
    have hflushed := flushHosts_waiting
      (requestHeader_ne_nil PROTOCOL_BINARY_CMD_FLUSH 0 4 4 0 (bigEndian 4 expiration.toNat))
      (fun s => hnet.commands s PROTOCOL_BINARY_CMD_FLUSH 0 4 4 0 _ (by decide))
      (List.nodup_finRange n) (fun s _ => h.quiet_of_idle (hidle s))
    rcases hsent : flushHosts net (requestHeader PROTOCOL_BINARY_CMD_FLUSH 0 4 4 0 ++
      bigEndian 4 expiration.toNat) (List.finRange n) ptr with ⟨ptr', _ | _⟩
    · rw [hsent] at hsuccess
      cases hsuccess
    · rw [hsent] at hflushed
      obtain ⟨hconfig, hwaiting, -⟩ := hflushed rfl
      exact readFlushed_quiet hbinary hconfig fun s => hwaiting s (List.mem_finRange s)

theorem read_stat_header (host : memcached_server_st) (result : memcached_result_st)
    (keylen : Nat) (hkey : keylen < 2 ^ 16) (body rest : Bytes) (hfits : body.length < 2 ^ 32)
    (hinput : host.input.bytes =
      renderHeader PROTOCOL_BINARY_CMD_STAT keylen 0 body.length 0 ++ rest) :
    ∃ input, input.bytes = rest ∧ ∀ fuel,
      binary_read_one_response fuel host MEMCACHED_DEFAULT_COMMAND_SIZE result =
        if body.length = 0 then (END, { host with input }, result)
        else if MEMCACHED_DEFAULT_COMMAND_SIZE < body.length + 1 then
          (UNKNOWN_READ_FAILURE, { host with input }, result)
        else binary_read_elsewhere { host with input } result body.length SUCCESS := by
  obtain ⟨j, hhead, hj⟩ := io_read_append host _ rest hinput
  rw [length_renderHeader] at hhead
  have hparse := parseHeader_renderHeader PROTOCOL_BINARY_CMD_STAT keylen 0 body.length 0
    (by decide) hkey (by decide) hfits (by decide)
  refine ⟨j, hj, fun fuel => ?_⟩
  rw [binary_read_one_response, hhead]
  dsimp only
  rw [hparse, if_neg (not_not.mpr rfl), if_pos (Or.inl rfl)]
  rfl

/-- The packets with the figures of a host are read up to the last one, or the
connection is closed. -/
theorem binaryStatsLoop_quiet {ptr : memcached_st n} (hbinary : ptr.protocol = .binary) (s : Fin n)
    {bytes : Bytes} (hbytes : StatPackets bytes) (fuel : Nat) (hfuel : bytes.length < fuel)
    (host : memcached_server_st) (hwritten : host.write_buffer = [])
    (hinput : host.input.bytes = bytes) :
    ∃ host', (binaryStatsLoop s fuel (ptr.setServer s host)).1 = ptr.setServer s host' ∧
      Quiet host' := by
  induction hbytes generalizing fuel host with
  | last =>
    obtain ⟨fuel, rfl⟩ : ∃ k, fuel = k + 1 := ⟨fuel - 1, by omega⟩
    obtain ⟨input, hi, hread⟩ := read_stat_header host.response_decrement ptr.result 0
      (by decide) [] [] (by decide)
      (by rw [response_decrement_input, hinput, List.append_nil]; rfl)
    have hresponse : memcached_response .binary host MEMCACHED_DEFAULT_COMMAND_SIZE ptr.result =
        (END, { host.response_decrement with input }, ptr.result) := by
      rw [memcached_response_binary, memcached_read_one_response]
      simp only [hread]
      rfl
    rw [binaryStatsLoop, readResponse_binary hbinary s hresponse]
    refine ⟨response_reset { host.response_decrement with input }, ?_, rfl, hi, hwritten⟩
    simp [memcached_st.setServer]
  | @stat keylen body hkey hne hfits rest h ih =>
    obtain ⟨fuel, rfl⟩ : ∃ k, fuel = k + 1 := ⟨fuel - 1, by omega⟩
    obtain ⟨input, hi, hread⟩ := read_stat_header host.response_decrement ptr.result
      keylen hkey body (body ++ rest) hfits
      (by rw [response_decrement_input, hinput, List.append_assoc])
    have hbody : body.length ≠ 0 := fun hnil => hne (List.length_eq_zero_iff.mp hnil)
    by_cases hlong : MEMCACHED_DEFAULT_COMMAND_SIZE < body.length + 1
    · have hresponse : memcached_response .binary host MEMCACHED_DEFAULT_COMMAND_SIZE ptr.result =
          (UNKNOWN_READ_FAILURE, memcached_quit_server host, ptr.result) := by
        rw [memcached_response_binary, memcached_read_one_response]
        simp only [hread, if_neg hbody, if_pos hlong]
        rfl
      rw [binaryStatsLoop, readResponse_binary hbinary s hresponse]
      refine ⟨memcached_quit_server host, ?_, quiet_quit host⟩
      simp [memcached_st.setServer, memcached_io_reset, memcached_quit_server]
    · obtain ⟨k, hrest, hk⟩ := io_read_append { host.response_decrement with input } body rest hi
      have hresponse : memcached_response .binary host MEMCACHED_DEFAULT_COMMAND_SIZE ptr.result =
          (SUCCESS, { host.response_decrement with input := k }, ptr.result) := by
        rw [memcached_response_binary, memcached_read_one_response]
        simp only [hread, if_neg hbody, if_neg hlong, binary_read_elsewhere, hrest]
        rfl
      rw [binaryStatsLoop, readResponse_binary hbinary s hresponse]
      dsimp only
      rw [if_neg (by decide), if_neg (by decide)]
      have hfewer : rest.length < fuel := by
        simp only [List.length_append] at hfuel
        omega
      exact ih fuel hfewer { host.response_decrement with input := k } hwritten hk

section

variable {net : Network n} {stores : Fin n → Store} {ptr : memcached_st n}

/-- The figures of a host that owes nothing. -/
theorem Tidy.stats_fetch_binary (h : Tidy ptr) (hbinary : ptr.protocol = .binary)
    (hnet : AnsweringBinary net stores) {s : Fin n}
    (hidle : (ptr.servers s).cursor_active = 0) :
    ∃ host', (binary_stats_fetch net ptr s).1 = ptr.setServer s host' ∧ Quiet host' := by
  unfold binary_stats_fetch
  rcases vdo_quiet net s (h.quiet_of_idle hidle)
      (List.append_nil (requestHeader PROTOCOL_BINARY_CMD_STAT 0 0 0 0) ▸
        requestHeader_ne_nil PROTOCOL_BINARY_CMD_STAT 0 0 0 0 []) with
    ⟨rc, host', hvdo, hrc⟩ | ⟨host', hvdo, hcount, hwritten, hinput⟩
  · rw [hvdo]
    cases rc <;> first | exact ⟨_, rfl, quiet_quit _⟩ | exact absurd rfl hrc
  · rw [hvdo]
    apply binaryStatsLoop_quiet hbinary s (hnet.stats s)
    · rw [hinput]
      omega
    · exact hwritten
    · exact hinput

theorem Tidy.stat_binary (h : Tidy ptr) (hbinary : ptr.protocol = .binary)
    (hnet : AnsweringBinary net stores) (hidle : ∀ s, (ptr.servers s).cursor_active = 0) :
    Follows ptr (memcached_stat_binary net ptr).1 := by
  have hloop : ∀ (hosts : List (Fin n)) (st : memcached_st n × memcached_return_t),
      Follows ptr st.1 → (∀ s, (st.1.servers s).cursor_active = 0) →
      Follows ptr (hosts.foldl (fun st s => ((binary_stats_fetch net st.1 s).1,
        if (binary_stats_fetch net st.1 s).2 ≠ SUCCESS then SOME_ERRORS else st.2)) st).1 := by
    intro hosts
    induction hosts with
    | nil => exact fun st hst _ => hst
    | cons s hosts ih =>
      intro st hst hidle
      obtain ⟨host', hfetched, hquiet⟩ :=
        hst.tidy.stats_fetch_binary (hst.config.protocol.trans hbinary) hnet (hidle s)
      apply ih
      · dsimp only
        rw [hfetched]
        exact hst.quiet s hquiet
      · intro t
        dsimp only
        rw [hfetched]
        by_cases hts : t = s
        · rw [hts, memcached_st.setServer_self]
          exact hquiet.count
        · rw [memcached_st.setServer_of_ne _ _ hts]
          exact hidle t
  exact hloop _ (ptr, SUCCESS) h.refl hidle

end

end Libmemcached
