-- One storage command or delete on a host that may still owe responses: what
-- it writes, and whose response its code is that of.
import Libmemcached.Exchanges

open Chunks Decimal Queues

namespace Libmemcached

open memcached_return_t memcached_server_st memcached_storage_action_t

variable {n : Nat}

/-! ## The response to a storage command or a delete -/

/-- The header of a response without a key and without extras. -/
def responseHeader (opcode status bodylen cas : Nat) : Bytes :=
  bigEndian 1 PROTOCOL_BINARY_RES ++ bigEndian 1 opcode ++ bigEndian 2 0 ++ bigEndian 1 0 ++
    [0] ++ bigEndian 2 status ++ bigEndian 4 bodylen ++ [0, 0, 0, 0] ++ bigEndian 8 cas

theorem length_responseHeader (opcode status bodylen cas : Nat) :
    (responseHeader opcode status bodylen cas).length = 24 := by
  simp [responseHeader]

/-- The fields of a packet fit into its header. -/
structure PacketFits (opcode status cas : Nat) (body : Bytes) : Prop where
  opcode_fits : opcode < 256
  status_fits : status < 2 ^ 16
  cas_fits : cas < 2 ^ 64
  body_fits : body.length < 2 ^ 32

theorem PacketFits.parseHeader {opcode status cas : Nat} {body : Bytes}
    (h : PacketFits opcode status cas body) :
    Libmemcached.parseHeader (responseHeader opcode status body.length cas) =
      ⟨PROTOCOL_BINARY_RES, opcode, 0, 0, status, body.length, cas⟩ := by
  have hopcode : ofBigEndian (bigEndian 1 opcode) = opcode := ofBigEndian_bigEndian 1 _ h.opcode_fits
  have hstatus : ofBigEndian (bigEndian 2 status) = status := ofBigEndian_bigEndian 2 _ h.status_fits
  have hlength : ofBigEndian (bigEndian 4 body.length) = body.length :=
    ofBigEndian_bigEndian 4 _ h.body_fits
  have hcas : ofBigEndian (bigEndian 8 cas) = cas := ofBigEndian_bigEndian 8 _ h.cas_fits
  calc Libmemcached.parseHeader (responseHeader opcode status body.length cas)
      = ⟨PROTOCOL_BINARY_RES, ofBigEndian (bigEndian 1 opcode), 0, 0,
          ofBigEndian (bigEndian 2 status), ofBigEndian (bigEndian 4 body.length),
          ofBigEndian (bigEndian 8 cas)⟩ := rfl
    _ = _ := by rw [hopcode, hstatus, hlength, hcas]

/-- A failure is read with its text, as its status. -/
theorem PacketFits.read_failure {opcode status cas : Nat} {body : Bytes}
    (h : PacketFits opcode status cas body) (hquiet : isQuietStorage opcode = false)
    (hfails : status ≠ 0) (hsettled : status ≠ PROTOCOL_BINARY_RESPONSE_AUTH_CONTINUE) (fuel : Nat)
    (host : memcached_server_st) (buffer_length : Nat) (result : memcached_result_st)
    (hinput : host.input.bytes = responseHeader opcode status body.length cas ++ body) :
    ∃ input, binary_read_one_response fuel host buffer_length result =
      (statusCode status, { host with input }, result) ∧ input.bytes = [] := by
  obtain ⟨j, hhead, hj⟩ := io_read_append host _ body hinput
  rw [length_responseHeader] at hhead
  rw [binary_read_one_response, hhead]
  dsimp only
  rw [h.parseHeader, if_neg (not_not.mpr rfl), if_neg (not_or.mpr ⟨hfails, hsettled⟩)]
  by_cases hbody : body.length = 0
  · rw [if_neg (not_not.mpr hbody)]
    exact ⟨j, rfl, hj.trans (List.length_eq_zero_iff.mp hbody)⟩
  · obtain ⟨k, hrest, hk⟩ := io_read_append { host with input := j } body []
      (by rw [hj, List.append_nil])
    rw [if_pos hbody, hrest]
    simp only [hquiet]
    exact ⟨k, rfl, hk⟩

/-- The opcodes of the responses that carry a status and nothing else. -/
def statusOpcodes : List Nat :=
  [PROTOCOL_BINARY_CMD_SET, PROTOCOL_BINARY_CMD_ADD, PROTOCOL_BINARY_CMD_REPLACE,
    PROTOCOL_BINARY_CMD_DELETE, PROTOCOL_BINARY_CMD_FLUSH, PROTOCOL_BINARY_CMD_APPEND,
    PROTOCOL_BINARY_CMD_PREPEND]

/-- A binary response to one of these commands. A failure comes with a text. -/
structure StatusPacket where
  opcode : Nat
  status : Nat
  cas : Nat
  body : Bytes
  known : opcode ∈ statusOpcodes
  status_fits : status < 2 ^ 16
  settled : status ≠ PROTOCOL_BINARY_RESPONSE_AUTH_CONTINUE
  cas_fits : cas < 2 ^ 64
  body_fits : body.length < 2 ^ 32
  bare : status = 0 → body = []

namespace StatusPacket

def header (packet : StatusPacket) : Bytes :=
  bigEndian 1 PROTOCOL_BINARY_RES ++ bigEndian 1 packet.opcode ++ bigEndian 2 0 ++ bigEndian 1 0 ++
    [0] ++ bigEndian 2 packet.status ++ bigEndian 4 packet.body.length ++ [0, 0, 0, 0] ++
    bigEndian 8 packet.cas

def bytes (packet : StatusPacket) : Bytes := packet.header ++ packet.body

theorem opcode_lt (packet : StatusPacket) : packet.opcode < 256 := by
  have hall : ∀ opcode ∈ statusOpcodes, opcode < 256 := by decide
  exact hall _ packet.known

theorem packetFits (packet : StatusPacket) :
    PacketFits packet.opcode packet.status packet.cas packet.body :=
  ⟨packet.opcode_lt, packet.status_fits, packet.cas_fits, packet.body_fits⟩

theorem parseHeader_header (packet : StatusPacket) :
    parseHeader packet.header =
      ⟨PROTOCOL_BINARY_RES, packet.opcode, 0, 0, packet.status, packet.body.length, packet.cas⟩ :=
  packet.packetFits.parseHeader

theorem length_header (packet : StatusPacket) : packet.header.length = 24 :=
  length_responseHeader _ _ _ _

/-- A success ends with its header. -/
theorem read_success (packet : StatusPacket) (host : memcached_server_st) (buffer_length : Nat)
    (result : memcached_result_st) (h : packet.status = 0) :
    binary_read_success host buffer_length result (parseHeader packet.header) =
      (SUCCESS, host, result) := by
  rw [parseHeader_header, h]
  have hknown := packet.known
  simp only [statusOpcodes, List.mem_cons, List.not_mem_nil, or_false] at hknown
  rcases hknown with hop | hop | hop | hop | hop | hop | hop <;> rw [hop] <;> rfl

/-- No status response is one of a quiet command. -/
theorem not_quiet (packet : StatusPacket) : isQuietStorage packet.opcode = false := by
  have hall : ∀ opcode ∈ statusOpcodes, isQuietStorage opcode = false := by decide
  exact hall _ packet.known

/-- The packet is read as its status, and nothing of it is left. -/
theorem read (packet : StatusPacket) (host : memcached_server_st) (buffer_length : Nat)
    (result : memcached_result_st) (h : host.input.bytes = packet.bytes) :
    ∃ host', memcached_read_one_response .binary host buffer_length result =
        (statusCode packet.status, host', result) ∧
      (host.cursor_active = 1 → host.write_buffer = [] → Quiet host') := by
  have hread : ∀ fuel, ∃ input, binary_read_one_response fuel host.response_decrement buffer_length
      result = (statusCode packet.status, { host.response_decrement with input }, result) ∧
        input.bytes = [] := by
    intro fuel
    by_cases hstatus : packet.status = 0
    · obtain ⟨j, hhead, hj⟩ := io_read_append host.response_decrement packet.header packet.body h
      have hsuccess := packet.read_success { host.response_decrement with input := j }
        buffer_length result hstatus
      rw [packet.parseHeader_header] at hsuccess
      rw [packet.length_header] at hhead
      rw [binary_read_one_response, hhead]
      dsimp only
      rw [packet.parseHeader_header, if_neg (not_not.mpr rfl), if_pos (Or.inl hstatus), hsuccess,
        hstatus]
      exact ⟨j, rfl, hj.trans (packet.bare hstatus)⟩
    · exact packet.packetFits.read_failure packet.not_quiet hstatus packet.settled fuel _
        buffer_length result h
  obtain ⟨input, hr, hinput⟩ := hread host.response_decrement.input.bytes.length
  simp only [memcached_read_one_response, hr]
  split_ifs
  · exact ⟨_, rfl, fun _ _ => quiet_quit _⟩
  · refine ⟨_, rfl, fun hcount hwritten => ⟨?_, hinput, hwritten⟩⟩
    simp [response_decrement, hcount]

end StatusPacket

/-- The whole response of a host to a storage command or a delete, and the
code that it stands for. -/
inductive OwnResponse : Protocol → Bytes → memcached_return_t → Prop
  | line (line : ResponseLine) (final : line.Final) : OwnResponse .text line.bytes line.code
  | packet (packet : StatusPacket) : OwnResponse .binary packet.bytes (statusCode packet.status)

/-! ## One command on a host that may owe responses -/

/-- The host has a whole response to give that nobody has read. -/
def HoldsResponse (q : State (Fin n) Reply) (s : Fin n) : Prop :=
  ∃ pending, q s = some pending ∧ (pending.items ≠ [] ∨ pending.whole = true)

/-- The connection did not break in what the host owed. -/
def Unbroken (q : State (Fin n) Reply) (s : Fin n) : Prop :=
  ∀ pending, q s = some pending → pending.whole = true

/-- The code of a command is that of its own response, and that of a failed
read when none comes. -/
def CodeIsOwn (q : State (Fin n) Reply) (p : Protocol) (s : Fin n) (answer : Bytes)
    (rc : memcached_return_t) : Prop :=
  (∀ code, OwnResponse p answer code → Unbroken q s → rc = code) ∧
    (answer = [] → isReadError rc = true)

/-- What is left on a host with no whole response is nothing, or the start of
one. -/
theorem pending_of_not_holds {q : State (Fin n) Reply} {s : Fin n} (h : ¬ HoldsResponse q s) :
    q s = none ∨ q s = some ⟨[], false⟩ := by
  rcases hq : q s with _ | ⟨items, whole⟩
  · exact Or.inl rfl
  · right
    have hnone : ¬ (items ≠ [] ∨ whole = true) := fun hsome => h ⟨_, hq, hsome⟩
    rw [not_or, not_not, Bool.not_eq_true] at hnone
    rw [hnone.1, hnone.2]

/-- The binary protocol reads no older responses away. -/
theorem memcached_response_binary (host : memcached_server_st) (buffer_length : Nat)
    (result : memcached_result_st) :
    memcached_response .binary host buffer_length result =
      memcached_read_one_response .binary host buffer_length result := by
  rw [memcached_response, purgePending, if_neg (fun hand => absurd hand.1 (by decide))]

section exchange

variable {net : Network n} {ptr : memcached_st n} {q : State (Fin n) Reply} (h : Synced ptr q)
variable (s : Fin n) (command : Bytes) (hne : command ≠ []) (buffer_length : Nat)
variable (ht : Takes net) (halive : Alive net ptr s)

include h hne ht halive

/-- A text command reads the older responses first. -/
theorem exchange_text_own (hp : ptr.protocol = .text) :
    CodeIsOwn q .text s (bytesOf (net.answer s command).1)
      (exchange net ptr s command buffer_length).2 := by
  constructor
  · intro code hown hwhole
    generalize hanswer : bytesOf (net.answer s command).1 = answer at hown
    cases hown with
    | line line final =>
      have hresp : Responds net s command (q s) := by
        rcases hq : q s with _ | ⟨items, _ | _⟩
        · exact .line line final hanswer
        · exact absurd (hwhole _ hq) (by simp)
        · exact .line line final hanswer
      obtain ⟨host', result', rc, hout, -, hcode⟩ :=
        exchange_cases h hp s command hne buffer_length hresp
      rw [hout]
      exact (hcode halive ht).1 line final hanswer hwhole
  · intro hnothing
    have hresp : Responds net s command (q s) := by
      have hreplied : Replied (bytesOf (net.answer s command).1) :=
        .cut ⟨[], by simp, by decide, by decide⟩ [13, 10] (by simp) (by rw [hnothing]; rfl)
      rcases hq : q s with _ | ⟨items, _ | _⟩
      · exact hreplied
      · exact hnothing
      · exact hreplied
    obtain ⟨host', result', rc, hout, -, hcode⟩ :=
      exchange_cases h hp s command hne buffer_length hresp
    rw [hout]
    exact (hcode halive ht).2 hnothing

/-- A binary command on a host in step: it is sent, and the code is that of
the one response which is read then. -/
theorem exchange_binary (hp : ptr.protocol = .binary) :
    ∃ host, host.input.bytes = (ptr.servers s).input.bytes ++ bytesOf (net.answer s command).1 ∧
      host.cursor_active ≤ 2 ∧ (exchange net ptr s command buffer_length).2 =
        (memcached_read_one_response .binary host buffer_length ptr.result).1 := by
  have hstep : InStep ptr.support_cas .binary (ptr.servers s) (q s) := hp ▸ h s
  rcases vdo_cases net hstep command hne with
    ⟨rc, host', -, -, -, hnot⟩ | ⟨host', hvdo, -, hcount, -, hinput⟩
  · exact absurd ⟨halive, ht⟩ hnot
  · refine ⟨host', hinput, by rw [hcount]; split <;> omega, ?_⟩
    rw [exchange, hvdo]
    simp only [readResponse, memcached_st.setServer_protocol, hp, memcached_st.setServer_self,
      memcached_st.setServer_result, memcached_response_binary]

/-- Without a whole response in the way, a binary command gets its own. -/
theorem exchange_binary_own (hp : ptr.protocol = .binary) (hnone : ¬ HoldsResponse q s) :
    CodeIsOwn q .binary s (bytesOf (net.answer s command).1)
      (exchange net ptr s command buffer_length).2 := by
  obtain ⟨host, hinput, -, hcode⟩ :=
    exchange_binary h s command hne buffer_length ht halive hp
  have hstep : InStep ptr.support_cas .binary (ptr.servers s) (q s) := hp ▸ h s
  rw [hcode]
  rcases pending_of_not_holds hnone with hq | hq
  · have hquiet : Quiet (ptr.servers s) := by rw [hq] at hstep; exact hstep
    rw [hquiet.input, List.nil_append] at hinput
    constructor
    · intro code hown _
      generalize hanswer : bytesOf (net.answer s command).1 = answer at hown
      cases hown with
      | packet packet =>
        obtain ⟨host', hr, -⟩ := packet.read host buffer_length ptr.result (hinput.trans hanswer)
        rw [hr]
    · intro hnothing
      have hcut : Cut ptr.support_cas .binary host.input.bytes := by
        rw [hinput, hnothing]
        exact ⟨renderEnd .binary, by decide, Or.inr rfl⟩
      obtain ⟨rc, result', hrc, hr⟩ := read_cut ptr.support_cas .binary host buffer_length
        ptr.result hcut
      rw [hr]
      exact hrc
  · have howes : Owes ptr.support_cas .binary (ptr.servers s) ⟨[], false⟩ := by
      rw [hq] at hstep; exact hstep
    constructor
    · intro code _ hwhole
      exact absurd (hwhole _ hq) (by simp)
    · intro hnothing
      obtain ⟨tail, htail, hend⟩ := howes.input
      have hcut : Cut ptr.support_cas .binary host.input.bytes := by
        rw [hinput, hnothing, List.append_nil, htail]
        simpa using hend
      obtain ⟨rc, result', hrc, hr⟩ := read_cut ptr.support_cas .binary host buffer_length
        ptr.result hcut
      rw [hr]
      exact hrc

/-- A whole response that is still there is taken for that of the command. -/
theorem exchange_stale (hp : ptr.protocol = .binary) (hholds : HoldsResponse q s) :
    (exchange net ptr s command buffer_length).2 = SUCCESS ∨
      (exchange net ptr s command buffer_length).2 = END := by
  obtain ⟨host, hinput, hcount, hcode⟩ :=
    exchange_binary h s command hne buffer_length ht halive hp
  obtain ⟨⟨items, whole⟩, hq, hsome⟩ := hholds
  have howes : Owes ptr.support_cas .binary (ptr.servers s) ⟨items, whole⟩ := by
    have hstep : InStep ptr.support_cas .binary (ptr.servers s) (q s) := hp ▸ h s
    rw [hq] at hstep
    exact hstep
  obtain ⟨tail, htail, hend⟩ := howes.input
  rw [hcode]
  rcases items with _ | ⟨r, rs⟩
  · right
    have hwhole : whole = true := by simpa using hsome
    subst hwhole
    simp only [if_true] at hend
    obtain ⟨j, hr, -⟩ := read_end .binary host buffer_length ptr.result
      (bytesOf (net.answer s command).1) (by rw [hinput, htail, hend]; rfl)
    rw [hr]
  · left
    obtain ⟨j, hr, -⟩ := read_reply ptr.support_cas .binary host buffer_length ptr.result r
      (rs.flatMap (render ptr.support_cas .binary) ++ tail ++ bytesOf (net.answer s command).1)
      (le_trans hcount (by decide)) (howes.valid r (by simp))
      (by rw [hinput, htail]; simp)
    rw [hr]

end exchange

/-! ## What a storage command or a delete writes -/

/-- The host and the bytes of a storage command that passes its checks. -/
def storageWrites (ptr : memcached_st n) (master_key key value : Bytes) (expiration : UInt64)
    (flags : UInt32) (cas : UInt64) (verb : memcached_storage_action_t) : Option (Fin n × Bytes) :=
  if memcached_validate_key_length key.length (ptr.protocol = .binary) ≠ SUCCESS then none
  else if hn : 0 < n then
    if ptr.verify_key ∧ memcached_key_test [key] = BAD_KEY_PROVIDED then none
    else
      let s := storageHost ptr hn master_key
      match ptr.protocol with
      | .binary => some (s, storagePacket verb key value flags expiration cas)
      | .text =>
        let line := storageLine verb key flags expiration value.length cas
        if MEMCACHED_DEFAULT_COMMAND_SIZE ≤ line.length then none
        else some (s, line ++ value ++ [13, 10])
  else none

/-- The same of a delete. -/
def deleteWrites (ptr : memcached_st n) (master_key key : Bytes) (expiration : UInt64) :
    Option (Fin n × Bytes) :=
  if memcached_validate_key_length key.length (ptr.protocol = .binary) ≠ SUCCESS then none
  else if hn : 0 < n then
    let s := storageHost ptr hn master_key
    match ptr.protocol with
    | .binary =>
      if expiration = 0 then
        some (s, requestHeader PROTOCOL_BINARY_CMD_DELETE key.length 0 key.length 0 ++ key)
      else none
    | .text => some (s, deleteLine key expiration)
  else none

/-- The code that a storage command makes of that of its response. -/
def settleStored (p : Protocol) (rc : memcached_return_t) : memcached_return_t :=
  if p = .text ∧ rc = STORED then SUCCESS else rc

def settleDeleted (rc : memcached_return_t) : memcached_return_t :=
  if rc = DELETED then SUCCESS else rc

theorem length_of_validate {key : Bytes}
    (hkey : memcached_validate_key_length key.length false = SUCCESS) : key.length < 251 := by
  by_contra hlong
  unfold memcached_validate_key_length MEMCACHED_MAX_KEY at hkey
  rw [if_neg (by omega), if_neg (by decide), if_pos (by omega)] at hkey
  cases hkey

/-- A key of the text protocol leaves room for the rest of a delete. -/
theorem length_deleteLine {key : Bytes} (hkey : memcached_validate_key_length key.length false = SUCCESS)
    (expiration : UInt64) : (deleteLine key expiration).length < MEMCACHED_DEFAULT_COMMAND_SIZE := by
  have hshort := length_of_validate hkey
  have hcut : (cString key).length ≤ key.length := (List.takeWhile_sublist _).length_le
  have hnumber : (decimal expiration.toUInt32.toNat).length ≤ 9 + 1 :=
    decimal_length (by have := expiration.toUInt32.toNat_lt; omega)
  have hverb : (ascii ['d', 'e', 'l', 'e', 't', 'e', ' ']).length = 7 := rfl
  unfold deleteLine MEMCACHED_DEFAULT_COMMAND_SIZE
  split_ifs
  all_goals
    simp only [List.length_append, List.length_cons, List.length_nil, hverb]
    omega

/-- So does the line of a storage command: a number of 64 bits has 20 digits. -/
theorem length_storageLine {key : Bytes}
    (hkey : memcached_validate_key_length key.length false = SUCCESS)
    (verb : memcached_storage_action_t) (flags : UInt32) (expiration cas : UInt64) {length : Nat}
    (hlength : length < UInt64.size) :
    (storageLine verb key flags expiration length cas).length < MEMCACHED_DEFAULT_COMMAND_SIZE := by
  have hshort := length_of_validate hkey
  have hcut : (cString key).length ≤ key.length := (List.takeWhile_sublist _).length_le
  have hverb : (storage_op_string verb).length ≤ 8 := by cases verb <;> decide
  have hnumber : ∀ m, m < UInt64.size → (decimal m).length ≤ 19 + 1 :=
    fun m hm => decimal_length (by simp only [UInt64.size] at hm; omega)
  have hflags := hnumber flags.toNat (by have := flags.toNat_lt; simp only [UInt64.size]; omega)
  have hexpiration := hnumber _ expiration.toNat_lt_size
  have hcas := hnumber _ cas.toNat_lt_size
  have hvalue := hnumber _ hlength
  unfold storageLine MEMCACHED_DEFAULT_COMMAND_SIZE
  split_ifs
  all_goals
    simp only [List.length_append, List.length_cons, List.length_nil]
    omega

theorem memcached_send_binary_eq (net : Network n) (ptr : memcached_st n) (s : Fin n)
    (key value : Bytes) (expiration : UInt64) (flags : UInt32) (cas : UInt64)
    (verb : memcached_storage_action_t) :
    (memcached_send_binary net ptr s key value expiration flags cas verb).2 =
      (exchange net ptr s (storagePacket verb key value flags expiration cas) 0).2 := by
  unfold memcached_send_binary exchange
  rcases memcached_vdo net s (ptr.servers s)
    (storagePacket verb key value flags expiration cas) true with ⟨rc, host⟩
  cases rc <;> rfl

theorem binary_delete_eq (net : Network n) (ptr : memcached_st n) (s : Fin n) (key : Bytes) :
    (binary_delete net ptr s key).2 = (exchange net ptr s
      (requestHeader PROTOCOL_BINARY_CMD_DELETE key.length 0 key.length 0 ++ key)
      MEMCACHED_DEFAULT_COMMAND_SIZE).2 := by
  unfold binary_delete exchange
  dsimp only
  rcases memcached_vdo net s (ptr.servers s)
    (requestHeader PROTOCOL_BINARY_CMD_DELETE key.length 0 key.length 0 ++ key) true with ⟨rc, host⟩
  cases rc <;> rfl

/-- A connection that is opened first makes no difference to the code. -/
theorem exchange_connected (net : Network n) (ptr : memcached_st n) (s : Fin n) (command : Bytes)
    (buffer_length : Nat) {rc : memcached_return_t} {host : memcached_server_st}
    (hconnect : memcached_connect net s (ptr.servers s) = (rc, host)) :
    (exchange net ptr s command buffer_length).2 =
      if rc = SUCCESS then (exchange net (ptr.setServer s host) s command buffer_length).2
      else rc := by
  by_cases hrc : rc = SUCCESS
  · subst hrc
    have hfd : host.fd = true := by
      unfold memcached_connect at hconnect
      split at hconnect
      · cases hconnect
        assumption
      · split at hconnect
        · cases hconnect
          rfl
        · rename_i hother
          simp only [Prod.mk.injEq] at hconnect
          exact absurd hconnect.1 (hother)
    have hagain : memcached_connect net s host = (SUCCESS, host) := by
      rw [memcached_connect, if_pos hfd]
    have hvdo : memcached_vdo net s (ptr.servers s) command true =
        memcached_vdo net s host command true := by
      rw [memcached_vdo, memcached_vdo, hconnect, hagain]
    rw [if_pos rfl, exchange, exchange, memcached_st.setServer_self, hvdo]
    rcases memcached_vdo net s host command true with ⟨code, host'⟩
    cases code <;> first | rfl | skip
    simp [readResponse]
  · have hvdo : memcached_vdo net s (ptr.servers s) command true = (rc, host) := by
      rw [memcached_vdo, hconnect]
      cases rc <;> first | rfl | exact absurd rfl hrc
    rw [if_neg hrc, exchange, hvdo]
    cases rc <;> first | rfl | exact absurd rfl hrc

theorem text_delete_eq (net : Network n) (ptr : memcached_st n) (s : Fin n) {key : Bytes}
    (hkey : memcached_validate_key_length key.length false = SUCCESS) (expiration : UInt64) :
    (text_delete net ptr s key expiration).2 =
      (exchange net ptr s (deleteLine key expiration) MEMCACHED_DEFAULT_COMMAND_SIZE).2 := by
  have hshort : ¬ MEMCACHED_DEFAULT_COMMAND_SIZE ≤ (deleteLine key expiration).length :=
    Nat.not_le.mpr (length_deleteLine hkey expiration)
  unfold text_delete
  by_cases hexpiration : expiration = 0
  · have hsame : ptr.setServer s (ptr.servers s) = ptr := by simp [memcached_st.setServer]
    rw [if_neg (not_not.mpr hexpiration)]
    dsimp only
    rw [if_neg hshort, hsame]
  · rw [if_pos hexpiration]
    rcases hconnect : memcached_connect net s (ptr.servers s) with ⟨rc, host⟩
    rw [exchange_connected net ptr s _ _ hconnect]
    cases rc <;> first | rfl | skip
    dsimp only
    rw [if_neg hshort, if_pos rfl]

section writes

variable (net : Network n) {ptr : memcached_st n} {master_key key value : Bytes}
variable {expiration : UInt64} {flags : UInt32} {cas : UInt64} {verb : memcached_storage_action_t}
variable {s : Fin n} {command : Bytes}

/-- A storage command that is written is one exchange with its host. -/
theorem send_of_writes
    (h : storageWrites ptr master_key key value expiration flags cas verb = some (s, command)) :
    command ≠ [] ∧ ∃ buffer_length,
      (memcached_send net ptr master_key key value expiration flags cas verb).2 =
        settleStored ptr.protocol (exchange net ptr s command buffer_length).2 := by
  unfold storageWrites at h
  split_ifs at h with hlength hn hverify
  unfold memcached_send
  dsimp only
  rw [if_neg hlength, dif_pos hn, if_neg hverify]
  dsimp only at h
  cases hp : ptr.protocol with
  | binary =>
    rw [hp] at h
    cases h
    refine ⟨by simp [storagePacket, requestHeader], 0, ?_⟩
    rw [settleStored, if_neg (fun hand => absurd hand.1 (by decide))]
    exact memcached_send_binary_eq net ptr _ key value expiration flags cas verb
  | text =>
    rw [hp] at h
    dsimp only at h
    split_ifs at h with hshort
    cases h
    refine ⟨by simp, MEMCACHED_DEFAULT_COMMAND_SIZE, ?_⟩
    unfold memcached_send_text
    dsimp only
    rw [if_neg hshort]
    simp [settleStored]

/-- A storage command that is not written has a code of its own. -/
theorem send_of_writes_none {ptr' : memcached_st n} (hsame : SameConfig ptr ptr')
    (h : storageWrites ptr master_key key value expiration flags cas verb = none) :
    (memcached_send net ptr' master_key key value expiration flags cas verb).2 =
      (memcached_send net ptr master_key key value expiration flags cas verb).2 := by
  unfold storageWrites at h
  simp only [memcached_send, hsame.protocol, hsame.verify_key]
  by_cases hlength : memcached_validate_key_length key.length (ptr.protocol = .binary) ≠ SUCCESS
  · simp only [if_pos hlength]
  by_cases hn : 0 < n
  · by_cases hverify : ptr.verify_key ∧ memcached_key_test [key] = BAD_KEY_PROVIDED
    · simp only [if_neg hlength, dif_pos hn, if_pos hverify]
    · simp only [if_neg hlength, dif_pos hn, if_neg hverify] at h ⊢
      cases hp : ptr.protocol with
      | binary =>
        rw [hp] at h
        cases h
      | text =>
        rw [hp] at h
        dsimp only at h
        split_ifs at h with hlong
        simp only [memcached_send_text, if_pos hlong]
  · simp only [if_neg hlength, dif_neg hn]

theorem delete_of_writes (h : deleteWrites ptr master_key key expiration = some (s, command)) :
    command ≠ [] ∧ ∃ buffer_length, (memcached_delete_by_key net ptr master_key key expiration).2 =
      settleDeleted (exchange net ptr s command buffer_length).2 := by
  unfold deleteWrites at h
  by_cases hlength : memcached_validate_key_length key.length (ptr.protocol = .binary) ≠ SUCCESS
  · rw [if_pos hlength] at h
    cases h
  by_cases hn : 0 < n
  · simp only [memcached_delete_by_key, if_neg hlength, dif_pos hn] at h ⊢
    cases hp : ptr.protocol with
    | binary =>
      rw [hp] at h
      dsimp only at h ⊢
      split_ifs at h with hexpiration
      cases h
      rw [if_pos hexpiration, binary_delete_eq]
      exact ⟨by simp [requestHeader], MEMCACHED_DEFAULT_COMMAND_SIZE, rfl⟩
    | text =>
      rw [hp] at h hlength
      cases h
      dsimp only
      rw [text_delete_eq net ptr _ (not_not.mp hlength)]
      exact ⟨by simp [deleteLine], MEMCACHED_DEFAULT_COMMAND_SIZE, rfl⟩
  · rw [if_neg hlength, dif_neg hn] at h
    cases h

theorem delete_of_writes_none {ptr' : memcached_st n} (hsame : SameConfig ptr ptr')
    (h : deleteWrites ptr master_key key expiration = none) :
    (memcached_delete_by_key net ptr' master_key key expiration).2 =
      (memcached_delete_by_key net ptr master_key key expiration).2 := by
  unfold deleteWrites at h
  simp only [memcached_delete_by_key, hsame.protocol]
  by_cases hlength : memcached_validate_key_length key.length (ptr.protocol = .binary) ≠ SUCCESS
  · simp only [if_pos hlength]
  by_cases hn : 0 < n
  · simp only [if_neg hlength, dif_pos hn] at h ⊢
    cases hp : ptr.protocol with
    | binary =>
      rw [hp] at h
      dsimp only at h ⊢
      split_ifs at h with hexpiration
      simp only [if_neg hexpiration]
    | text =>
      rw [hp] at h
      cases h
  · simp only [if_neg hlength, dif_neg hn]

end writes

end Libmemcached
