-- The commands that read one response: the storage commands, delete,
-- increment and decrement, flush, and the statistics (storage.c, delete.c,
-- auto.c, flush.c, stats.c).
import Libmemcached.Handle

open Chunks Decimal

namespace Libmemcached

open memcached_return_t memcached_server_st

variable {n : Nat}

/-- A command to one host, and its response: `memcached_vdo`, then
`memcached_response` when the command was written. -/
def exchange (net : Network n) (ptr : memcached_st n) (s : Fin n) (command : Bytes)
    (buffer_length : Nat) : memcached_st n × memcached_return_t :=
  match memcached_vdo net s (ptr.servers s) command true with
  | (SUCCESS, host) =>
    let (rc, ptr) := readResponse (ptr.setServer s host) s buffer_length
    (ptr, rc)
  | (rc, host) => (ptr.setServer s host, rc)

/-! ## Storage -/

/-- `memcached_storage_action_t`. -/
inductive memcached_storage_action_t
  | SET_OP
  | REPLACE_OP
  | ADD_OP
  | PREPEND_OP
  | APPEND_OP
  | CAS_OP
deriving DecidableEq

open memcached_storage_action_t

def storage_op_string : memcached_storage_action_t → Bytes
  | SET_OP => ascii ['s', 'e', 't', ' ']
  | REPLACE_OP => ascii ['r', 'e', 'p', 'l', 'a', 'c', 'e', ' ']
  | ADD_OP => ascii ['a', 'd', 'd', ' ']
  | PREPEND_OP => ascii ['p', 'r', 'e', 'p', 'e', 'n', 'd', ' ']
  | APPEND_OP => ascii ['a', 'p', 'p', 'e', 'n', 'd', ' ']
  | CAS_OP => ascii ['c', 'a', 's', ' ']

/-- `get_com_code`, with no_reply off. -/
def get_com_code : memcached_storage_action_t → Nat
  | SET_OP => PROTOCOL_BINARY_CMD_SET
  | ADD_OP => PROTOCOL_BINARY_CMD_ADD
  | CAS_OP | REPLACE_OP => PROTOCOL_BINARY_CMD_REPLACE
  | APPEND_OP => PROTOCOL_BINARY_CMD_APPEND
  | PREPEND_OP => PROTOCOL_BINARY_CMD_PREPEND

/-- What `%.*s` prints of a key: it stops at a NUL. -/
def cString (key : Bytes) : Bytes := key.takeWhile (· ≠ 0)

/-- The command line of a text storage command. A cas of 0 is left out. -/
def storageLine (verb : memcached_storage_action_t) (key : Bytes) (flags : UInt32)
    (expiration : UInt64) (value_length : Nat) (cas : UInt64) : Bytes :=
  let numbers := decimal flags.toNat ++ [32] ++ decimal expiration.toNat ++ [32] ++
    decimal value_length
  if cas ≠ 0 then
    storage_op_string verb ++ [32] ++ cString key ++ [32] ++ numbers ++ [32] ++
      decimal cas.toNat ++ [13, 10]
  else storage_op_string verb ++ key ++ [32] ++ numbers ++ [13, 10]

/-- The bytes of a binary storage command. Append and prepend have no
extras. -/
def storagePacket (verb : memcached_storage_action_t) (key value : Bytes) (flags : UInt32)
    (expiration : UInt64) (cas : UInt64) : Bytes :=
  let extras := if verb = APPEND_OP ∨ verb = PREPEND_OP then []
    else bigEndian 4 flags.toNat ++ bigEndian 4 expiration.toNat
  requestHeader (get_com_code verb) key.length extras.length
    (key.length + value.length + extras.length) cas.toNat ++ extras ++ key ++ value

/-- `memcached_send_binary`. -/
def memcached_send_binary (net : Network n) (ptr : memcached_st n) (s : Fin n) (key value : Bytes)
    (expiration : UInt64) (flags : UInt32) (cas : UInt64) (verb : memcached_storage_action_t) :
    memcached_st n × memcached_return_t :=
  match memcached_vdo net s (ptr.servers s) (storagePacket verb key value flags expiration cas)
      true with
  | (SUCCESS, host) =>
    let (rc, ptr) := readResponse (ptr.setServer s host) s 0
    (ptr, rc)
  | (rc, host) => (ptr.setServer s (memcached_io_reset host), rc)

/-- The text branch of `memcached_send`. -/
def memcached_send_text (net : Network n) (ptr : memcached_st n) (s : Fin n) (key value : Bytes)
    (expiration : UInt64) (flags : UInt32) (cas : UInt64) (verb : memcached_storage_action_t) :
    memcached_st n × memcached_return_t :=
  let line := storageLine verb key flags expiration value.length cas
  let (ptr, rc) := if MEMCACHED_DEFAULT_COMMAND_SIZE ≤ line.length then (ptr, WRITE_FAILURE)
    else
      let (ptr, rc) := exchange net ptr s (line ++ value ++ [13, 10]) MEMCACHED_DEFAULT_COMMAND_SIZE
      (ptr, if rc = STORED then SUCCESS else rc)
  (if rc = WRITE_FAILURE then ptr.setServer s (memcached_io_reset (ptr.servers s)) else ptr, rc)

/-- What its exchange keeps, and a reset of the host, is kept. -/
theorem memcached_send_text_keeps {net : Network n} {ptr : memcached_st n} {s : Fin n}
    {key value : Bytes} {expiration cas : UInt64} {flags : UInt32}
    {verb : memcached_storage_action_t} {P : memcached_st n → Prop} (h : P ptr)
    (hreset : ∀ ptr', P ptr' → P (ptr'.setServer s (memcached_io_reset (ptr'.servers s))))
    (hexchange : P (exchange net ptr s
      (storageLine verb key flags expiration value.length cas ++ value ++ [13, 10])
      MEMCACHED_DEFAULT_COMMAND_SIZE).1) :
    P (memcached_send_text net ptr s key value expiration flags cas verb).1 := by
  unfold memcached_send_text
  dsimp only
  by_cases hline : MEMCACHED_DEFAULT_COMMAND_SIZE ≤
      (storageLine verb key flags expiration value.length cas).length
  · rw [if_pos hline]
    exact hreset ptr h
  · rw [if_neg hline]
    generalize exchange net ptr s (storageLine verb key flags expiration value.length cas ++ value ++
      [13, 10]) MEMCACHED_DEFAULT_COMMAND_SIZE = sent at hexchange ⊢
    obtain ⟨ptr', rc⟩ := sent
    dsimp only at hexchange ⊢
    by_cases hwritten : (if rc = STORED then SUCCESS else rc) = WRITE_FAILURE
    · rw [if_pos hwritten]
      exact hreset ptr' hexchange
    · rw [if_neg hwritten]
      exact hexchange

/-- The host of a storage command or a delete: the master key is hashed, even
when it is empty. -/
def storageHost (ptr : memcached_st n) (hn : 0 < n) (master_key : Bytes) : Fin n :=
  ptr.hostOf hn master_key

/-- `memcached_send`. -/
def memcached_send (net : Network n) (ptr : memcached_st n) (master_key key value : Bytes)
    (expiration : UInt64) (flags : UInt32) (cas : UInt64) (verb : memcached_storage_action_t) :
    memcached_st n × memcached_return_t :=
  let rc := memcached_validate_key_length key.length (ptr.protocol = .binary)
  if rc ≠ SUCCESS then (ptr, rc)
  else if hn : 0 < n then
    if ptr.verify_key ∧ memcached_key_test [key] = BAD_KEY_PROVIDED then (ptr, BAD_KEY_PROVIDED)
    else
      let s := storageHost ptr hn master_key
      match ptr.protocol with
      | .binary => memcached_send_binary net ptr s key value expiration flags cas verb
      | .text => memcached_send_text net ptr s key value expiration flags cas verb
  else (ptr, NO_SERVERS)

/-! The storage calls. Without a master key the key is its own master key. -/

def memcached_set (net : Network n) (ptr : memcached_st n) (key value : Bytes)
    (expiration : UInt64) (flags : UInt32) : memcached_st n × memcached_return_t :=
  memcached_send net ptr key key value expiration flags 0 SET_OP

def memcached_set_by_key (net : Network n) (ptr : memcached_st n) (master_key key value : Bytes)
    (expiration : UInt64) (flags : UInt32) : memcached_st n × memcached_return_t :=
  memcached_send net ptr master_key key value expiration flags 0 SET_OP

def memcached_add (net : Network n) (ptr : memcached_st n) (key value : Bytes)
    (expiration : UInt64) (flags : UInt32) : memcached_st n × memcached_return_t :=
  memcached_send net ptr key key value expiration flags 0 ADD_OP

def memcached_add_by_key (net : Network n) (ptr : memcached_st n) (master_key key value : Bytes)
    (expiration : UInt64) (flags : UInt32) : memcached_st n × memcached_return_t :=
  memcached_send net ptr master_key key value expiration flags 0 ADD_OP

def memcached_replace (net : Network n) (ptr : memcached_st n) (key value : Bytes)
    (expiration : UInt64) (flags : UInt32) : memcached_st n × memcached_return_t :=
  memcached_send net ptr key key value expiration flags 0 REPLACE_OP

def memcached_replace_by_key (net : Network n) (ptr : memcached_st n) (master_key key value : Bytes)
    (expiration : UInt64) (flags : UInt32) : memcached_st n × memcached_return_t :=
  memcached_send net ptr master_key key value expiration flags 0 REPLACE_OP

def memcached_prepend (net : Network n) (ptr : memcached_st n) (key value : Bytes)
    (expiration : UInt64) (flags : UInt32) : memcached_st n × memcached_return_t :=
  memcached_send net ptr key key value expiration flags 0 PREPEND_OP

def memcached_prepend_by_key (net : Network n) (ptr : memcached_st n) (master_key key value : Bytes)
    (expiration : UInt64) (flags : UInt32) : memcached_st n × memcached_return_t :=
  memcached_send net ptr master_key key value expiration flags 0 PREPEND_OP

def memcached_append (net : Network n) (ptr : memcached_st n) (key value : Bytes)
    (expiration : UInt64) (flags : UInt32) : memcached_st n × memcached_return_t :=
  memcached_send net ptr key key value expiration flags 0 APPEND_OP

def memcached_append_by_key (net : Network n) (ptr : memcached_st n) (master_key key value : Bytes)
    (expiration : UInt64) (flags : UInt32) : memcached_st n × memcached_return_t :=
  memcached_send net ptr master_key key value expiration flags 0 APPEND_OP

def memcached_cas (net : Network n) (ptr : memcached_st n) (key value : Bytes)
    (expiration : UInt64) (flags : UInt32) (cas : UInt64) : memcached_st n × memcached_return_t :=
  memcached_send net ptr key key value expiration flags cas CAS_OP

def memcached_cas_by_key (net : Network n) (ptr : memcached_st n) (master_key key value : Bytes)
    (expiration : UInt64) (flags : UInt32) (cas : UInt64) : memcached_st n × memcached_return_t :=
  memcached_send net ptr master_key key value expiration flags cas CAS_OP

/-! ## Delete -/

/-- The text of a delete. The version of a host is never asked for, so an
expiration is sent. -/
def deleteLine (key : Bytes) (expiration : UInt64) : Bytes :=
  ascii ['d', 'e', 'l', 'e', 't', 'e', ' '] ++ cString key ++
    (if expiration ≠ 0 then 32 :: decimal expiration.toUInt32.toNat else []) ++ [13, 10]

/-- `binary_delete`, and the response. -/
def binary_delete (net : Network n) (ptr : memcached_st n) (s : Fin n) (key : Bytes) :
    memcached_st n × memcached_return_t :=
  let packet := requestHeader PROTOCOL_BINARY_CMD_DELETE key.length 0 key.length 0 ++ key
  match memcached_vdo net s (ptr.servers s) packet true with
  | (SUCCESS, host) =>
    let (rc, ptr) := readResponse (ptr.setServer s host) s MEMCACHED_DEFAULT_COMMAND_SIZE
    (ptr, rc)
  | (rc, host) => (ptr.setServer s (memcached_io_reset host), rc)

/-- The text branch of `memcached_delete_by_key`. -/
def text_delete (net : Network n) (ptr : memcached_st n) (s : Fin n) (key : Bytes)
    (expiration : UInt64) : memcached_st n × memcached_return_t :=
  -- with an expiration the connection is opened first
  match if expiration ≠ 0 then memcached_connect net s (ptr.servers s)
      else (SUCCESS, ptr.servers s) with
  | (SUCCESS, host) =>
    let line := deleteLine key expiration
    if MEMCACHED_DEFAULT_COMMAND_SIZE ≤ line.length then (ptr.setServer s host, WRITE_FAILURE)
    else exchange net (ptr.setServer s host) s line MEMCACHED_DEFAULT_COMMAND_SIZE
  | (rc, host) => (ptr.setServer s host, rc)

/-- `memcached_delete_by_key`. -/
def memcached_delete_by_key (net : Network n) (ptr : memcached_st n) (master_key key : Bytes)
    (expiration : UInt64) : memcached_st n × memcached_return_t :=
  let rc := memcached_validate_key_length key.length (ptr.protocol = .binary)
  if rc ≠ SUCCESS then (ptr, rc)
  else if hn : 0 < n then
    let s := storageHost ptr hn master_key
    let (ptr, rc) := match ptr.protocol with
      | .binary => if expiration = 0 then binary_delete net ptr s key else (ptr, INVALID_ARGUMENTS)
      | .text => text_delete net ptr s key expiration
    (ptr, if rc = DELETED then SUCCESS else rc)
  else (ptr, NO_SERVERS)

/-- `memcached_delete`. -/
def memcached_delete (net : Network n) (ptr : memcached_st n) (key : Bytes) (expiration : UInt64) :
    memcached_st n × memcached_return_t :=
  memcached_delete_by_key net ptr key key expiration

/-! ## Increment and decrement

Only what they do to the handle; the number that comes back is left out. -/

inductive IncrDecr
  | incr
  | decr

def IncrDecr.verb : IncrDecr → Bytes
  | .incr => ascii ['i', 'n', 'c', 'r']
  | .decr => ascii ['d', 'e', 'c', 'r']

def IncrDecr.opcode : IncrDecr → Nat
  | .incr => PROTOCOL_BINARY_CMD_INCREMENT
  | .decr => PROTOCOL_BINARY_CMD_DECREMENT

/-- `text_incr_decr`. -/
def text_incr_decr (net : Network n) (ptr : memcached_st n) (s : Fin n) (op : IncrDecr)
    (key : Bytes) (offset : UInt64) : memcached_st n :=
  let line := op.verb ++ [32] ++ cString key ++ [32] ++ decimal offset.toNat ++ [13, 10]
  if MEMCACHED_DEFAULT_COMMAND_SIZE ≤ line.length then ptr
  else (exchange net ptr s line MEMCACHED_DEFAULT_COMMAND_SIZE).1

/-- `binary_incr_decr`. Without an expiration no counter is created. -/
def binary_incr_decr (net : Network n) (ptr : memcached_st n) (s : Fin n) (op : IncrDecr)
    (key : Bytes) (offset : UInt64) : memcached_st n :=
  let packet := requestHeader op.opcode key.length 20 (key.length + 20) 0 ++
    bigEndian 8 offset.toNat ++ bigEndian 8 0 ++ bigEndian 4 0xffffffff ++ key
  match memcached_vdo net s (ptr.servers s) packet true with
  | (SUCCESS, host) => (readResponse (ptr.setServer s host) s 8).2
  | (_, host) => ptr.setServer s (memcached_io_reset host)

/-- `memcached_increment` and `memcached_decrement`. -/
def memcached_incr_decr (net : Network n) (ptr : memcached_st n) (op : IncrDecr) (key : Bytes)
    (offset : UInt64) : memcached_st n :=
  if memcached_validate_key_length key.length (ptr.protocol = .binary) ≠ SUCCESS then ptr
  else if hn : 0 < n then
    match ptr.protocol with
    | .binary => binary_incr_decr net ptr (storageHost ptr hn key) op key offset
    | .text =>
      if ptr.verify_key ∧ memcached_key_test [key] = BAD_KEY_PROVIDED then ptr
      else text_incr_decr net ptr (storageHost ptr hn key) op key offset
  else ptr

/-! ## All hosts -/

/-- `memcached_flush_textual`: what a host answers is ignored. -/
def memcached_flush_textual (net : Network n) (ptr : memcached_st n) (expiration : UInt64) :
    memcached_st n × memcached_return_t :=
  let line := ascii ['f', 'l', 'u', 's', 'h', '_', 'a', 'l', 'l'] ++
    (if expiration ≠ 0 then 32 :: decimal expiration.toNat else []) ++ [13, 10]
  if n = 0 then (ptr, NO_SERVERS)
  else
    ((List.finRange n).foldl
      (fun ptr s => (exchange net ptr s line MEMCACHED_DEFAULT_COMMAND_SIZE).1) ptr, SUCCESS)

/-- The first loop of `memcached_flush_binary`. A host that cannot be written
to ends it, and the call. -/
def flushHosts (net : Network n) (packet : Bytes) :
    List (Fin n) → memcached_st n → memcached_st n × Bool
  | [], ptr => (ptr, true)
  | s :: hosts, ptr =>
    match memcached_vdo net s (ptr.servers s) packet true with
    | (SUCCESS, host) => flushHosts net packet hosts (ptr.setServer s host)
    | (_, host) => (ptr.setServer s (memcached_io_reset host), false)

/-- The second loop: the response of each host is read, and ignored. -/
def readFlushed (ptr : memcached_st n) (s : Fin n) : memcached_st n :=
  if 0 < (ptr.servers s).cursor_active then (readResponse ptr s 0).2 else ptr

/-- `memcached_flush_binary`. -/
def memcached_flush_binary (net : Network n) (ptr : memcached_st n) (expiration : UInt64) :
    memcached_st n × memcached_return_t :=
  let packet := requestHeader PROTOCOL_BINARY_CMD_FLUSH 0 4 4 0 ++ bigEndian 4 expiration.toNat
  if n = 0 then (ptr, NO_SERVERS)
  else
    match flushHosts net packet (List.finRange n) ptr with
    | (ptr, false) => (ptr, WRITE_FAILURE)
    | (ptr, true) => ((List.finRange n).foldl readFlushed ptr, SUCCESS)

/-- `memcached_flush`. -/
def memcached_flush (net : Network n) (ptr : memcached_st n) (expiration : UInt64) :
    memcached_st n × memcached_return_t :=
  match ptr.protocol with
  | .binary => memcached_flush_binary net ptr expiration
  | .text => memcached_flush_textual net ptr expiration

/-- `memcached_quit`. -/
def memcached_quit (ptr : memcached_st n) : memcached_st n :=
  (List.finRange n).foldl (fun ptr s => ptr.setServer s (memcached_quit_server (ptr.servers s))) ptr

/-- The loop of `ascii_stats_fetch`: each STAT line is read, up to another
response. -/
def statsLoop (s : Fin n) : Nat → memcached_st n → memcached_st n × memcached_return_t
  | 0, ptr => (ptr, STAT)
  | fuel + 1, ptr =>
    let (rc, ptr) := readResponse ptr s MEMCACHED_DEFAULT_COMMAND_SIZE
    if rc = STAT then statsLoop s fuel ptr else (ptr, rc)

/-- `ascii_stats_fetch`, without arguments. The figures are left out. -/
def ascii_stats_fetch (net : Network n) (ptr : memcached_st n) (s : Fin n) :
    memcached_st n × memcached_return_t :=
  let line := ascii ['s', 't', 'a', 't', 's'] ++ [13, 10]
  match memcached_vdo net s (ptr.servers s) line true with
  | (SUCCESS, host) =>
    let (ptr, rc) := statsLoop s (host.input.bytes.length + 1) (ptr.setServer s host)
    (ptr, if rc = END then SUCCESS else rc)
  | (rc, host) => (ptr.setServer s host, rc)

/-- `memcached_stat` of the text protocol, for every host. -/
def memcached_stat (net : Network n) (ptr : memcached_st n) : memcached_st n × memcached_return_t :=
  (List.finRange n).foldl
    (fun st s =>
      let (ptr, rc) := ascii_stats_fetch net st.1 s
      (ptr, if rc ≠ SUCCESS then SOME_ERRORS else st.2)) (ptr, SUCCESS)

/-- The loop of `binary_stats_fetch`: packets are read up to the one without
a body. The figures are left out. -/
def binaryStatsLoop (s : Fin n) : Nat → memcached_st n → memcached_st n × memcached_return_t
  | 0, ptr => (ptr, SUCCESS)
  | fuel + 1, ptr =>
    let (rc, ptr) := readResponse ptr s MEMCACHED_DEFAULT_COMMAND_SIZE
    if rc = END then (ptr.setServer s (response_reset (ptr.servers s)), SUCCESS)
    else if rc ≠ SUCCESS then (ptr.setServer s (memcached_io_reset (ptr.servers s)), rc)
    else binaryStatsLoop s fuel ptr

/-- `binary_stats_fetch`, without arguments. The count goes down before the
first response is read, and is set to 0 behind the last one. -/
def binary_stats_fetch (net : Network n) (ptr : memcached_st n) (s : Fin n) :
    memcached_st n × memcached_return_t :=
  match memcached_vdo net s (ptr.servers s) (requestHeader PROTOCOL_BINARY_CMD_STAT 0 0 0 0)
      true with
  | (SUCCESS, host) =>
    binaryStatsLoop s (host.input.bytes.length + 1) (ptr.setServer s host.response_decrement)
  | (_, host) => (ptr.setServer s (memcached_io_reset host), WRITE_FAILURE)

/-- `memcached_stat` of the binary protocol, for every host. -/
def memcached_stat_binary (net : Network n) (ptr : memcached_st n) :
    memcached_st n × memcached_return_t :=
  (List.finRange n).foldl
    (fun st s =>
      let (ptr, rc) := binary_stats_fetch net st.1 s
      (ptr, if rc ≠ SUCCESS then SOME_ERRORS else st.2)) (ptr, SUCCESS)

end Libmemcached
