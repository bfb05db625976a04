-- A handle with its hosts, and the requests it sends: the multi-key get in
-- both protocols, the storage commands and delete (get.c, storage.c,
-- delete.c).
import Libmemcached.Response
import Libmemcached.Routing
import Mathlib.Data.List.FinRange
import Mathlib.Data.Fintype.Basic

open Chunks Decimal

namespace Libmemcached

open memcached_return_t memcached_server_st

/-- `memcached_st`, as far as the storage and fetch paths use it when the
behaviors that send a request in another way are off, as on a new handle:
USE_UDP, NOREPLY, NO_BLOCK, BUFFER_REQUESTS and NUMBER_OF_REPLICAS have no field
here. `polls` counts the calls of `poll`, which number the outcomes of a
`Network`. -/
structure memcached_st (n : Nat) where
  servers : Fin n → memcached_server_st
  routing : Routing n
  protocol : Protocol
  verify_key : Bool
  support_cas : Bool
  result : memcached_result_st
  polls : Nat

variable {n : Nat}

namespace memcached_st

/-- A handle whose hosts were added and never used. -/
def create (routing : Routing n) (protocol : Protocol) : memcached_st n where
  servers _ := .init
  routing := routing
  protocol := protocol
  verify_key := false
  support_cas := false
  result := memcached_result_create
  polls := 0

def setServer (ptr : memcached_st n) (s : Fin n) (instance' : memcached_server_st) :
    memcached_st n :=
  { ptr with servers := Function.update ptr.servers s instance' }

@[simp] theorem setServer_self (ptr : memcached_st n) (s : Fin n) (i : memcached_server_st) :
    (ptr.setServer s i).servers s = i := by
  simp [setServer]

theorem setServer_of_ne (ptr : memcached_st n) {s t : Fin n} (i : memcached_server_st)
    (h : t ≠ s) : (ptr.setServer s i).servers t = ptr.servers t := by
  simp [setServer, h]

@[simp] theorem setServer_routing (ptr : memcached_st n) (s : Fin n) (i : memcached_server_st) :
    (ptr.setServer s i).routing = ptr.routing := rfl

@[simp] theorem setServer_protocol (ptr : memcached_st n) (s : Fin n) (i : memcached_server_st) :
    (ptr.setServer s i).protocol = ptr.protocol := rfl

@[simp] theorem setServer_support_cas (ptr : memcached_st n) (s : Fin n) (i : memcached_server_st) :
    (ptr.setServer s i).support_cas = ptr.support_cas := rfl

@[simp] theorem setServer_verify_key (ptr : memcached_st n) (s : Fin n) (i : memcached_server_st) :
    (ptr.setServer s i).verify_key = ptr.verify_key := rfl

@[simp] theorem setServer_result (ptr : memcached_st n) (s : Fin n) (i : memcached_server_st) :
    (ptr.setServer s i).result = ptr.result := rfl

@[simp] theorem setServer_polls (ptr : memcached_st n) (s : Fin n) (i : memcached_server_st) :
    (ptr.setServer s i).polls = ptr.polls := rfl

/-- The bytes that all hosts still have for this handle. -/
def unread (ptr : memcached_st n) : Nat :=
  ((List.finRange n).map fun s => (ptr.servers s).input.bytes.length).sum

/-- The commands are for a host that the routing picks. -/
def hostOf (ptr : memcached_st n) (hn : 0 < n) (key : Bytes) : Fin n :=
  memcached_generate_hash_with_redistribution ptr.routing hn key

end memcached_st

/-- `memcached_response` on one host of a handle, into its result buffer. -/
def readResponse (ptr : memcached_st n) (s : Fin n) (buffer_length : Nat) :
    memcached_return_t × memcached_st n :=
  let (rc, host, result) :=
    memcached_response ptr.protocol (ptr.servers s) buffer_length ptr.result
  (rc, { ptr.setServer s host with result })

/-! ## The multi-key get -/

/-- `while (memcached_server_response_count(instance)) memcached_response(...)`:
each turn reads a byte or closes the connection. -/
def drainHost (s : Fin n) : Nat → memcached_st n → memcached_st n
  | 0, ptr => ptr
  | fuel + 1, ptr =>
    if (ptr.servers s).cursor_active = 0 then ptr
    else drainHost s fuel (readResponse ptr s MEMCACHED_DEFAULT_COMMAND_SIZE).2

/-- The loop that removes what is left of earlier requests. -/
def drainAll (ptr : memcached_st n) : memcached_st n :=
  (List.finRange n).foldl
    (fun ptr s => drainHost s ((ptr.servers s).input.bytes.length + 1) ptr) ptr

/-- The state of the loop over the keys: the handle and `rc`. -/
abbrev Sending (n : Nat) := memcached_st n × memcached_return_t

/-- One turn of the loop over the keys of a text request. -/
def sendTextKey (net : Network n) (command : Bytes) (server_key : Bytes → Fin n) :
    Sending n → Bytes → Sending n
  | (ptr, rc), key =>
    let s := server_key key
    let host := ptr.servers s
    if host.cursor_active = 0 then
      match memcached_connect net s host with
      | (SUCCESS, host) =>
        match memcached_io_write net s host (command ++ key ++ [32]) false with
        | (false, host) => (ptr.setServer s host, SOME_ERRORS)
        | (true, host) => (ptr.setServer s host.response_increment, SUCCESS)
      | (rc, host) => (ptr.setServer s host, rc)
    else
      match memcached_io_write net s host (key ++ [32]) false with
      | (false, host) => (ptr.setServer s host.response_reset, SOME_ERRORS)
      | (true, host) => (ptr.setServer s host, rc)

/-- The end of a text request, for one host. -/
def endTextRequest (net : Network n) : Sending n → Fin n → Sending n
  | (ptr, rc), s =>
    if (ptr.servers s).cursor_active = 0 then (ptr, rc)
    else
      match memcached_io_write net s (ptr.servers s) [13, 10] true with
      | (false, host) => (ptr.setServer s host, SOME_ERRORS)
      | (true, host) => (ptr.setServer s host, rc)

/-- The 24 bytes of a request header. -/
def requestHeader (opcode keylen extlen bodylen cas : Nat) : Bytes :=
  bigEndian 1 0x80 ++ bigEndian 1 opcode ++ bigEndian 2 keylen ++ bigEndian 1 extlen ++ [0] ++
    bigEndian 2 0 ++ bigEndian 4 bodylen ++ [0, 0, 0, 0] ++ bigEndian 8 cas

/-- One turn of the loop of `simple_binary_mget`. A key of a wrong length ends
the loop and the call. -/
def sendBinaryKeys (net : Network n) (server_key : Bytes → Fin n) (flush : Bool) :
    Sending n → (x : Nat) → List Bytes → Sending n × Bool
  | (ptr, rc), _, [] => ((ptr, rc), true)
  | (ptr, rc), x, key :: keys =>
    let s := server_key key
    let opened := if (ptr.servers s).cursor_active = 0 then memcached_connect net s (ptr.servers s)
      else (SUCCESS, ptr.servers s)
    match opened with
    | (SUCCESS, host) =>
      -- `rc` is the code of the connect, when there was one
      let rc := if (ptr.servers s).cursor_active = 0 then SUCCESS else rc
      let vk := memcached_validate_key_length key.length true
      if vk ≠ SUCCESS then
        ((ptr.setServer s (if 0 < x then memcached_io_reset host else host), vk), false)
      else
        let request := requestHeader PROTOCOL_BINARY_CMD_GETKQ key.length 0 key.length 0 ++ key
        match memcached_io_write net s host request flush with
        | (false, host) =>
          sendBinaryKeys net server_key flush (ptr.setServer s host.response_reset, SOME_ERRORS)
            (x + 1) keys
        | (true, host) =>
          sendBinaryKeys net server_key flush
            (ptr.setServer s host.response_reset.response_increment, rc) (x + 1) keys
    | (rc, host) => sendBinaryKeys net server_key flush (ptr.setServer s host, rc) (x + 1) keys

/-- The NOOP that ends a binary request, for one host. -/
def endBinaryRequest (net : Network n) : Sending n → Fin n → Sending n
  | (ptr, rc), s =>
    if (ptr.servers s).cursor_active = 0 then (ptr, rc)
    else
      let noop := requestHeader PROTOCOL_BINARY_CMD_NOOP 0 0 0 0
      match memcached_io_write net s (ptr.servers s) [] true with
      | (false, host) => (ptr.setServer s host.response_reset, SOME_ERRORS)
      | (true, host) =>
        match memcached_io_write net s host noop true with
        | (false, host) => (ptr.setServer s host.response_reset, SOME_ERRORS)
        | (true, host) => (ptr.setServer s host, rc)

/-- The request of a text get. With cas support it asks with `gets`. -/
def getCommand (support_cas : Bool) : Bytes :=
  if support_cas then ascii ['g', 'e', 't', 's', ' '] else ascii ['g', 'e', 't', ' ']

/-- `memcached_mget_by_key`, after its checks: drain, send the keys, end the
requests. The replicating get of the binary protocol is left out. -/
def sendKeys (net : Network n) (ptr : memcached_st n) (server_key : Bytes → Fin n)
    (keys : List Bytes) : memcached_st n × memcached_return_t :=
  let ptr := drainAll ptr
  match ptr.protocol with
  | .binary =>
    match sendBinaryKeys net server_key (keys.length = 1) (ptr, NOTFOUND) 0 keys with
    | (sent, false) => sent
    | (sent, true) => (List.finRange n).foldl (endBinaryRequest net) sent
  | .text =>
    (List.finRange n).foldl (endTextRequest net)
      (keys.foldl (sendTextKey net (getCommand ptr.support_cas) server_key) (ptr, NOTFOUND))

/-- The host of a fetch, or the code with which the call ends before it sends
anything. An empty master key is no master key. -/
def fetchHost (ptr : memcached_st n) (master_key : Option Bytes) (keys : List Bytes) :
    Except memcached_return_t (Bytes → Fin n) :=
  if keys.length = 0 then .error NOTFOUND
  else if hn : 0 < n then
    if ptr.verify_key ∧ memcached_key_test keys = BAD_KEY_PROVIDED then .error BAD_KEY_PROVIDED
    else
      match master_key with
      | some (c :: cs) =>
        if ptr.verify_key ∧ memcached_key_test [c :: cs] = BAD_KEY_PROVIDED then
          .error BAD_KEY_PROVIDED
        else
          let s := ptr.hostOf hn (c :: cs)
          .ok fun _ => s
      | _ => .ok (ptr.hostOf hn)
  else .error NO_SERVERS

/-- `memcached_mget_by_key`. -/
def memcached_mget_by_key (net : Network n) (ptr : memcached_st n) (master_key : Option Bytes)
    (keys : List Bytes) : memcached_st n × memcached_return_t :=
  match fetchHost ptr master_key keys with
  | .error rc => (ptr, rc)
  | .ok server_key => sendKeys net ptr server_key keys

/-- `memcached_mget`: the master key is NULL. -/
def memcached_mget (net : Network n) (ptr : memcached_st n) (keys : List Bytes) :
    memcached_st n × memcached_return_t :=
  memcached_mget_by_key net ptr none keys

end Libmemcached
