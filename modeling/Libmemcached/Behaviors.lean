-- The connect of a handle's hosts (connect.c, quit.c) and its behaviors
-- (behavior.c). What the network does comes from outside.
import Libmemcached.HostList

open Chunks

namespace Libmemcached

open memcached_return_t

variable {n : Nat}

/-! ## Connecting -/

/-- What comes of the system calls of a connect. -/
inductive ConnectOutcome
  | connected
  | lookup_failure
  | socket_failure
  | timeout
  | refused
deriving DecidableEq

/-- `network_connect`. When no address can be connected, the next retry is
scheduled. -/
def network_connect (moment : Moment) (retry_timeout : Int32) (server : ServerSt) :
    ConnectOutcome → ServerSt × memcached_return_t
  | .connected => ({ server with fd := true }, SUCCESS)
  | .lookup_failure => (server, HOST_LOOKUP_FAILURE)
  | .socket_failure => (server, CONNECTION_SOCKET_CREATE_FAILURE)
  | .timeout => (scheduled, TIMEOUT)
  | .refused => (scheduled, ERRNO)
where
  scheduled : ServerSt :=
    if retry_timeout = 0 then server
    else { server with next_retry := moment.now + retry_timeout.toInt }

/-- `unix_socket_connect`. A socket that cannot be connected stays open. -/
def unix_socket_connect (server : ServerSt) : ConnectOutcome → ServerSt × memcached_return_t
  | .connected => ({ server with fd := true }, SUCCESS)
  | .socket_failure => (server, CONNECTION_SOCKET_CREATE_FAILURE)
  | _ => ({ server with fd := true }, ERRNO)

/-- `memcached_quit_server`, on a connection that is closed in good order. -/
def ServerSt.memcached_quit_server (server : ServerSt) : ServerSt :=
  if server.fd then { server with fd := false, server_failure_counter := 0 } else server

namespace ConfigSt

def setServer (ptr : ConfigSt n) (s : Fin n) (server : ServerSt) : ConfigSt n :=
  { ptr with servers := Function.update ptr.servers s server }

/-- The host waits for its retry. -/
def waits (ptr : ConfigSt n) (now : Int) (s : Fin n) : Bool :=
  ptr.retry_timeout ≠ 0 && (ptr.servers s).next_retry ≠ 0 && now < (ptr.servers s).next_retry

/-- The host has failed as often as it may. -/
def failed (ptr : ConfigSt n) (s : Fin n) : Bool :=
  ptr.server_failure_limit ≠ 0 &&
    ptr.server_failure_limit ≤ (ptr.servers s).server_failure_counter

/-- `memcached_connect`. -/
def memcached_connect (lib : Hashkit) (qsort : Qsort) (moment : Moment) (ptr : ConfigSt n)
    (s : Fin n) (outcome : ConnectOutcome) : ConfigSt n × memcached_return_t :=
  if (ptr.servers s).fd then (ptr, SUCCESS)
  else if ptr.waits moment.now s then (ptr, SERVER_MARKED_DEAD)
  else if ptr.failed s then
    (if ptr.flags.auto_eject_hosts then ptr.run_distribution lib qsort moment else ptr,
      SERVER_MARKED_DEAD)
  else
    let (server, rc) := match (ptr.servers s).addr.type with
      | .tcp => network_connect moment ptr.retry_timeout (ptr.servers s) outcome
      | .unix => unix_socket_connect (ptr.servers s) outcome
    let server := if rc = SUCCESS then { server with server_failure_counter := 0, next_retry := 0 }
      else { server with server_failure_counter := server.server_failure_counter + 1 }
    (ptr.setServer s server, rc)

def memcached_quit (ptr : ConfigSt n) : ConfigSt n :=
  { ptr with servers s := (ptr.servers s).memcached_quit_server }

/-- `memcached_io_reset`: the connection is closed after a failure. -/
def memcached_io_reset (ptr : ConfigSt n) (s : Fin n) : ConfigSt n :=
  ptr.setServer s { ptr.servers s with
    fd := false
    server_failure_counter := (ptr.servers s).server_failure_counter + 1 }

/-- `_regen_for_auto_eject`, which every choice of a host runs. -/
def regen_for_auto_eject (lib : Hashkit) (qsort : Qsort) (moment : Moment) (ptr : ConfigSt n) :
    ConfigSt n :=
  if ptr.flags.auto_eject_hosts ∧ ptr.next_distribution_rebuild ≠ 0 ∧
      ptr.next_distribution_rebuild < moment.now then
    ptr.run_distribution lib qsort moment
  else ptr

end ConfigSt

/-! ## Behaviors -/

/-- `memcached_behavior_t`, in the order of the header. -/
inductive memcached_behavior_t
  | NO_BLOCK
  | TCP_NODELAY
  | HASH
  | KETAMA
  | SOCKET_SEND_SIZE
  | SOCKET_RECV_SIZE
  | CACHE_LOOKUPS
  | SUPPORT_CAS
  | POLL_TIMEOUT
  | DISTRIBUTION
  | BUFFER_REQUESTS
  | USER_DATA
  | SORT_HOSTS
  | VERIFY_KEY
  | CONNECT_TIMEOUT
  | RETRY_TIMEOUT
  | KETAMA_WEIGHTED
  | KETAMA_HASH
  | BINARY_PROTOCOL
  | SND_TIMEOUT
  | RCV_TIMEOUT
  | SERVER_FAILURE_LIMIT
  | IO_MSG_WATERMARK
  | IO_BYTES_WATERMARK
  | IO_KEY_PREFETCH
  | HASH_WITH_PREFIX_KEY
  | NOREPLY
  | USE_UDP
  | AUTO_EJECT_HOSTS
  | NUMBER_OF_REPLICAS
  | RANDOMIZE_REPLICA_READ
  | CORK
  | TCP_KEEPALIVE
  | TCP_KEEPIDLE
  | MAX
deriving DecidableEq

/-- What comes of the system calls of a behavior: of the connect to the first
host, of `TCP_CORK` where the system has it, and the size of a socket
buffer. `errno` says whether the handle has noted an error before. -/
structure Probe where
  outcome : ConnectOutcome
  cork : Option (Bool → Bool)
  errno : Bool
  sock_size : Option Int32

def set_flag (data : UInt64) : Bool := data ≠ 0

/-- The number of a hash function in the header. -/
def hashkit_hash_algorithm_t.number : hashkit_hash_algorithm_t → UInt64
  | DEFAULT => 0
  | MD5 => 1
  | CRC => 2
  | FNV1_64 => 3
  | FNV1A_64 => 4
  | FNV1_32 => 5
  | FNV1A_32 => 6
  | HSIEH => 7
  | MURMUR => 8
  | JENKINS => 9
  | CUSTOM => 10
  | MAX => 11

/-- The hash functions that `hashkit_set_function` takes. -/
def Hashkit.functions (lib : Hashkit) : List hashkit_hash_algorithm_t :=
  [.DEFAULT, .MD5, .CRC, .FNV1_64, .FNV1A_64, .FNV1_32, .FNV1A_32] ++
    (if lib.have_hsieh then [.HSIEH] else []) ++ [.MURMUR, .JENKINS]

/-- `hashkit_set_function`: the function of this number, if there is one. -/
def hashkit_set_function (lib : Hashkit) (type : UInt32) : Option hashkit_hash_algorithm_t :=
  lib.functions.find? fun function => function.number = type.toUInt64

def memcached_server_distribution_t.number : memcached_server_distribution_t → UInt64
  | MODULA => 0
  | CONSISTENT => 1
  | CONSISTENT_KETAMA => 2
  | RANDOM => 3
  | CONSISTENT_KETAMA_SPY => 4
  | CONSISTENT_MAX => 5

def boolean (b : Bool) : UInt64 := if b then 1 else 0

def signed (x : Int32) : UInt64 := x.toInt64.toUInt64

def distributionTypes : List memcached_server_distribution_t :=
  [.MODULA, .CONSISTENT, .CONSISTENT_KETAMA, .RANDOM, .CONSISTENT_KETAMA_SPY]

namespace ConfigSt

def memcached_behavior_set_key_hash (lib : Hashkit) (ptr : ConfigSt n) (type : UInt32) :
    ConfigSt n × memcached_return_t :=
  match hashkit_set_function lib type with
  | some function => ({ ptr with hashkit := function }, SUCCESS)
  | none => (ptr, FAILURE)

def memcached_behavior_set_distribution_hash (lib : Hashkit) (ptr : ConfigSt n) (type : UInt32) :
    ConfigSt n × memcached_return_t :=
  match hashkit_set_function lib type with
  | some function => ({ ptr with distribution_hashkit := function }, SUCCESS)
  | none => (ptr, FAILURE)

def memcached_behavior_set_distribution (lib : Hashkit) (qsort : Qsort) (moment : Moment)
    (ptr : ConfigSt n) (type : UInt32) : ConfigSt n × memcached_return_t :=
  match distributionTypes.find? fun distribution => distribution.number = type.toUInt64 with
  | some distribution =>
    ({ ptr with distribution }.run_distribution lib qsort moment, SUCCESS)
  | none => (ptr, FAILURE)

/-- `MEMCACHED_BEHAVIOR_CORK` with a value: it is tried on the first host. -/
def setCork (lib : Hashkit) (qsort : Qsort) (moment : Moment) (probe : Probe) (ptr : ConfigSt n) :
    ConfigSt n × memcached_return_t :=
  if hn : 0 < n then
    let first : Fin n := ⟨0, hn⟩
    match ptr.memcached_connect lib qsort moment first probe.outcome with
    | (ptr, SUCCESS) =>
      match probe.cork with
      | none => (ptr, NOT_SUPPORTED)
      | some cork =>
        if (ptr.servers first).addr.type = .tcp ∧ cork true then
          if cork false then
            ({ ptr with flags := { ptr.flags with cork := true, tcp_nodelay := true } }
              |>.memcached_quit, SUCCESS)
          else (ptr.setServer first (ptr.servers first).memcached_quit_server, ERRNO)
        else (ptr, if probe.errno then ERRNO else FAILURE)
    | (ptr, rc) => (ptr, rc)
  else (ptr, NO_SERVERS)

/-- `memcached_behavior_set`. -/
def memcached_behavior_set (lib : Hashkit) (qsort : Qsort) (moment : Moment) (probe : Probe)
    (ptr : ConfigSt n) (flag : memcached_behavior_t) (data : UInt64) :
    ConfigSt n × memcached_return_t :=
  match flag with
  | .NUMBER_OF_REPLICAS => ({ ptr with number_of_replicas := data.toUInt32 }, SUCCESS)
  | .IO_MSG_WATERMARK => ({ ptr with io_msg_watermark := data.toUInt32 }, SUCCESS)
  | .IO_BYTES_WATERMARK => ({ ptr with io_bytes_watermark := data.toUInt32 }, SUCCESS)
  | .IO_KEY_PREFETCH => ({ ptr with io_key_prefetch := data.toUInt32 }, SUCCESS)
  | .SND_TIMEOUT => ({ ptr with snd_timeout := data.toUInt32.toInt32 }, SUCCESS)
  | .RCV_TIMEOUT => ({ ptr with rcv_timeout := data.toUInt32.toInt32 }, SUCCESS)
  | .SERVER_FAILURE_LIMIT => ({ ptr with server_failure_limit := data.toUInt32 }, SUCCESS)
  | .BINARY_PROTOCOL =>
    let ptr := ptr.memcached_quit
    ({ ptr with flags := { ptr.flags with
        verify_key := ptr.flags.verify_key && !set_flag data
        binary_protocol := set_flag data } }, SUCCESS)
  | .SUPPORT_CAS =>
    ({ ptr with flags := { ptr.flags with support_cas := set_flag data } }, SUCCESS)
  | .NO_BLOCK =>
    ({ ptr with flags := { ptr.flags with no_block := set_flag data } }.memcached_quit, SUCCESS)
  | .BUFFER_REQUESTS =>
    ({ ptr with flags := { ptr.flags with buffer_requests := set_flag data } }.memcached_quit,
      SUCCESS)
  | .USE_UDP =>
    if n ≠ 0 then (ptr, FAILURE)
    else
      ({ ptr with flags := { ptr.flags with
          use_udp := set_flag data
          no_reply := ptr.flags.no_reply || set_flag data } }, SUCCESS)
  | .TCP_NODELAY =>
    ({ ptr with flags := { ptr.flags with tcp_nodelay := set_flag data } }.memcached_quit, SUCCESS)
  | .TCP_KEEPALIVE =>
    ({ ptr with flags := { ptr.flags with tcp_keepalive := set_flag data } }.memcached_quit,
      SUCCESS)
  | .DISTRIBUTION => ptr.memcached_behavior_set_distribution lib qsort moment data.toUInt32
  | .KETAMA =>
    let (hash, type) : hashkit_hash_algorithm_t × memcached_server_distribution_t :=
      if set_flag data then (.MD5, .CONSISTENT_KETAMA) else (.DEFAULT, .MODULA)
    let ptr := (ptr.memcached_behavior_set_key_hash lib hash.number.toUInt32).1
    let ptr := (ptr.memcached_behavior_set_distribution_hash lib hash.number.toUInt32).1
    ((ptr.memcached_behavior_set_distribution lib qsort moment type.number.toUInt32).1, SUCCESS)
  | .KETAMA_WEIGHTED =>
    let ptr := (ptr.memcached_behavior_set_key_hash lib hashkit_hash_algorithm_t.MD5.number.toUInt32).1
    let ptr := (ptr.memcached_behavior_set_distribution_hash lib
      hashkit_hash_algorithm_t.MD5.number.toUInt32).1
    { ptr with flags := { ptr.flags with ketama_weighted := set_flag data } }
      |>.memcached_behavior_set_distribution lib qsort moment
        memcached_server_distribution_t.CONSISTENT_KETAMA.number.toUInt32
  | .HASH => ptr.memcached_behavior_set_key_hash lib data.toUInt32
  | .KETAMA_HASH => ptr.memcached_behavior_set_distribution_hash lib data.toUInt32
  | .CACHE_LOOKUPS =>
    ({ ptr with flags := { ptr.flags with use_cache_lookups := set_flag data } }.memcached_quit,
      SUCCESS)
  | .VERIFY_KEY =>
    if ptr.flags.binary_protocol then (ptr, FAILURE)
    else ({ ptr with flags := { ptr.flags with verify_key := set_flag data } }, SUCCESS)
  | .SORT_HOSTS =>
    ({ ptr with flags := { ptr.flags with use_sort_hosts := set_flag data } }.run_distribution
      lib qsort moment, SUCCESS)
  | .POLL_TIMEOUT => ({ ptr with poll_timeout := data.toUInt32.toInt32 }, SUCCESS)
  | .CONNECT_TIMEOUT => ({ ptr with connect_timeout := data.toUInt32.toInt32 }, SUCCESS)
  | .RETRY_TIMEOUT => ({ ptr with retry_timeout := data.toUInt32.toInt32 }, SUCCESS)
  | .SOCKET_SEND_SIZE =>
    ({ ptr with send_size := data.toUInt32.toInt32 }.memcached_quit, SUCCESS)
  | .SOCKET_RECV_SIZE =>
    ({ ptr with recv_size := data.toUInt32.toInt32 }.memcached_quit, SUCCESS)
  | .TCP_KEEPIDLE => ({ ptr with tcp_keepidle := data.toUInt32 }.memcached_quit, SUCCESS)
  | .USER_DATA => (ptr, FAILURE)
  | .HASH_WITH_PREFIX_KEY =>
    ({ ptr with flags := { ptr.flags with hash_with_prefix_key := set_flag data } }, SUCCESS)
  | .NOREPLY => ({ ptr with flags := { ptr.flags with no_reply := set_flag data } }, SUCCESS)
  | .AUTO_EJECT_HOSTS =>
    ({ ptr with flags := { ptr.flags with auto_eject_hosts := set_flag data } }, SUCCESS)
  | .RANDOMIZE_REPLICA_READ =>
    ({ ptr with flags := { ptr.flags with randomize_replica_read := set_flag data } }, SUCCESS)
  | .CORK =>
    if set_flag data then ptr.setCork lib qsort moment probe
    else ({ ptr with flags := { ptr.flags with cork := false } }, SUCCESS)
  | .MAX => (ptr, FAILURE)

/-- The size of a socket buffer: the one that was set, or that of the connected
first host. -/
def socketSize (lib : Hashkit) (qsort : Qsort) (moment : Moment) (probe : Probe)
    (ptr : ConfigSt n) (size : Int32) : ConfigSt n × UInt64 :=
  if size ≠ -1 then (ptr, signed size)
  else if hn : 0 < n then
    match ptr.memcached_connect lib qsort moment ⟨0, hn⟩ probe.outcome with
    | (ptr, SUCCESS) => (ptr, (probe.sock_size.map signed).getD 0)
    | (ptr, _) => (ptr, 0)
  else (ptr, 0)

/-- `memcached_behavior_get`. -/
def memcached_behavior_get (lib : Hashkit) (qsort : Qsort) (moment : Moment) (probe : Probe)
    (ptr : ConfigSt n) (flag : memcached_behavior_t) : ConfigSt n × UInt64 :=
  match flag with
  | .NUMBER_OF_REPLICAS => (ptr, ptr.number_of_replicas.toUInt64)
  | .IO_MSG_WATERMARK => (ptr, ptr.io_msg_watermark.toUInt64)
  | .IO_BYTES_WATERMARK => (ptr, ptr.io_bytes_watermark.toUInt64)
  | .IO_KEY_PREFETCH => (ptr, ptr.io_key_prefetch.toUInt64)
  | .BINARY_PROTOCOL => (ptr, boolean ptr.flags.binary_protocol)
  | .SUPPORT_CAS => (ptr, boolean ptr.flags.support_cas)
  | .CACHE_LOOKUPS => (ptr, boolean ptr.flags.use_cache_lookups)
  | .NO_BLOCK => (ptr, boolean ptr.flags.no_block)
  | .BUFFER_REQUESTS => (ptr, boolean ptr.flags.buffer_requests)
  | .USE_UDP => (ptr, boolean ptr.flags.use_udp)
  | .TCP_NODELAY => (ptr, boolean ptr.flags.tcp_nodelay)
  | .VERIFY_KEY => (ptr, boolean ptr.flags.verify_key)
  | .KETAMA_WEIGHTED => (ptr, boolean ptr.flags.ketama_weighted)
  | .DISTRIBUTION => (ptr, ptr.distribution.number)
  | .KETAMA => (ptr, boolean (ptr.distribution = .CONSISTENT_KETAMA))
  | .HASH => (ptr, ptr.hashkit.number)
  | .KETAMA_HASH => (ptr, ptr.distribution_hashkit.number)
  | .SERVER_FAILURE_LIMIT => (ptr, ptr.server_failure_limit.toUInt64)
  | .SORT_HOSTS => (ptr, boolean ptr.flags.use_sort_hosts)
  | .POLL_TIMEOUT => (ptr, signed ptr.poll_timeout)
  | .CONNECT_TIMEOUT => (ptr, signed ptr.connect_timeout)
  | .RETRY_TIMEOUT => (ptr, signed ptr.retry_timeout)
  | .SND_TIMEOUT => (ptr, signed ptr.snd_timeout)
  | .RCV_TIMEOUT => (ptr, signed ptr.rcv_timeout)
  | .TCP_KEEPIDLE => (ptr, ptr.tcp_keepidle.toUInt64)
  | .SOCKET_SEND_SIZE => ptr.socketSize lib qsort moment probe ptr.send_size
  | .SOCKET_RECV_SIZE => ptr.socketSize lib qsort moment probe ptr.recv_size
  | .USER_DATA => (ptr, 1)
  | .HASH_WITH_PREFIX_KEY => (ptr, boolean ptr.flags.hash_with_prefix_key)
  | .NOREPLY => (ptr, boolean ptr.flags.no_reply)
  | .AUTO_EJECT_HOSTS => (ptr, boolean ptr.flags.auto_eject_hosts)
  | .RANDOMIZE_REPLICA_READ => (ptr, boolean ptr.flags.randomize_replica_read)
  | .CORK => (ptr, boolean ptr.flags.cork)
  | .TCP_KEEPALIVE => (ptr, boolean ptr.flags.tcp_keepalive)
  | .MAX => (ptr, 0)

end ConfigSt

end Libmemcached
