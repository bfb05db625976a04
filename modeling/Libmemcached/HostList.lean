-- The list of hosts and the continuum that is built from it (hosts.c). The
-- hash functions, the sort and the time come from outside.
import Libmemcached.Lib.Floats
import Libmemcached.Lib.Rings
import Libmemcached.Routing
import Mathlib.Data.List.FinRange

open Chunks Decimal Floats

namespace Libmemcached

open memcached_return_t

/-! ## Addresses -/

/-- `memcached_connection_t`, without UDP. -/
inductive ConnectionType
  | tcp
  | unix
deriving DecidableEq

/-- A host in the list of a `memcached_st`. A socket has its path as hostname
and the port 0. -/
structure ServerAddr where
  hostname : Bytes
  port : UInt16
  type : ConnectionType
deriving DecidableEq

def MEMCACHED_DEFAULT_PORT : UInt16 := 11211

/-- The host that `memcached_server_add` makes of a name and a port. -/
def ServerAddr.add (hostname : Bytes) (port : UInt16) : ServerAddr :=
  ⟨hostname, if port = 0 then MEMCACHED_DEFAULT_PORT else port, .tcp⟩

/-! ## What hosts.c uses -/

/-- `hashkit_hash_algorithm_t`, which is also `memcached_hash_t`. -/
inductive hashkit_hash_algorithm_t
  | DEFAULT
  | MD5
  | CRC
  | FNV1_64
  | FNV1A_64
  | FNV1_32
  | FNV1A_32
  | HSIEH
  | MURMUR
  | JENKINS
  | CUSTOM
  | MAX
deriving DecidableEq

/-- libhashkit. `have_hsieh` says whether it was built with `hsieh`. -/
structure Hashkit where
  digest : hashkit_hash_algorithm_t → Bytes → UInt32
  md5_signature : Bytes → Fin 16 → UInt8
  have_hsieh : Bool

/-- `qsort` with an order given by "not after". How it places what the order
does not tell apart is up to the C library. -/
structure Qsort where
  run : {α : Type} → (α → α → Bool) → List α → List α
  perm : ∀ {α : Type} (le : α → α → Bool) (l : List α), (run le l).Perm l
  sorted : ∀ {α : Type} (le : α → α → Bool) (l : List α),
    (∀ a b, le a b || le b a) → (∀ a b c, le a b → le b c → le a c) →
    (run le l).Pairwise fun a b => le a b

/-- The time of a call, and the bytes that lie behind `sort_host` on its
stack. -/
structure Moment where
  now : Int
  beyond : Nat → UInt8

/-! ## The handle -/

/-- `memcached_server_st`, as far as the choice of a host and the connect use
it. -/
structure ServerSt where
  addr : ServerAddr
  weight : UInt32
  next_retry : Int
  server_failure_counter : UInt32
  fd : Bool
deriving DecidableEq

/-- `memcached_server_distribution_t`. -/
inductive memcached_server_distribution_t
  | MODULA
  | CONSISTENT
  | CONSISTENT_KETAMA
  | RANDOM
  | CONSISTENT_KETAMA_SPY
  | CONSISTENT_MAX
deriving DecidableEq

/-- `flags` of `memcached_st`. -/
structure Flags where
  auto_eject_hosts : Bool
  binary_protocol : Bool
  buffer_requests : Bool
  cork : Bool
  hash_with_prefix_key : Bool
  ketama_weighted : Bool
  no_block : Bool
  no_reply : Bool
  randomize_replica_read : Bool
  support_cas : Bool
  tcp_nodelay : Bool
  use_cache_lookups : Bool
  use_sort_hosts : Bool
  use_udp : Bool
  verify_key : Bool
  tcp_keepalive : Bool
deriving DecidableEq

/-- `memcached_st`, as far as its behaviors and the choice of a host use it.
`continuum` has the points in use, of which there is room for
`continuum_room`. -/
structure ConfigSt (n : Nat) where
  flags : Flags
  distribution : memcached_server_distribution_t
  hashkit : hashkit_hash_algorithm_t
  distribution_hashkit : hashkit_hash_algorithm_t
  servers : Fin n → ServerSt
  continuum : List (ContinuumItem n)
  continuum_count : Nat
  continuum_room : Nat
  next_distribution_rebuild : Int
  snd_timeout : Int32
  rcv_timeout : Int32
  server_failure_limit : UInt32
  io_msg_watermark : UInt32
  io_bytes_watermark : UInt32
  io_key_prefetch : UInt32
  tcp_keepidle : UInt32
  poll_timeout : Int32
  connect_timeout : Int32
  retry_timeout : Int32
  send_size : Int32
  recv_size : Int32
  number_of_replicas : UInt32

def MEMCACHED_POINTS_PER_SERVER : Nat := 100

def MEMCACHED_POINTS_PER_SERVER_KETAMA : Nat := 160

def MEMCACHED_CONTINUUM_ADDITION : Nat := 10

def MEMCACHED_MAX_HOST_SORT_LENGTH : Nat := 86

/-! ## The points of a host -/

/-- The text that is hashed for a point, and its number. -/
def sortHost (distribution : memcached_server_distribution_t) (addr : ServerAddr) (pointer_index : Nat) : Bytes :=
  match distribution with
  | .CONSISTENT_KETAMA_SPY =>
    47 :: addr.hostname ++ 58 :: decimal addr.port.toNat ++ 45 :: decimal pointer_index
  | _ =>
    if addr.port = MEMCACHED_DEFAULT_PORT then addr.hostname ++ 45 :: decimal pointer_index
    else addr.hostname ++ 58 :: decimal addr.port.toNat ++ 45 :: decimal pointer_index

/-- What the hash function reads of it: `snprintf` cuts the text to the buffer,
and returns the length of the whole text. -/
def sortHostRead (beyond : Nat → UInt8) (text : Bytes) : Bytes :=
  if text.length < MEMCACHED_MAX_HOST_SORT_LENGTH then text
  else
    text.take (MEMCACHED_MAX_HOST_SORT_LENGTH - 1) ++ 0 ::
      (List.range (text.length - MEMCACHED_MAX_HOST_SORT_LENGTH)).map beyond

/-- `ketama_server_hash`. -/
def ketama_server_hash (lib : Hashkit) (key : Bytes) (alignment : Fin 4) : UInt32 :=
  let results := fun i : Fin 4 =>
    (lib.md5_signature key ⟨i.val + alignment.val * 4, by omega⟩).toUInt32
  results 3 <<< 24 ||| results 2 <<< 16 ||| results 1 <<< 8 ||| results 0

/-- The hashes of a weighted host: `pct` of four times the points of all
hosts, in single precision but for one sum. -/
def weightedHashes (weight : UInt32) (total_weight live_servers : Nat) : Nat :=
  let pct := float 24 (float 24 weight.toNat / float 24 total_weight)
  let points := float 24 (float 24 (float 24 (pct * MEMCACHED_POINTS_PER_SERVER_KETAMA) / 4) *
    float 24 live_servers)
  ⌊float 24 (float 53 (points + float 53 (1 / 10000000000)))⌋.toNat

variable {n : Nat}

namespace ConfigSt

/-- A host gets points, unless hosts are ejected and it waits for a retry. -/
def gets (ptr : ConfigSt n) (now : Int) (s : Fin n) : Bool :=
  !ptr.flags.auto_eject_hosts || (ptr.servers s).next_retry ≤ now

def live_servers (ptr : ConfigSt n) (now : Int) : Nat :=
  (List.finRange n).countP (ptr.gets now)

def total_weight (ptr : ConfigSt n) (now : Int) : Nat :=
  (((List.finRange n).filter (ptr.gets now)).map fun s => (ptr.servers s).weight.toNat).sum

/-- How many texts are hashed for a host. -/
def hashesOf (ptr : ConfigSt n) (now : Int) (server : ServerSt) : Nat :=
  if ptr.flags.ketama_weighted then
    weightedHashes server.weight (ptr.total_weight now) (ptr.live_servers now)
  else MEMCACHED_POINTS_PER_SERVER

/-- The values that a text gives. -/
def valuesOf (lib : Hashkit) (ptr : ConfigSt n) (key : Bytes) : List UInt32 :=
  if ptr.flags.ketama_weighted then (List.finRange 4).map (ketama_server_hash lib key)
  else [lib.digest ptr.distribution_hashkit key]

/-- The values of the points of a host. -/
def pointsOf (lib : Hashkit) (moment : Moment) (ptr : ConfigSt n) (server : ServerSt) :
    List UInt32 :=
  (List.range (ptr.hashesOf moment.now server)).flatMap fun pointer_index =>
    ptr.valuesOf lib (sortHostRead moment.beyond
      (sortHost ptr.distribution server.addr pointer_index))

/-- `next_distribution_rebuild`: the first retry that a host waits for. -/
def nextRebuild (ptr : ConfigSt n) (now : Int) : Int :=
  (List.finRange n).foldl (fun next s =>
    let retry := (ptr.servers s).next_retry
    if retry ≤ now then next else if next = 0 ∨ retry < next then retry else next) 0

/-- When hosts are ejected the time of the next rebuild is noted. -/
def noteRebuild (ptr : ConfigSt n) (now : Int) : ConfigSt n :=
  if ptr.flags.auto_eject_hosts then { ptr with next_distribution_rebuild := ptr.nextRebuild now }
  else ptr

/-- A weight of 0 counts as 1. -/
def weighted (ptr : ConfigSt n) : ConfigSt n :=
  if ptr.flags.ketama_weighted then
    { ptr with
      servers s := { ptr.servers s with
        weight := if (ptr.servers s).weight = 0 then 1 else (ptr.servers s).weight } }
  else ptr

/-- `continuum_item_cmp`, as an order. -/
def continuumLe (a b : ContinuumItem n) : Bool := a.value ≤ b.value

/-- The room for the points grows with the number of hosts. -/
def makeRoom (ptr : ConfigSt n) (now : Int) : ConfigSt n :=
  let live := ptr.live_servers now
  let points_per_server := if ptr.flags.ketama_weighted then MEMCACHED_POINTS_PER_SERVER_KETAMA
    else MEMCACHED_POINTS_PER_SERVER
  if ptr.continuum_count < live then
    { ptr with
      continuum_room := (live + MEMCACHED_CONTINUUM_ADDITION) * points_per_server
      continuum_count := live + MEMCACHED_CONTINUUM_ADDITION }
  else ptr

/-- The points of all hosts that get some, as they are written. -/
def newPoints (lib : Hashkit) (moment : Moment) (ptr : ConfigSt n) : List (ContinuumItem n) :=
  ((List.finRange n).filter (ptr.gets moment.now)).flatMap fun s =>
    (ptr.pointsOf lib moment (ptr.servers s)).map fun value => ⟨value, s⟩

/-- `update_continuum`. Without a host that gets points the old ones stay. -/
def update_continuum (lib : Hashkit) (qsort : Qsort) (moment : Moment) (ptr : ConfigSt n) :
    ConfigSt n :=
  let ptr := ptr.noteRebuild moment.now
  if ptr.live_servers moment.now = 0 then ptr
  else
    let ptr := (ptr.makeRoom moment.now).weighted
    { ptr with continuum := qsort.run continuumLe (ptr.newPoints lib moment) }

end ConfigSt

/-! ## `run_distribution` -/

/-- `strcmp`. -/
def strcmp : Bytes → Bytes → Ordering
  | [], [] => .eq
  | [], _ :: _ => .lt
  | _ :: _, [] => .gt
  | a :: as, b :: bs => if a < b then .lt else if b < a then .gt else strcmp as bs

/-- `compare_servers`, as an order. -/
def compareServersLe (a b : ServerSt) : Bool :=
  match strcmp a.addr.hostname b.addr.hostname with
  | .lt => true
  | .gt => false
  | .eq => a.addr.port ≤ b.addr.port

namespace ConfigSt

/-- `sort_hosts`. -/
def sort_hosts (qsort : Qsort) (ptr : ConfigSt n) : ConfigSt n :=
  let list := qsort.run compareServersLe (List.ofFn ptr.servers)
  have hlength : n = list.length := by
    rw [(qsort.perm compareServersLe (List.ofFn ptr.servers)).length_eq, List.length_ofFn]
  { ptr with servers s := list.get (s.cast hlength) }

def run_distribution (lib : Hashkit) (qsort : Qsort) (moment : Moment) (ptr : ConfigSt n) :
    ConfigSt n :=
  let ptr := if ptr.flags.use_sort_hosts then ptr.sort_hosts qsort else ptr
  match ptr.distribution with
  | .CONSISTENT | .CONSISTENT_KETAMA | .CONSISTENT_KETAMA_SPY =>
    ptr.update_continuum lib qsort moment
  | _ => ptr

/-- The list with one more host, which waits for its first retry. -/
def grown (ptr : ConfigSt n) (addr : ServerAddr) (weight : UInt32) : ConfigSt (n + 1) :=
  { ptr with
    servers := Fin.snoc (α := fun _ => ServerSt) ptr.servers
      ⟨addr, weight, ptr.retry_timeout.toInt, 0, false⟩
    continuum := ptr.continuum.map fun item => ⟨item.value, item.index.castSucc⟩ }

/-- `server_add`, of a host that is not a UDP one, on a handle without UDP. -/
def server_add (lib : Hashkit) (qsort : Qsort) (moment : Moment) (ptr : ConfigSt n)
    (addr : ServerAddr) (weight : UInt32) : ConfigSt (n + 1) :=
  (ptr.grown addr weight).run_distribution lib qsort moment

/-! ## The host of a key -/

/-- The distribution of a handle whose hosts have points. The random one has
no host of its own for a key. -/
def distributionOf (ptr : ConfigSt n) : Option (Distribution n) :=
  match ptr.distribution, ptr.continuum with
  | .MODULA, _ => some .MODULA
  | .CONSISTENT, begin :: rest => some (.CONSISTENT fun _ => ⟨begin, rest⟩)
  | .CONSISTENT_KETAMA, begin :: rest => some (.CONSISTENT_KETAMA fun _ => ⟨begin, rest⟩)
  | .CONSISTENT_KETAMA_SPY, begin :: rest =>
    some (.CONSISTENT_KETAMA_SPY fun _ => ⟨begin, rest⟩)
  | .CONSISTENT_MAX, _ => some .CONSISTENT_MAX
  | _, _ => none

def routing (lib : Hashkit) (ptr : ConfigSt n) : Option (Routing n) :=
  ptr.distributionOf.map fun distribution =>
    ⟨distribution, lib.digest ptr.hashkit, ptr.flags.hash_with_prefix_key⟩

/-- `memcached_generate_hash`, as the address of the host. -/
def hostAddr (lib : Hashkit) (ptr : ConfigSt n) (key : Bytes) : Option ServerAddr :=
  if hn : 0 < n then
    (ptr.routing lib).map fun routing =>
      (ptr.servers (memcached_generate_hash_with_redistribution routing hn key)).addr
  else none

end ConfigSt

end Libmemcached
