-- What can happen to a handle: it is created, gets hosts and behaviors, is
-- cloned, and connects and loses its connections (memcached.c).
import Libmemcached.Behaviors
import Libmemcached.SortedHosts

open Chunks

namespace Libmemcached

variable {n : Nat}

namespace ConfigSt

/-- `memcached_create`. -/
def memcached_create : ConfigSt 0 where
  flags := ⟨false, false, false, false, false, false, false, false, false, false, false, false,
    false, false, false, false⟩
  distribution := .MODULA
  hashkit := .DEFAULT
  distribution_hashkit := .DEFAULT
  servers := Fin.elim0
  continuum := []
  continuum_count := 0
  continuum_room := 0
  next_distribution_rebuild := 0
  snd_timeout := 0
  rcv_timeout := 0
  server_failure_limit := 0
  io_msg_watermark := 500
  io_bytes_watermark := 65 * 1024
  io_key_prefetch := 0
  tcp_keepidle := 0
  poll_timeout := 5000
  connect_timeout := 4000
  retry_timeout := 0
  send_size := -1
  recv_size := -1
  number_of_replicas := 0

/-- A new handle with the behaviors and the hosts of another one. Nothing is
connected, and no points are there yet. -/
def copied (source : ConfigSt n) : ConfigSt n :=
  { source with
    servers s := ⟨(source.servers s).addr, (source.servers s).weight,
      source.retry_timeout.toInt, 0, false⟩
    continuum := []
    continuum_count := 0
    continuum_room := 0
    next_distribution_rebuild := 0 }

/-- `memcached_clone`. The hosts are pushed in one go (`memcached_server_push`),
and then the hosts are distributed once more. -/
def memcached_clone (lib : Hashkit) (qsort : Qsort) (pushed moment : Moment)
    (source : ConfigSt n) : ConfigSt n :=
  let clone := if n = 0 then source.copied else source.copied.run_distribution lib qsort pushed
  clone.run_distribution lib qsort moment

/-- `memcached_io_read` that brings bytes: the host has not failed then. -/
def memcached_io_read (ptr : ConfigSt n) (s : Fin n) : ConfigSt n :=
  if (ptr.servers s).fd then ptr.setServer s { ptr.servers s with server_failure_counter := 0 }
  else ptr

end ConfigSt

/-- What happens to a handle with `n` hosts. Every call that uses a host comes
down to these. -/
inductive HandleEvent (n : Nat)
  | behavior_set (moment : Moment) (probe : Probe) (flag : memcached_behavior_t) (data : UInt64)
  | behavior_get (moment : Moment) (probe : Probe) (flag : memcached_behavior_t)
  | connect (moment : Moment) (s : Fin n) (outcome : ConnectOutcome)
  | io_read (s : Fin n)
  | io_reset (s : Fin n)
  | quit
  | autoeject (moment : Moment)

/-- A step of a handle. -/
def ConfigSt.step (lib : Hashkit) (qsort : Qsort) (ptr : ConfigSt n) : HandleEvent n → ConfigSt n
  | .behavior_set moment probe flag data =>
    (ptr.memcached_behavior_set lib qsort moment probe flag data).1
  | .behavior_get moment probe flag => (ptr.memcached_behavior_get lib qsort moment probe flag).1
  | .connect moment s outcome => (ptr.memcached_connect lib qsort moment s outcome).1
  | .io_read s => ptr.memcached_io_read s
  | .io_reset s => ptr.memcached_io_reset s
  | .quit => ptr.memcached_quit
  | .autoeject moment => ptr.regen_for_auto_eject lib qsort moment

/-- What a program restricts itself to. -/
structure Rules where
  host : ServerAddr → Prop
  clock : {n : Nat} → ConfigSt n → Moment → Prop
  event : {n : Nat} → ConfigSt n → HandleEvent n → Prop
  clone : Prop

/-- The clock is past the retry timeout, so that a new host is not left out. -/
def PastRetry (ptr : ConfigSt n) (moment : Moment) : Prop :=
  ptr.retry_timeout.toInt ≤ moment.now

/-- The handles that a program makes of one, by the `rules`. -/
inductive Develops (lib : Hashkit) (qsort : Qsort) (rules : Rules) {n : Nat} (start : ConfigSt n) :
    {m : Nat} → ConfigSt m → Prop
  | refl : Develops lib qsort rules start start
  | server_add {m : Nat} {ptr : ConfigSt m} {moment : Moment} {addr : ServerAddr}
      (weight : UInt32) : Develops lib qsort rules start ptr → ptr.flags.use_udp = false →
      addr.Proper → rules.host addr → rules.clock ptr moment →
      Develops lib qsort rules start (ptr.server_add lib qsort moment addr weight)
  | step {m : Nat} {ptr : ConfigSt m} {event : HandleEvent m} : Develops lib qsort rules start ptr →
      rules.event ptr event → Develops lib qsort rules start (ptr.step lib qsort event)
  | memcached_clone {m : Nat} {ptr : ConfigSt m} {pushed moment : Moment} :
      Develops lib qsort rules start ptr → rules.clone → rules.clock ptr pushed →
      Develops lib qsort rules start (ptr.memcached_clone lib qsort pushed moment)

theorem Develops.weaken {lib : Hashkit} {qsort : Qsort} {ptr : ConfigSt n} {m : Nat}
    {rules rules' : Rules} {start : ConfigSt m}
    (hhost : ∀ addr, rules.host addr → rules'.host addr)
    (hclock : ∀ {k : Nat} (ptr : ConfigSt k) moment, rules.clock ptr moment →
      rules'.clock ptr moment)
    (hevent : ∀ {k : Nat} (ptr : ConfigSt k) event, rules.event ptr event → rules'.event ptr event)
    (hclone : rules.clone → rules'.clone) (h : Develops lib qsort rules start ptr) :
    Develops lib qsort rules' start ptr := by
  induction h with
  | refl => exact Develops.refl
  | server_add weight _ hudp hproper hnew htime ih =>
    exact Develops.server_add weight ih hudp hproper (hhost _ hnew) (hclock _ _ htime)
  | step _ hstep ih => exact Develops.step ih (hevent _ _ hstep)
  | memcached_clone _ hcopy htime ih =>
    exact Develops.memcached_clone ih (hclone hcopy) (hclock _ _ htime)

/-! ## What a step does -/

/-- The behavior that an event sets. -/
def HandleEvent.sets : HandleEvent n → Option memcached_behavior_t
  | .behavior_set _ _ flag _ => some flag
  | _ => none

/-- The behaviors that say where keys go. -/
def placing : List memcached_behavior_t :=
  [.DISTRIBUTION, .KETAMA, .KETAMA_WEIGHTED, .HASH, .KETAMA_HASH, .HASH_WITH_PREFIX_KEY]

/-- A step leaves the points, and the addresses and weights of the hosts. -/
structure Keeps (sets : Option memcached_behavior_t) (ptr ptr' : ConfigSt n) : Prop where
  continuum : ptr'.continuum = ptr.continuum
  continuum_count : ptr'.continuum_count = ptr.continuum_count
  continuum_room : ptr'.continuum_room = ptr.continuum_room
  addr : ∀ s, (ptr'.servers s).addr = (ptr.servers s).addr
  weight : ∀ s, (ptr'.servers s).weight = (ptr.servers s).weight
  use_sort_hosts : sets ≠ some .SORT_HOSTS →
    ptr'.flags.use_sort_hosts = ptr.flags.use_sort_hosts
  ketama_weighted : sets ≠ some .KETAMA_WEIGHTED →
    ptr'.flags.ketama_weighted = ptr.flags.ketama_weighted
  auto_eject_hosts : sets ≠ some .AUTO_EJECT_HOSTS →
    ptr'.flags.auto_eject_hosts = ptr.flags.auto_eject_hosts
  server_failure_limit : sets ≠ some .SERVER_FAILURE_LIMIT →
    ptr'.server_failure_limit = ptr.server_failure_limit
  retry_timeout : sets ≠ some .RETRY_TIMEOUT → ptr'.retry_timeout = ptr.retry_timeout
  settings : (∀ flag ∈ placing, sets ≠ some flag) → SameSettings ptr ptr'

theorem Keeps.refl (sets : Option memcached_behavior_t) (ptr : ConfigSt n) :
    Keeps sets ptr ptr :=
  ⟨rfl, rfl, rfl, fun _ => rfl, fun _ => rfl, fun _ => rfl, fun _ => rfl, fun _ => rfl,
    fun _ => rfl, fun _ => rfl, fun _ => SameSettings.refl ptr⟩

theorem Keeps.trans {sets : Option memcached_behavior_t} {ptr ptr' ptr'' : ConfigSt n}
    (h : Keeps sets ptr ptr') (h' : Keeps sets ptr' ptr'') : Keeps sets ptr ptr'' where
  continuum := h'.continuum.trans h.continuum
  continuum_count := h'.continuum_count.trans h.continuum_count
  continuum_room := h'.continuum_room.trans h.continuum_room
  addr s := (h'.addr s).trans (h.addr s)
  weight s := (h'.weight s).trans (h.weight s)
  use_sort_hosts hne := (h'.use_sort_hosts hne).trans (h.use_sort_hosts hne)
  ketama_weighted hne := (h'.ketama_weighted hne).trans (h.ketama_weighted hne)
  auto_eject_hosts hne := (h'.auto_eject_hosts hne).trans (h.auto_eject_hosts hne)
  server_failure_limit hne := (h'.server_failure_limit hne).trans (h.server_failure_limit hne)
  retry_timeout hne := (h'.retry_timeout hne).trans (h.retry_timeout hne)
  settings hne := (h.settings hne).trans (h'.settings hne)

theorem setServer_servers (ptr : ConfigSt n) (s s' : Fin n) (server : ServerSt) :
    (ptr.setServer s server).servers s' = if s' = s then server else ptr.servers s' :=
  Function.update_apply ptr.servers s server s'

/-- A host with another state of its connection. -/
theorem keeps_setServer (sets : Option memcached_behavior_t) {ptr : ConfigSt n} {s : Fin n}
    {server : ServerSt} (haddr : server.addr = (ptr.servers s).addr)
    (hweight : server.weight = (ptr.servers s).weight) : Keeps sets ptr (ptr.setServer s server) where
  continuum := rfl
  continuum_count := rfl
  continuum_room := rfl
  addr s' := by
    rw [setServer_servers]
    split_ifs with hs
    · rw [hs]
      exact haddr
    · rfl
  weight s' := by
    rw [setServer_servers]
    split_ifs with hs
    · rw [hs]
      exact hweight
    · rfl
  use_sort_hosts _ := rfl
  ketama_weighted _ := rfl
  auto_eject_hosts _ := rfl
  server_failure_limit _ := rfl
  retry_timeout _ := rfl
  settings _ := ⟨⟨rfl, rfl⟩, rfl, rfl, rfl⟩

theorem memcached_quit_server_fields (server : ServerSt) :
    server.memcached_quit_server.addr = server.addr ∧
      server.memcached_quit_server.weight = server.weight := by
  unfold ServerSt.memcached_quit_server
  split_ifs <;> exact ⟨rfl, rfl⟩

theorem keeps_quit (sets : Option memcached_behavior_t) (ptr : ConfigSt n) :
    Keeps sets ptr ptr.memcached_quit :=
  ⟨rfl, rfl, rfl, fun s => (memcached_quit_server_fields (ptr.servers s)).1,
    fun s => (memcached_quit_server_fields (ptr.servers s)).2, fun _ => rfl, fun _ => rfl,
    fun _ => rfl, fun _ => rfl, fun _ => rfl, fun _ => ⟨⟨rfl, rfl⟩, rfl, rfl, rfl⟩⟩

/-- A connect leaves the points, or it distributes the hosts anew, and then it
fails. -/
theorem memcached_connect_cases (lib : Hashkit) (qsort : Qsort) (moment : Moment)
    (sets : Option memcached_behavior_t) (ptr : ConfigSt n) (s : Fin n)
    (outcome : ConnectOutcome) :
    Keeps sets ptr (ptr.memcached_connect lib qsort moment s outcome).1 ∨
      ptr.memcached_connect lib qsort moment s outcome =
        (ptr.run_distribution lib qsort moment, memcached_return_t.SERVER_MARKED_DEAD) := by
  unfold ConfigSt.memcached_connect
  split_ifs with hfd hwaits hfailed heject
  · exact Or.inl (Keeps.refl sets ptr)
  · exact Or.inl (Keeps.refl sets ptr)
  · exact Or.inr rfl
  · exact Or.inl (Keeps.refl sets ptr)
  · apply Or.inl
    have hserver : ∀ x : ServerSt × memcached_return_t, x.1.addr = (ptr.servers s).addr →
        x.1.weight = (ptr.servers s).weight → Keeps sets ptr (ptr.setServer s
          (if x.2 = memcached_return_t.SUCCESS then
            { x.1 with server_failure_counter := 0, next_retry := 0 }
          else { x.1 with server_failure_counter := x.1.server_failure_counter + 1 })) := by
      intro x haddr hweight
      apply keeps_setServer
      · split_ifs <;> exact haddr
      · split_ifs <;> exact hweight
    cases htype : (ptr.servers s).addr.type with
    | tcp =>
      apply hserver (network_connect moment ptr.retry_timeout (ptr.servers s) outcome)
      · cases outcome <;> simp only [network_connect, network_connect.scheduled] <;>
          first | rfl | (split_ifs <;> rfl)
      · cases outcome <;> simp only [network_connect, network_connect.scheduled] <;>
          first | rfl | (split_ifs <;> rfl)
    | unix =>
      apply hserver (unix_socket_connect (ptr.servers s) outcome)
      · cases outcome <;> rfl
      · cases outcome <;> rfl

/-- The time of an event that may distribute the hosts. -/
def HandleEvent.moment : HandleEvent n → Option Moment
  | .behavior_set moment _ _ _ => some moment
  | .behavior_get moment _ _ => some moment
  | .connect moment _ _ => some moment
  | .autoeject moment => some moment
  | _ => none

/-- The handle after a step: the points are left, or the hosts are distributed
anew. -/
def StepsTo (lib : Hashkit) (qsort : Qsort) (event : HandleEvent n) (ptr ptr' : ConfigSt n) : Prop :=
  (Keeps event.sets ptr ptr' ∧ ptr'.flags.use_sort_hosts = ptr.flags.use_sort_hosts) ∨
    ∃ moment between, event.moment = some moment ∧ Keeps event.sets ptr between ∧
      (event.sets = some .SORT_HOSTS →
        between.live_servers moment.now = ptr.live_servers moment.now) ∧
      ptr' = between.run_distribution lib qsort moment

theorem stepsTo_connect {lib : Hashkit} {qsort : Qsort} {event : HandleEvent n} {moment : Moment}
    (hmoment : event.moment = some moment) (ptr : ConfigSt n) (s : Fin n)
    (outcome : ConnectOutcome) (hsort : event.sets ≠ some .SORT_HOSTS) :
    StepsTo lib qsort event ptr (ptr.memcached_connect lib qsort moment s outcome).1 := by
  rcases memcached_connect_cases lib qsort moment event.sets ptr s outcome with hkeeps | hrun
  · exact Or.inl ⟨hkeeps, hkeeps.use_sort_hosts hsort⟩
  · rw [hrun]
    exact Or.inr ⟨moment, ptr, hmoment, Keeps.refl _ ptr, fun _ => rfl, rfl⟩

/-- The size of a socket buffer is asked of the connected first host. -/
theorem socketSize_eq (lib : Hashkit) (qsort : Qsort) (moment : Moment) (probe : Probe)
    (ptr : ConfigSt n) (size : Int32) :
    (ptr.socketSize lib qsort moment probe size).1 = ptr ∨ ∃ s,
      (ptr.socketSize lib qsort moment probe size).1 =
        (ptr.memcached_connect lib qsort moment s probe.outcome).1 := by
  unfold ConfigSt.socketSize
  split_ifs with hsize hn
  · exact Or.inl rfl
  · refine Or.inr ⟨⟨0, hn⟩, ?_⟩
    split <;> rename_i hconnect <;> rw [hconnect]
  · exact Or.inl rfl

theorem stepsTo_behavior_get (lib : Hashkit) (qsort : Qsort) (moment : Moment) (probe : Probe)
    (ptr : ConfigSt n) (flag : memcached_behavior_t) :
    StepsTo lib qsort (.behavior_get moment probe flag) ptr
      (ptr.memcached_behavior_get lib qsort moment probe flag).1 := by
  have hsocket : ∀ size, StepsTo lib qsort (.behavior_get moment probe flag) ptr
      (ptr.socketSize lib qsort moment probe size).1 := by
    intro size
    rcases socketSize_eq lib qsort moment probe ptr size with hsame | ⟨s, hconnect⟩
    · rw [hsame]
      exact Or.inl ⟨Keeps.refl _ ptr, rfl⟩
    · rw [hconnect]
      exact stepsTo_connect rfl ptr s probe.outcome nofun
  cases flag
  case SOCKET_SEND_SIZE => exact hsocket ptr.send_size
  case SOCKET_RECV_SIZE => exact hsocket ptr.recv_size
  all_goals exact Or.inl ⟨Keeps.refl _ ptr, rfl⟩

theorem set_key_hash_eq (lib : Hashkit) (ptr : ConfigSt n) (type : UInt32) : ∃ hashkit,
    (ptr.memcached_behavior_set_key_hash lib type).1 = { ptr with hashkit } := by
  unfold ConfigSt.memcached_behavior_set_key_hash
  split
  · exact ⟨_, rfl⟩
  · exact ⟨ptr.hashkit, rfl⟩

theorem set_distribution_hash_eq (lib : Hashkit) (ptr : ConfigSt n) (type : UInt32) :
    ∃ distribution_hashkit, (ptr.memcached_behavior_set_distribution_hash lib type).1 =
      { ptr with distribution_hashkit } := by
  unfold ConfigSt.memcached_behavior_set_distribution_hash
  split
  · exact ⟨_, rfl⟩
  · exact ⟨ptr.distribution_hashkit, rfl⟩

theorem set_distribution_eq (lib : Hashkit) (qsort : Qsort) (moment : Moment) (ptr : ConfigSt n)
    (type : UInt32) :
    (ptr.memcached_behavior_set_distribution lib qsort moment type).1 = ptr ∨
      ∃ distribution, (ptr.memcached_behavior_set_distribution lib qsort moment type).1 =
        { ptr with distribution }.run_distribution lib qsort moment := by
  unfold ConfigSt.memcached_behavior_set_distribution
  split
  · exact Or.inr ⟨_, rfl⟩
  · exact Or.inl rfl

/-- A behavior that says where keys go, set. -/
theorem keeps_placing {flag : memcached_behavior_t} (hplacing : flag ∈ placing)
    {ptr ptr' : ConfigSt n} (hservers : ptr'.servers = ptr.servers)
    (hcontinuum : ptr'.continuum = ptr.continuum)
    (hcount : ptr'.continuum_count = ptr.continuum_count)
    (hroom : ptr'.continuum_room = ptr.continuum_room)
    (hsort : ptr'.flags.use_sort_hosts = ptr.flags.use_sort_hosts)
    (hweighted : flag ≠ .KETAMA_WEIGHTED →
      ptr'.flags.ketama_weighted = ptr.flags.ketama_weighted)
    (heject : ptr'.flags.auto_eject_hosts = ptr.flags.auto_eject_hosts)
    (hlimit : ptr'.server_failure_limit = ptr.server_failure_limit)
    (hretry : ptr'.retry_timeout = ptr.retry_timeout) :
    Keeps (some flag) ptr ptr' where
  continuum := hcontinuum
  continuum_count := hcount
  continuum_room := hroom
  addr s := by rw [hservers]
  weight s := by rw [hservers]
  use_sort_hosts _ := hsort
  ketama_weighted hne := hweighted fun h => hne (by rw [h])
  auto_eject_hosts _ := heject
  server_failure_limit _ := hlimit
  retry_timeout _ := hretry
  settings hne := absurd rfl (hne flag hplacing)

theorem stepsTo_set_distribution {lib : Hashkit} {qsort : Qsort} {moment : Moment} {probe : Probe}
    {flag : memcached_behavior_t} {data : UInt64} (hplacing : flag ∈ placing)
    (ptr : ConfigSt n) {ptr' : ConfigSt n} (hservers : ptr'.servers = ptr.servers)
    (hcontinuum : ptr'.continuum = ptr.continuum)
    (hcount : ptr'.continuum_count = ptr.continuum_count)
    (hroom : ptr'.continuum_room = ptr.continuum_room)
    (hsort : ptr'.flags.use_sort_hosts = ptr.flags.use_sort_hosts)
    (hweighted : flag ≠ .KETAMA_WEIGHTED →
      ptr'.flags.ketama_weighted = ptr.flags.ketama_weighted)
    (heject : ptr'.flags.auto_eject_hosts = ptr.flags.auto_eject_hosts)
    (hlimit : ptr'.server_failure_limit = ptr.server_failure_limit)
    (hretry : ptr'.retry_timeout = ptr.retry_timeout) (type : UInt32) :
    StepsTo lib qsort (.behavior_set moment probe flag data) ptr
      (ptr'.memcached_behavior_set_distribution lib qsort moment type).1 := by
  rcases set_distribution_eq lib qsort moment ptr' type with hsame | ⟨distribution, hrun⟩
  · rw [hsame]
    exact Or.inl ⟨keeps_placing hplacing hservers hcontinuum hcount hroom hsort hweighted heject
      hlimit hretry, hsort⟩
  · rw [hrun]
    refine Or.inr ⟨moment, { ptr' with distribution }, rfl,
      keeps_placing hplacing hservers hcontinuum hcount hroom hsort hweighted heject hlimit
        hretry, fun hsets => ?_, rfl⟩
    cases hsets
    exact absurd hplacing (by decide)

theorem stepsTo_setCork (lib : Hashkit) (qsort : Qsort) (moment : Moment) (probe : Probe)
    (data : UInt64) (ptr : ConfigSt n) :
    StepsTo lib qsort (.behavior_set moment probe .CORK data) ptr
      (ptr.setCork lib qsort moment probe).1 := by
  unfold ConfigSt.setCork
  by_cases hn : 0 < n
  · have hconnect := memcached_connect_cases lib qsort moment (some .CORK) ptr ⟨0, hn⟩
      probe.outcome
    rw [dif_pos hn]
    dsimp only
    split
    · rename_i connected hresult
      rw [hresult] at hconnect
      -- a connect that succeeds leaves the points
      have hkeeps : Keeps (some .CORK) ptr connected := by
        rcases hconnect with hkeeps | hrun
        · exact hkeeps
        · cases hrun
      have hdone : ∀ ptr' : ConfigSt n, Keeps (some .CORK) connected ptr' →
          StepsTo lib qsort (.behavior_set moment probe .CORK data) ptr ptr' := by
        intro ptr' hkeeps'
        exact Or.inl ⟨hkeeps.trans hkeeps', (hkeeps.trans hkeeps').use_sort_hosts nofun⟩
      split
      · exact hdone _ (Keeps.refl _ connected)
      · split_ifs
        · exact hdone _ ⟨rfl, rfl, rfl, fun s => (memcached_quit_server_fields (connected.servers s)).1,
            fun s => (memcached_quit_server_fields (connected.servers s)).2, fun _ => rfl, fun _ => rfl,
            fun _ => rfl, fun _ => rfl, fun _ => rfl, fun _ => ⟨⟨rfl, rfl⟩, rfl, rfl, rfl⟩⟩
        · exact hdone _ (keeps_setServer _ (memcached_quit_server_fields _).1 (memcached_quit_server_fields _).2)
        all_goals exact hdone _ (Keeps.refl _ connected)
    · rename_i connected rc hne hresult
      have hsteps : StepsTo lib qsort (.behavior_set moment probe .CORK data) ptr
          (ptr.memcached_connect lib qsort moment ⟨0, hn⟩ probe.outcome).1 :=
        stepsTo_connect rfl ptr ⟨0, hn⟩ probe.outcome nofun
      rw [hresult] at hsteps
      exact hsteps
  · rw [dif_neg hn]
    exact Or.inl ⟨Keeps.refl _ ptr, rfl⟩

theorem stepsTo_behavior_set (lib : Hashkit) (qsort : Qsort) (moment : Moment) (probe : Probe)
    (ptr : ConfigSt n) (flag : memcached_behavior_t) (data : UInt64) :
    StepsTo lib qsort (.behavior_set moment probe flag data) ptr
      (ptr.memcached_behavior_set lib qsort moment probe flag data).1 := by
  cases flag
  case DISTRIBUTION =>
    exact stepsTo_set_distribution (by decide) ptr rfl rfl rfl rfl rfl (fun _ => rfl) rfl rfl rfl
      data.toUInt32
  case KETAMA =>
    unfold ConfigSt.memcached_behavior_set
    dsimp only
    generalize (if set_flag data then _ else _ :
      hashkit_hash_algorithm_t × memcached_server_distribution_t) = choice
    obtain ⟨hash, type⟩ := choice
    dsimp only
    obtain ⟨hashkit, hset⟩ := set_key_hash_eq lib ptr hash.number.toUInt32
    rw [hset]
    obtain ⟨distribution_hashkit, hset'⟩ := set_distribution_hash_eq lib { ptr with hashkit }
      hash.number.toUInt32
    rw [hset']
    apply stepsTo_set_distribution (by decide : memcached_behavior_t.KETAMA ∈ placing) ptr <;>
      intros <;> rfl
  case KETAMA_WEIGHTED =>
    unfold ConfigSt.memcached_behavior_set
    dsimp only
    obtain ⟨hashkit, hset⟩ := set_key_hash_eq lib ptr hashkit_hash_algorithm_t.MD5.number.toUInt32
    rw [hset]
    obtain ⟨distribution_hashkit, hset'⟩ := set_distribution_hash_eq lib { ptr with hashkit }
      hashkit_hash_algorithm_t.MD5.number.toUInt32
    rw [hset']
    apply stepsTo_set_distribution
      (by decide : memcached_behavior_t.KETAMA_WEIGHTED ∈ placing) ptr <;> try rfl
    exact fun hne => absurd rfl hne
  case HASH =>
    obtain ⟨hashkit, hset⟩ := set_key_hash_eq lib ptr data.toUInt32
    unfold ConfigSt.memcached_behavior_set
    dsimp only
    rw [hset]
    exact Or.inl ⟨keeps_placing (by decide) rfl rfl rfl rfl rfl (fun _ => rfl) rfl rfl rfl, rfl⟩
  case KETAMA_HASH =>
    obtain ⟨distribution_hashkit, hset⟩ := set_distribution_hash_eq lib ptr data.toUInt32
    unfold ConfigSt.memcached_behavior_set
    dsimp only
    rw [hset]
    exact Or.inl ⟨keeps_placing (by decide) rfl rfl rfl rfl rfl (fun _ => rfl) rfl rfl rfl, rfl⟩
  case HASH_WITH_PREFIX_KEY =>
    exact Or.inl ⟨keeps_placing (by decide) rfl rfl rfl rfl rfl (fun _ => rfl) rfl rfl rfl, rfl⟩
  case SORT_HOSTS =>
    exact Or.inr ⟨moment, { ptr with flags := { ptr.flags with use_sort_hosts := set_flag data } },
      rfl, ⟨rfl, rfl, rfl, fun _ => rfl, fun _ => rfl, fun hne => absurd rfl hne, fun _ => rfl,
        fun _ => rfl, fun _ => rfl, fun _ => rfl, fun _ => ⟨⟨rfl, rfl⟩, rfl, rfl, rfl⟩⟩, fun _ => rfl, rfl⟩
  case AUTO_EJECT_HOSTS =>
    exact Or.inl ⟨⟨rfl, rfl, rfl, fun _ => rfl, fun _ => rfl, fun _ => rfl, fun _ => rfl,
      fun hne => absurd rfl hne, fun _ => rfl, fun _ => rfl,
      fun _ => ⟨⟨rfl, rfl⟩, rfl, rfl, rfl⟩⟩, rfl⟩
  case SERVER_FAILURE_LIMIT =>
    exact Or.inl ⟨⟨rfl, rfl, rfl, fun _ => rfl, fun _ => rfl, fun _ => rfl, fun _ => rfl,
      fun _ => rfl, fun hne => absurd rfl hne, fun _ => rfl,
      fun _ => ⟨⟨rfl, rfl⟩, rfl, rfl, rfl⟩⟩, rfl⟩
  case RETRY_TIMEOUT =>
    exact Or.inl ⟨⟨rfl, rfl, rfl, fun _ => rfl, fun _ => rfl, fun _ => rfl, fun _ => rfl,
      fun _ => rfl, fun _ => rfl, fun hne => absurd rfl hne,
      fun _ => ⟨⟨rfl, rfl⟩, rfl, rfl, rfl⟩⟩, rfl⟩
  case USE_UDP =>
    unfold ConfigSt.memcached_behavior_set
    dsimp only
    split_ifs
    · exact Or.inl ⟨Keeps.refl _ ptr, rfl⟩
    · exact Or.inl ⟨⟨rfl, rfl, rfl, fun _ => rfl, fun _ => rfl, fun _ => rfl, fun _ => rfl,
        fun _ => rfl, fun _ => rfl, fun _ => rfl, fun _ => ⟨⟨rfl, rfl⟩, rfl, rfl, rfl⟩⟩, rfl⟩
  case VERIFY_KEY =>
    unfold ConfigSt.memcached_behavior_set
    dsimp only
    split_ifs
    · exact Or.inl ⟨Keeps.refl _ ptr, rfl⟩
    · exact Or.inl ⟨⟨rfl, rfl, rfl, fun _ => rfl, fun _ => rfl, fun _ => rfl, fun _ => rfl,
        fun _ => rfl, fun _ => rfl, fun _ => rfl, fun _ => ⟨⟨rfl, rfl⟩, rfl, rfl, rfl⟩⟩, rfl⟩
  case CORK =>
    unfold ConfigSt.memcached_behavior_set
    dsimp only
    split_ifs
    · exact stepsTo_setCork lib qsort moment probe data ptr
    · exact Or.inl ⟨⟨rfl, rfl, rfl, fun _ => rfl, fun _ => rfl, fun _ => rfl, fun _ => rfl,
        fun _ => rfl, fun _ => rfl, fun _ => rfl, fun _ => ⟨⟨rfl, rfl⟩, rfl, rfl, rfl⟩⟩, rfl⟩
  all_goals first
    | exact Or.inl ⟨Keeps.refl _ ptr, rfl⟩
    | exact Or.inl ⟨⟨rfl, rfl, rfl, fun _ => rfl, fun _ => rfl, fun _ => rfl, fun _ => rfl,
        fun _ => rfl, fun _ => rfl, fun _ => rfl, fun _ => ⟨⟨rfl, rfl⟩, rfl, rfl, rfl⟩⟩, rfl⟩
    | exact Or.inl ⟨⟨rfl, rfl, rfl, fun s => (memcached_quit_server_fields (ptr.servers s)).1,
        fun s => (memcached_quit_server_fields (ptr.servers s)).2, fun _ => rfl, fun _ => rfl,
        fun _ => rfl, fun _ => rfl, fun _ => rfl, fun _ => ⟨⟨rfl, rfl⟩, rfl, rfl, rfl⟩⟩, rfl⟩

/-- What a step does. -/
theorem stepsTo_step (lib : Hashkit) (qsort : Qsort) (ptr : ConfigSt n) (event : HandleEvent n) :
    StepsTo lib qsort event ptr (ptr.step lib qsort event) := by
  cases event with
  | behavior_set moment probe flag data =>
    exact stepsTo_behavior_set lib qsort moment probe ptr flag data
  | behavior_get moment probe flag => exact stepsTo_behavior_get lib qsort moment probe ptr flag
  | connect moment s outcome => exact stepsTo_connect rfl ptr s outcome nofun
  | io_read s =>
    unfold ConfigSt.step ConfigSt.memcached_io_read
    dsimp only
    split_ifs
    · exact Or.inl ⟨keeps_setServer _ rfl rfl, rfl⟩
    · exact Or.inl ⟨Keeps.refl _ ptr, rfl⟩
  | io_reset s => exact Or.inl ⟨keeps_setServer _ rfl rfl, rfl⟩
  | quit => exact Or.inl ⟨keeps_quit _ ptr, rfl⟩
  | autoeject moment =>
    unfold ConfigSt.step ConfigSt.regen_for_auto_eject
    dsimp only
    split_ifs
    · exact Or.inr ⟨moment, ptr, rfl, Keeps.refl _ ptr, fun _ => rfl, rfl⟩
    · exact Or.inl ⟨Keeps.refl _ ptr, rfl⟩

end Libmemcached
