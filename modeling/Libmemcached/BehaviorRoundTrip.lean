-- What `memcached_behavior_get` gives after `memcached_behavior_set`, and which
-- behaviors cannot be on together.
import Libmemcached.DeadHosts

open Chunks

namespace Libmemcached

open memcached_return_t

variable {n m : Nat} {lib : Hashkit} {qsort : Qsort} {moment : Moment} {probe : Probe}
variable {ptr : ConfigSt n}

/-! ## The settings -/

/-- The value of a behavior, as far as it is in the handle. -/
def ConfigSt.setting (ptr : ConfigSt n) : memcached_behavior_t → UInt64
  | .NO_BLOCK => boolean ptr.flags.no_block
  | .TCP_NODELAY => boolean ptr.flags.tcp_nodelay
  | .HASH => ptr.hashkit.number
  | .KETAMA => boolean (ptr.distribution = .CONSISTENT_KETAMA)
  | .SOCKET_SEND_SIZE => signed ptr.send_size
  | .SOCKET_RECV_SIZE => signed ptr.recv_size
  | .CACHE_LOOKUPS => boolean ptr.flags.use_cache_lookups
  | .SUPPORT_CAS => boolean ptr.flags.support_cas
  | .POLL_TIMEOUT => signed ptr.poll_timeout
  | .DISTRIBUTION => ptr.distribution.number
  | .BUFFER_REQUESTS => boolean ptr.flags.buffer_requests
  | .USER_DATA => 1
  | .SORT_HOSTS => boolean ptr.flags.use_sort_hosts
  | .VERIFY_KEY => boolean ptr.flags.verify_key
  | .CONNECT_TIMEOUT => signed ptr.connect_timeout
  | .RETRY_TIMEOUT => signed ptr.retry_timeout
  | .KETAMA_WEIGHTED => boolean ptr.flags.ketama_weighted
  | .KETAMA_HASH => ptr.distribution_hashkit.number
  | .BINARY_PROTOCOL => boolean ptr.flags.binary_protocol
  | .SND_TIMEOUT => signed ptr.snd_timeout
  | .RCV_TIMEOUT => signed ptr.rcv_timeout
  | .SERVER_FAILURE_LIMIT => ptr.server_failure_limit.toUInt64
  | .IO_MSG_WATERMARK => ptr.io_msg_watermark.toUInt64
  | .IO_BYTES_WATERMARK => ptr.io_bytes_watermark.toUInt64
  | .IO_KEY_PREFETCH => ptr.io_key_prefetch.toUInt64
  | .HASH_WITH_PREFIX_KEY => boolean ptr.flags.hash_with_prefix_key
  | .NOREPLY => boolean ptr.flags.no_reply
  | .USE_UDP => boolean ptr.flags.use_udp
  | .AUTO_EJECT_HOSTS => boolean ptr.flags.auto_eject_hosts
  | .NUMBER_OF_REPLICAS => ptr.number_of_replicas.toUInt64
  | .RANDOMIZE_REPLICA_READ => boolean ptr.flags.randomize_replica_read
  | .CORK => boolean ptr.flags.cork
  | .TCP_KEEPALIVE => boolean ptr.flags.tcp_keepalive
  | .TCP_KEEPIDLE => ptr.tcp_keepidle.toUInt64
  | .MAX => 0

/-- The two behaviors that are asked of the system while they are not set. -/
def ConfigSt.Settled (ptr : ConfigSt n) (flag : memcached_behavior_t) : Prop :=
  (flag = .SOCKET_SEND_SIZE → ptr.send_size ≠ -1) ∧ (flag = .SOCKET_RECV_SIZE → ptr.recv_size ≠ -1)

theorem behavior_get_setting {flag : memcached_behavior_t} (h : ptr.Settled flag) :
    ptr.memcached_behavior_get lib qsort moment probe flag = (ptr, ptr.setting flag) := by
  have hsocket : ∀ size : Int32, size ≠ -1 →
      ptr.socketSize lib qsort moment probe size = (ptr, signed size) := by
    intro size hsize
    unfold ConfigSt.socketSize
    rw [if_pos hsize]
  cases flag
  case SOCKET_SEND_SIZE => exact hsocket _ (h.1 rfl)
  case SOCKET_RECV_SIZE => exact hsocket _ (h.2 rfl)
  all_goals rfl

/-- The values that a behavior takes. -/
def stored (flag : memcached_behavior_t) (data : UInt64) : UInt64 :=
  match flag with
  | .SOCKET_SEND_SIZE | .SOCKET_RECV_SIZE | .POLL_TIMEOUT | .CONNECT_TIMEOUT | .RETRY_TIMEOUT
  | .SND_TIMEOUT | .RCV_TIMEOUT => signed data.toUInt32.toInt32
  | .HASH | .DISTRIBUTION | .KETAMA_HASH | .SERVER_FAILURE_LIMIT | .IO_MSG_WATERMARK
  | .IO_BYTES_WATERMARK | .IO_KEY_PREFETCH | .NUMBER_OF_REPLICAS | .TCP_KEEPIDLE =>
    data.toUInt32.toUInt64
  | _ => boolean (set_flag data)

/-- The other behaviors that change with one. -/
def touched : memcached_behavior_t → List memcached_behavior_t
  | .DISTRIBUTION => [.KETAMA]
  | .KETAMA => [.DISTRIBUTION, .HASH, .KETAMA_HASH]
  | .KETAMA_WEIGHTED => [.KETAMA, .DISTRIBUTION, .HASH, .KETAMA_HASH]
  | .BINARY_PROTOCOL => [.VERIFY_KEY]
  | .USE_UDP => [.NOREPLY]
  | .CORK => [.TCP_NODELAY]
  | _ => []

/-! ## What leaves them -/

theorem run_distribution_setting (lib : Hashkit) (qsort : Qsort) (moment : Moment)
    (ptr : ConfigSt n) : (ptr.run_distribution lib qsort moment).setting = ptr.setting := by
  obtain ⟨servers, next, room, count, continuum, hfields⟩ :=
    (run_distribution_redistributed lib qsort moment ptr).fields
  rw [hfields]
  funext flag
  cases flag <;> rfl

theorem memcached_quit_setting (ptr : ConfigSt n) : ptr.memcached_quit.setting = ptr.setting := by
  funext flag
  cases flag <;> rfl

theorem setServer_setting (ptr : ConfigSt n) (s : Fin n) (server : ServerSt) :
    (ptr.setServer s server).setting = ptr.setting := by
  funext flag
  cases flag <;> rfl

theorem memcached_connect_setting (lib : Hashkit) (qsort : Qsort) (moment : Moment)
    (ptr : ConfigSt n) (s : Fin n) (outcome : ConnectOutcome) :
    (ptr.memcached_connect lib qsort moment s outcome).1.setting = ptr.setting := by
  rcases memcached_connect_servers lib qsort moment ptr s outcome with
    hsame | hrun | ⟨-, -, server, -, hset⟩
  · rw [hsame]
  · rw [hrun]
    exact run_distribution_setting lib qsort moment ptr
  · rw [hset]
    exact setServer_setting ptr s server

/-! ## One call -/

theorem set_distribution_setting (lib : Hashkit) (qsort : Qsort) (moment : Moment)
    (ptr : ConfigSt n) (type : UInt32) {other : memcached_behavior_t} (hdistribution : other ≠ .DISTRIBUTION)
    (hketama : other ≠ .KETAMA) :
    (ptr.memcached_behavior_set_distribution lib qsort moment type).1.setting other =
      ptr.setting other := by
  rcases set_distribution_eq lib qsort moment ptr type with hsame | ⟨distribution, hrun⟩
  · rw [hsame]
  · rw [hrun, run_distribution_setting]
    cases other <;> first | rfl | exact absurd rfl hdistribution | exact absurd rfl hketama

theorem setCork_setting (lib : Hashkit) (qsort : Qsort) (moment : Moment) (probe : Probe)
    (ptr : ConfigSt n) :
    (∀ other, other ≠ .CORK → other ≠ .TCP_NODELAY →
      (ptr.setCork lib qsort moment probe).1.setting other = ptr.setting other) ∧
      ((ptr.setCork lib qsort moment probe).2 = SUCCESS →
        (ptr.setCork lib qsort moment probe).1.flags.cork = true) := by
  unfold ConfigSt.setCork
  by_cases hn : 0 < n
  · have hconnect := memcached_connect_setting lib qsort moment ptr ⟨0, hn⟩ probe.outcome
    rw [dif_pos hn]
    dsimp only
    split
    · rename_i connected hresult
      rw [hresult] at hconnect
      dsimp only at hconnect
      split
      · exact ⟨fun other _ _ => by rw [hconnect], fun h => by cases h⟩
      · split_ifs
        · refine ⟨fun other hcork hnodelay => ?_, fun _ => rfl⟩
          rw [memcached_quit_setting, ← hconnect]
          cases other <;> first | rfl | exact absurd rfl hcork | exact absurd rfl hnodelay
        · exact ⟨fun other _ _ => by rw [setServer_setting, hconnect], fun h => by cases h⟩
        all_goals exact ⟨fun other _ _ => by rw [hconnect], fun h => by cases h⟩
    · rename_i connected rc hne hresult
      rw [hresult] at hconnect
      dsimp only at hconnect
      exact ⟨fun other _ _ => by rw [hconnect], fun h => absurd h hne⟩
  · rw [dif_neg hn]
    exact ⟨fun _ _ _ => rfl, fun h => by cases h⟩

/-- The other behaviors stay as they are. -/
theorem behavior_set_other (flag : memcached_behavior_t) (data : UInt64)
    {other : memcached_behavior_t} (hne : other ≠ flag) (htouched : other ∉ touched flag) :
    (ptr.memcached_behavior_set lib qsort moment probe flag data).1.setting other =
      ptr.setting other := by
  cases flag
  case DISTRIBUTION =>
    apply set_distribution_setting lib qsort moment ptr _ hne
    exact fun h => htouched (by rw [h]; decide)
  case KETAMA =>
    unfold ConfigSt.memcached_behavior_set
    dsimp only
    generalize (if set_flag data then _ else _ :
      hashkit_hash_algorithm_t × memcached_server_distribution_t) = choice
    obtain ⟨hash, type⟩ := choice
    dsimp only
    obtain ⟨hashkit, hset⟩ := set_key_hash_eq lib ptr hash.number.toUInt32
    rw [hset]
    obtain ⟨distribution_hashkit, hset'⟩ := set_distribution_hash_eq lib { ptr with hashkit }
      hash.number.toUInt32
    rw [hset', set_distribution_setting lib qsort moment _ _
      (fun h => htouched (by rw [h]; decide)) hne]
    cases other <;> first | rfl | exact absurd (by decide) htouched
  case KETAMA_WEIGHTED =>
    obtain ⟨hashkit, distribution_hashkit, hset⟩ := set_weighted_eq lib qsort moment probe ptr data
    rw [hset, run_distribution_setting]
    cases other <;> first | rfl | exact absurd rfl hne | exact absurd (by decide) htouched
  case HASH =>
    unfold ConfigSt.memcached_behavior_set
    dsimp only
    obtain ⟨hashkit, hset⟩ := set_key_hash_eq lib ptr data.toUInt32
    rw [hset]
    cases other <;> first | rfl | exact absurd rfl hne
  case KETAMA_HASH =>
    unfold ConfigSt.memcached_behavior_set
    dsimp only
    obtain ⟨distribution_hashkit, hset⟩ := set_distribution_hash_eq lib ptr data.toUInt32
    rw [hset]
    cases other <;> first | rfl | exact absurd rfl hne
  case SORT_HOSTS =>
    unfold ConfigSt.memcached_behavior_set
    dsimp only
    rw [run_distribution_setting]
    cases other <;> first | rfl | exact absurd rfl hne
  case USE_UDP =>
    unfold ConfigSt.memcached_behavior_set
    dsimp only
    split_ifs
    · rfl
    · cases other <;> first | rfl | exact absurd rfl hne | exact absurd (by decide) htouched
  case VERIFY_KEY =>
    unfold ConfigSt.memcached_behavior_set
    dsimp only
    split_ifs
    · rfl
    · cases other <;> first | rfl | exact absurd rfl hne
  case CORK =>
    unfold ConfigSt.memcached_behavior_set
    dsimp only
    split_ifs
    · exact (setCork_setting lib qsort moment probe ptr).1 other hne
        fun h => htouched (by rw [h]; decide)
    · cases other <;> first | rfl | exact absurd rfl hne
  all_goals cases other <;> first | rfl | exact absurd rfl hne | exact absurd (by decide) htouched

theorem boolean_inj {a b : Bool} (h : boolean a = boolean b) : a = b := by
  cases a <;> cases b <;> first | rfl | (exact absurd h (by decide))

theorem hashkit_set_function_number {type : UInt32} {function : hashkit_hash_algorithm_t}
    (h : hashkit_set_function lib type = some function) : function.number = type.toUInt64 := by
  unfold hashkit_set_function at h
  have hfound := List.find?_some h
  exact of_decide_eq_true hfound

theorem set_distribution_number {type : UInt32}
    (h : (ptr.memcached_behavior_set_distribution lib qsort moment type).2 = SUCCESS) :
    (ptr.memcached_behavior_set_distribution lib qsort moment type).1.distribution.number =
      type.toUInt64 := by
  unfold ConfigSt.memcached_behavior_set_distribution at h ⊢
  split at h
  · rename_i distribution hfind
    rw [(run_distribution_redistributed lib qsort moment _).settings.distribution]
    have hfound := List.find?_some hfind
    exact of_decide_eq_true hfound
  · cases h

theorem set_distribution_known {distribution : memcached_server_distribution_t}
    (h : distribution ∈ distributionTypes) :
    (ptr.memcached_behavior_set_distribution lib qsort moment
      distribution.number.toUInt32).1.distribution = distribution := by
  have hfind : distributionTypes.find? (fun type =>
      type.number = distribution.number.toUInt32.toUInt64) = some distribution := by
    revert h
    cases distribution <;> decide
  unfold ConfigSt.memcached_behavior_set_distribution
  rw [hfind]
  exact (run_distribution_redistributed lib qsort moment _).settings.distribution

/-- A behavior that was set has the value that it was set to, as far as it
takes that. -/
theorem behavior_set_stored (flag : memcached_behavior_t) (data : UInt64)
    (h : (ptr.memcached_behavior_set lib qsort moment probe flag data).2 = SUCCESS) :
    (ptr.memcached_behavior_set lib qsort moment probe flag data).1.setting flag =
      stored flag data := by
  cases flag
  case DISTRIBUTION => exact set_distribution_number h
  case KETAMA =>
    unfold ConfigSt.memcached_behavior_set ConfigSt.setting stored
    dsimp only
    cases set_flag data
    · rw [if_neg (by decide), set_distribution_known (by decide)]
      rfl
    · rw [if_pos rfl, set_distribution_known (by decide)]
      rfl
  case KETAMA_WEIGHTED =>
    obtain ⟨hashkit, distribution_hashkit, hset⟩ := set_weighted_eq lib qsort moment probe ptr data
    rw [hset, run_distribution_setting]
    rfl
  case HASH =>
    unfold ConfigSt.memcached_behavior_set ConfigSt.memcached_behavior_set_key_hash at h ⊢
    dsimp only at h ⊢
    split at h
    · exact hashkit_set_function_number ‹_›
    · cases h
  case KETAMA_HASH =>
    unfold ConfigSt.memcached_behavior_set ConfigSt.memcached_behavior_set_distribution_hash at h ⊢
    dsimp only at h ⊢
    split at h
    · exact hashkit_set_function_number ‹_›
    · cases h
  case SORT_HOSTS =>
    unfold ConfigSt.memcached_behavior_set
    dsimp only
    rw [run_distribution_setting]
    rfl
  case USE_UDP =>
    unfold ConfigSt.memcached_behavior_set at h ⊢
    dsimp only at h ⊢
    split_ifs at h ⊢
    rfl
  case VERIFY_KEY =>
    unfold ConfigSt.memcached_behavior_set at h ⊢
    dsimp only at h ⊢
    split_ifs at h ⊢
    rfl
  case CORK =>
    unfold ConfigSt.memcached_behavior_set at h ⊢
    dsimp only at h ⊢
    unfold stored
    by_cases hdata : set_flag data = true
    · rw [if_pos hdata] at h ⊢
      unfold ConfigSt.setting
      rw [(setCork_setting lib qsort moment probe ptr).2 h, hdata]
    · rw [if_neg hdata] at h ⊢
      rw [Bool.not_eq_true] at hdata
      rw [hdata]
      rfl
  case USER_DATA => cases h
  case MAX => cases h
  all_goals rfl

/-! ## Runs -/

/-- Steps that do not set a behavior, and set none that changes it. -/
def leaves (flag : memcached_behavior_t) : Rules where
  host _ := True
  clock _ _ := True
  event _ event := ∀ other, event.sets = some other → flag ≠ other ∧ flag ∉ touched other
  clone := True

theorem step_setting {flag : memcached_behavior_t} {event : HandleEvent n}
    (hevent : (leaves flag).event ptr event) :
    (ptr.step lib qsort event).setting flag = ptr.setting flag := by
  cases event with
  | behavior_set moment probe other data =>
    obtain ⟨hne, htouched⟩ := hevent other rfl
    exact behavior_set_other other data hne htouched
  | behavior_get moment probe other =>
    have hsocket : ∀ size, (ptr.socketSize lib qsort moment probe size).1.setting = ptr.setting := by
      intro size
      rcases socketSize_eq lib qsort moment probe ptr size with hsame | ⟨s, hconnect⟩
      · rw [hsame]
      · rw [hconnect]
        exact memcached_connect_setting lib qsort moment ptr s probe.outcome
    cases other
    case SOCKET_SEND_SIZE => exact congrFun (hsocket ptr.send_size) flag
    case SOCKET_RECV_SIZE => exact congrFun (hsocket ptr.recv_size) flag
    all_goals rfl
  | connect moment s outcome =>
    exact congrFun (memcached_connect_setting lib qsort moment ptr s outcome) flag
  | io_read s =>
    unfold ConfigSt.step ConfigSt.memcached_io_read
    dsimp only
    split_ifs
    · rw [setServer_setting]
    · rfl
  | io_reset s => exact congrFun (setServer_setting ptr s _) flag
  | quit => exact congrFun (memcached_quit_setting ptr) flag
  | autoeject moment =>
    unfold ConfigSt.step ConfigSt.regen_for_auto_eject
    dsimp only
    split_ifs
    · rw [run_distribution_setting]
    · rfl

theorem memcached_clone_setting (lib : Hashkit) (qsort : Qsort) (pushed moment : Moment)
    (ptr : ConfigSt n) : (ptr.memcached_clone lib qsort pushed moment).setting = ptr.setting := by
  have hcopied : ptr.copied.setting = ptr.setting := by
    funext flag
    cases flag <;> rfl
  unfold ConfigSt.memcached_clone
  dsimp only
  rw [run_distribution_setting]
  split_ifs
  · exact hcopied
  · rw [run_distribution_setting]
    exact hcopied

theorem Develops.setting {flag : memcached_behavior_t} {start : ConfigSt m}
    (h : Develops lib qsort (leaves flag) start ptr) : ptr.setting flag = start.setting flag := by
  induction h with
  | refl => rfl
  | @server_add _ ptr _ addr weight _ _ _ _ _ ih =>
    have hgrown : (ptr.grown addr weight).setting flag = ptr.setting flag := by
      cases flag <;> rfl
    unfold ConfigSt.server_add
    rw [run_distribution_setting, hgrown]
    exact ih
  | step _ hevent ih =>
    rw [step_setting hevent]
    exact ih
  | memcached_clone _ _ _ ih =>
    rw [memcached_clone_setting]
    exact ih

theorem signed_inj {x y : Int32} (h : signed x = signed y) : x = y := by
  have hback := congrArg (fun value : UInt64 => value.toInt64.toInt32) h
  unfold signed at hback
  simp only [Int64.toInt64_toUInt64, Int32.toInt32_toInt64] at hback
  exact hback

/-- A behavior that was set has the value it was set to, on that handle and its
clones, until it or one that changes it is set again. -/
theorem a_behavior_keeps_the_value_it_was_set_to {start : ConfigSt m} (flag : memcached_behavior_t)
    (data : UInt64)
    (hset : (start.memcached_behavior_set lib qsort moment probe flag data).2 = SUCCESS)
    (hsize : flag = .SOCKET_SEND_SIZE ∨ flag = .SOCKET_RECV_SIZE → data.toUInt32.toInt32 ≠ -1)
    (h : Develops lib qsort (leaves flag)
      (start.memcached_behavior_set lib qsort moment probe flag data).1 ptr)
    (later : Moment) (probe' : Probe) :
    ptr.memcached_behavior_get lib qsort later probe' flag = (ptr, stored flag data) := by
  have hstored : ptr.setting flag = stored flag data := by
    rw [h.setting]
    exact behavior_set_stored flag data hset
  have hsettled : ptr.Settled flag := by
    constructor
    · rintro rfl hdefault
      apply hsize (Or.inl rfl)
      apply signed_inj
      rw [← hdefault]
      exact hstored.symm
    · rintro rfl hdefault
      apply hsize (Or.inr rfl)
      apply signed_inj
      rw [← hdefault]
      exact hstored.symm
  rw [behavior_get_setting hsettled, hstored]

/-- A clone of a handle with a retry timeout. -/
def retrying : ConfigSt 1 :=
  ((numberedHosts ketama 1).memcached_behavior_set aligned insertionQsort noon
    ⟨.connected, none, false, none⟩ .RETRY_TIMEOUT 30).1.memcached_clone aligned insertionQsort noon noon

theorem a_behavior_keeps_the_value_it_was_set_to_retrying :
    retrying.memcached_behavior_get aligned insertionQsort noon ⟨.connected, none, false, none⟩
      .RETRY_TIMEOUT = (retrying, stored .RETRY_TIMEOUT 30) :=
  a_behavior_keeps_the_value_it_was_set_to .RETRY_TIMEOUT 30 rfl (by decide)
    (Develops.memcached_clone Develops.refl trivial trivial) noon ⟨.connected, none, false, none⟩

/-! ## Key checks and the binary protocol -/

/-- Keys are checked in the text protocol only: no handle has both behaviors
on. -/
theorem keys_are_not_verified_in_the_binary_protocol {rules : Rules}
    (h : Develops lib qsort rules ConfigSt.memcached_create ptr) :
    (ptr.flags.verify_key && ptr.flags.binary_protocol) = false := by
  have hflags : ∀ {k : Nat} {p p' : ConfigSt k}, p'.setting .VERIFY_KEY = p.setting .VERIFY_KEY →
      p'.setting .BINARY_PROTOCOL = p.setting .BINARY_PROTOCOL →
      (p.flags.verify_key && p.flags.binary_protocol) = false →
      (p'.flags.verify_key && p'.flags.binary_protocol) = false := by
    intro k p p' hverify hbinary hboth
    rw [boolean_inj hverify, boolean_inj hbinary]
    exact hboth
  induction h with
  | refl => rfl
  | @server_add _ ptr moment addr weight _ _ _ _ _ ih =>
    unfold ConfigSt.server_add
    rw [(run_distribution_redistributed lib qsort moment _).flags]
    exact ih
  | @step _ ptr event _ _ ih =>
    by_cases hsets : event.sets = some .VERIFY_KEY ∨ event.sets = some .BINARY_PROTOCOL
    · cases event with
      | behavior_set moment probe flag data =>
        rcases hsets with hsets | hsets
        · cases hsets
          unfold ConfigSt.step ConfigSt.memcached_behavior_set
          dsimp only
          split_ifs with hbinary
          · exact ih
          · dsimp only
            rw [Bool.not_eq_true] at hbinary
            rw [hbinary, Bool.and_false]
        · cases hsets
          unfold ConfigSt.step ConfigSt.memcached_behavior_set
          dsimp only
          cases set_flag data <;> simp
      | _ => rcases hsets with hsets | hsets <;> cases hsets
    · obtain ⟨hverify, hbinary⟩ := not_or.mp hsets
      refine hflags (step_setting ?_) (step_setting ?_) ih
      · intro other hother
        rw [hother] at hverify hbinary
        refine ⟨fun h => hverify (by rw [h]), ?_⟩
        cases other <;> first | decide | exact absurd rfl hbinary
      · intro other hother
        rw [hother] at hbinary
        refine ⟨fun h => hbinary (by rw [h]), ?_⟩
        cases other <;> decide
  | memcached_clone _ _ _ ih =>
    exact hflags (congrFun (memcached_clone_setting lib qsort _ _ _) _)
      (congrFun (memcached_clone_setting lib qsort _ _ _) _) ih

/-- The binary protocol first, and then the key checks. -/
def binaryThenVerify : ConfigSt 0 :=
  (ConfigSt.memcached_create.step aligned insertionQsort
    (.behavior_set noon ⟨.connected, none, false, none⟩ .BINARY_PROTOCOL 1)).step aligned insertionQsort
      (.behavior_set noon ⟨.connected, none, false, none⟩ .VERIFY_KEY 1)

theorem keys_are_not_verified_in_the_binary_protocol_verify :
    (binaryThenVerify.flags.verify_key && binaryThenVerify.flags.binary_protocol) = false := by
  have hdevelops : Develops aligned insertionQsort steady ConfigSt.memcached_create
      binaryThenVerify :=
    Develops.step (Develops.step Develops.refl ⟨by decide, nofun⟩) ⟨by decide, nofun⟩
  exact keys_are_not_verified_in_the_binary_protocol hdevelops

end Libmemcached
