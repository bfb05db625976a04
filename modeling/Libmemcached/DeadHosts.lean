-- Hosts that fail: when they are tried again, and when they never are.
import Libmemcached.SameHosts

open Chunks Decimal

namespace Libmemcached

open memcached_return_t

variable {n m : Nat} {lib : Hashkit} {qsort : Qsort} {moment : Moment} {ptr : ConfigSt n}
variable {Q : Int → Prop}

/-! ## What a step does to each host -/

/-- A property of a host that closing its connection and weighing it keep. -/
structure Lasting (P : ServerSt → Prop) : Prop where
  quit : ∀ server, P server → P server.memcached_quit_server
  weight : ∀ server weight, P server → P { server with weight }

def ConfigSt.All (P : ServerSt → Prop) (ptr : ConfigSt n) : Prop := ∀ s, P (ptr.servers s)

theorem Lasting.run_distribution {P : ServerSt → Prop} (hP : Lasting P) (h : ptr.All P) :
    (ptr.run_distribution lib qsort moment).All P := by
  intro s
  have hmem : (ptr.run_distribution lib qsort moment).servers s ∈
      (ptr.run_distribution lib qsort moment).list := ConfigSt.mem_list.mpr ⟨s, rfl⟩
  rcases (run_distribution_redistributed lib qsort moment ptr).list with hlist | hlist
  · obtain ⟨s', hs'⟩ := ConfigSt.mem_list.mp (hlist.mem_iff.mp hmem)
    rw [← hs']
    exact h s'
  · obtain ⟨server, hserver, hreweigh⟩ := List.mem_map.mp (hlist.mem_iff.mp hmem)
    obtain ⟨s', rfl⟩ := ConfigSt.mem_list.mp hserver
    rw [← hreweigh]
    exact hP.weight _ _ (h s')

/-- A property that the new host has is one of all hosts after an addition. -/
theorem Lasting.server_add {P : ServerSt → Prop} (hP : Lasting P) (h : ptr.All P)
    {addr : ServerAddr} (hnew : ∀ server, server.addr = addr → P server) (weight : UInt32) :
    (ptr.server_add lib qsort moment addr weight).All P := by
  apply hP.run_distribution
  intro s
  unfold ConfigSt.grown
  dsimp only
  induction s using Fin.lastCases with
  | last =>
    rw [Fin.snoc_last]
    exact hnew _ rfl
  | cast s =>
    rw [Fin.snoc_castSucc]
    exact h s

theorem run_distribution_limits :
    (ptr.run_distribution lib qsort moment).server_failure_limit = ptr.server_failure_limit ∧
      (ptr.run_distribution lib qsort moment).retry_timeout = ptr.retry_timeout := by
  obtain ⟨servers, next, room, count, continuum, hfields⟩ :=
    (run_distribution_redistributed lib qsort moment ptr).fields
  rw [hfields]
  exact ⟨rfl, rfl⟩

theorem Lasting.quitAll {P : ServerSt → Prop} (hP : Lasting P) (h : ptr.All P) :
    ptr.memcached_quit.All P := fun s => hP.quit _ (h s)

theorem Lasting.setServer {P : ServerSt → Prop} (h : ptr.All P) {s : Fin n} {server : ServerSt}
    (hserver : P server) : (ptr.setServer s server).All P := by
  intro s'
  rw [setServer_servers]
  split_ifs
  · exact hserver
  · exact h s'

theorem Lasting.set_distribution {P : ServerSt → Prop} (hP : Lasting P) (h : ptr.All P)
    (type : UInt32) : (ptr.memcached_behavior_set_distribution lib qsort moment type).1.All P := by
  rcases set_distribution_eq lib qsort moment ptr type with hsame | ⟨distribution, hrun⟩
  · rw [hsame]
    exact h
  · rw [hrun]
    exact hP.run_distribution h

/-- Only a connect can end such a property when a behavior is set. -/
theorem Lasting.behavior_set {P : ServerSt → Prop} (hP : Lasting P) (h : ptr.All P) (probe : Probe)
    (hconnect : ∀ s outcome, (ptr.memcached_connect lib qsort moment s outcome).1.All P)
    (flag : memcached_behavior_t) (data : UInt64) :
    (ptr.memcached_behavior_set lib qsort moment probe flag data).1.All P := by
  cases flag
  case DISTRIBUTION => exact hP.set_distribution h _
  case KETAMA =>
    unfold ConfigSt.memcached_behavior_set
    dsimp only
    generalize (if set_flag data then _ else _ :
      hashkit_hash_algorithm_t × memcached_server_distribution_t) = choice
    obtain ⟨hash, type⟩ := choice
    dsimp only
    obtain ⟨hashkit, hset⟩ := set_key_hash_eq lib ptr hash.number.toUInt32
    rw [hset]
    obtain ⟨distribution_hashkit, hset'⟩ := set_distribution_hash_eq lib { ptr with hashkit }
      hash.number.toUInt32
    rw [hset']
    have hsame : ({ ptr with hashkit, distribution_hashkit } : ConfigSt n).All P := h
    exact hP.set_distribution hsame _
  case KETAMA_WEIGHTED =>
    obtain ⟨hashkit, distribution_hashkit, hset⟩ := set_weighted_eq lib qsort moment probe ptr data
    rw [hset]
    exact hP.run_distribution h
  case HASH =>
    unfold ConfigSt.memcached_behavior_set
    dsimp only
    obtain ⟨hashkit, hset⟩ := set_key_hash_eq lib ptr data.toUInt32
    rw [hset]
    exact h
  case KETAMA_HASH =>
    unfold ConfigSt.memcached_behavior_set
    dsimp only
    obtain ⟨distribution_hashkit, hset⟩ := set_distribution_hash_eq lib ptr data.toUInt32
    rw [hset]
    exact h
  case SORT_HOSTS => exact hP.run_distribution h
  case USE_UDP =>
    unfold ConfigSt.memcached_behavior_set
    dsimp only
    split_ifs <;> exact h
  case VERIFY_KEY =>
    unfold ConfigSt.memcached_behavior_set
    dsimp only
    split_ifs <;> exact h
  case CORK =>
    unfold ConfigSt.memcached_behavior_set ConfigSt.setCork
    dsimp only
    by_cases hdata : set_flag data = true
    · rw [if_pos hdata]
      by_cases hn : 0 < n
      · rw [dif_pos hn]
        have hfirst := hconnect ⟨0, hn⟩ probe.outcome
        split <;> rename_i hresult <;> rw [hresult] at hfirst
        · split
          · exact hfirst
          · split_ifs
            · exact fun s => hP.quit _ (hfirst s)
            · exact Lasting.setServer hfirst (hP.quit _ (hfirst _))
            all_goals exact hfirst
        · exact hfirst
      · rw [dif_neg hn]
        exact h
    · rw [if_neg hdata]
      exact h
  all_goals first
    | exact h
    | exact fun s => hP.quit _ (h s)

/-- A property of the hosts that every kind of step keeps. -/
theorem Lasting.step {P : ServerSt → Prop} (hP : Lasting P) {event : HandleEvent n} (h : ptr.All P)
    (hconnect : ∀ moment, event.moment = some moment → ∀ s outcome,
      (ptr.memcached_connect lib qsort moment s outcome).1.All P)
    (hread : ∀ s, event = .io_read s → (ptr.servers s).fd = true →
      P { ptr.servers s with server_failure_counter := 0 })
    (hreset : ∀ s, event = .io_reset s → P { ptr.servers s with
      fd := false
      server_failure_counter := (ptr.servers s).server_failure_counter + 1 }) :
    (ptr.step lib qsort event).All P := by
  cases event with
  | behavior_set moment probe flag data =>
    exact hP.behavior_set h probe (hconnect moment rfl) flag data
  | behavior_get moment probe flag =>
    have hsocket : ∀ size, (ptr.socketSize lib qsort moment probe size).1.All P := by
      intro size
      rcases socketSize_eq lib qsort moment probe ptr size with hsame | ⟨s, hfirst⟩
      · rw [hsame]
        exact h
      · rw [hfirst]
        exact hconnect moment rfl s probe.outcome
    cases flag
    case SOCKET_SEND_SIZE => exact hsocket ptr.send_size
    case SOCKET_RECV_SIZE => exact hsocket ptr.recv_size
    all_goals exact h
  | connect moment s outcome => exact hconnect moment rfl s outcome
  | io_read s =>
    unfold ConfigSt.step ConfigSt.memcached_io_read
    dsimp only
    split_ifs with hfd
    · exact Lasting.setServer h (hread s rfl hfd)
    · exact h
  | io_reset s => exact Lasting.setServer h (hreset s rfl)
  | quit => exact hP.quitAll h
  | autoeject moment =>
    unfold ConfigSt.step ConfigSt.regen_for_auto_eject
    dsimp only
    split_ifs
    · exact hP.run_distribution h
    · exact h

/-- What a connect does to the hosts: only the one that is tried changes. -/
theorem memcached_connect_servers (lib : Hashkit) (qsort : Qsort) (moment : Moment)
    (ptr : ConfigSt n) (s : Fin n) (outcome : ConnectOutcome) :
    (ptr.memcached_connect lib qsort moment s outcome).1 = ptr ∨
      (ptr.memcached_connect lib qsort moment s outcome).1 =
        ptr.run_distribution lib qsort moment ∨
      (ptr.waits moment.now s = false ∧ ptr.failed s = false ∧ ∃ server,
        server.addr = (ptr.servers s).addr ∧
        (ptr.memcached_connect lib qsort moment s outcome).1 = ptr.setServer s server) := by
  unfold ConfigSt.memcached_connect
  split_ifs with hfd hwaits hfailed heject
  · exact Or.inl rfl
  · exact Or.inl rfl
  · exact Or.inr (Or.inl rfl)
  · exact Or.inl rfl
  · refine Or.inr (Or.inr ⟨Bool.eq_false_iff.mpr hwaits, Bool.eq_false_iff.mpr hfailed, ?_⟩)
    have hserver : ∀ x : ServerSt × memcached_return_t, x.1.addr = (ptr.servers s).addr →
        ∃ server, server.addr = (ptr.servers s).addr ∧ ptr.setServer s
          (if x.2 = SUCCESS then { x.1 with server_failure_counter := 0, next_retry := 0 }
          else { x.1 with server_failure_counter := x.1.server_failure_counter + 1 }) =
            ptr.setServer s server := by
      intro x haddr
      refine ⟨_, ?_, rfl⟩
      split_ifs <;> exact haddr
    cases htype : (ptr.servers s).addr.type with
    | tcp =>
      apply hserver (network_connect moment ptr.retry_timeout (ptr.servers s) outcome)
      cases outcome <;> simp only [network_connect, network_connect.scheduled] <;>
        first | rfl | (split_ifs <;> rfl)
    | unix =>
      apply hserver (unix_socket_connect (ptr.servers s) outcome)
      cases outcome <;> rfl

/-! ## Hosts over the failure limit -/

/-- A host that has failed as often as it may, and is not connected. `Q` is
known of the time of its next retry. -/
structure GivenUp (limit : UInt32) (Q : Int → Prop) (server : ServerSt) : Prop where
  fd : server.fd = false
  failures : limit ≤ server.server_failure_counter
  retry : Q server.next_retry

/-- All hosts of an address are given up. -/
def AllGivenUp (limit : UInt32) (Q : Int → Prop) (addr : ServerAddr) (server : ServerSt) : Prop :=
  server.addr = addr → GivenUp limit Q server

theorem givenUp_lasting (limit : UInt32) (Q : Int → Prop) (addr : ServerAddr) :
    Lasting (AllGivenUp limit Q addr) where
  quit server h haddr := by
    rw [(memcached_quit_server_fields server).1] at haddr
    have hgivenUp := h haddr
    unfold ServerSt.memcached_quit_server
    rw [if_neg (by rw [hgivenUp.fd]; decide)]
    exact hgivenUp
  weight _ _ h haddr := ⟨(h haddr).fd, (h haddr).failures, (h haddr).retry⟩

theorem failed_of_givenUp (hlimit : ptr.server_failure_limit ≠ 0) {addr : ServerAddr}
    (h : ptr.All (AllGivenUp ptr.server_failure_limit Q addr)) {s : Fin n}
    (haddr : (ptr.servers s).addr = addr) : ptr.failed s = true := by
  unfold ConfigSt.failed
  simp only [ne_eq, hlimit, not_false_eq_true, decide_true, (h s haddr).failures, Bool.and_self]

/-- It is not tried again. -/
theorem connect_givenUp (hlimit : ptr.server_failure_limit ≠ 0) {addr : ServerAddr}
    (h : ptr.All (AllGivenUp ptr.server_failure_limit Q addr)) {s : Fin n}
    (haddr : (ptr.servers s).addr = addr) (outcome : ConnectOutcome) :
    (ptr.memcached_connect lib qsort moment s outcome).2 = SERVER_MARKED_DEAD := by
  unfold ConfigSt.memcached_connect
  rw [if_neg (by rw [(h s haddr).fd]; decide), failed_of_givenUp hlimit h haddr,
    if_pos (rfl : true = true)]
  split_ifs <;> rfl

/-- Steps of a handle that keep the failure limit. The counter of failures does
not start again from zero. -/
def patient (addr : ServerAddr) : Rules where
  host a := a ≠ addr
  clock _ _ := True
  event ptr event := event.sets ≠ some .SERVER_FAILURE_LIMIT ∧ ∀ s, event = .io_reset s →
    (ptr.servers s).server_failure_counter.toNat + 1 < UInt32.size
  clone := False

theorem step_limit {event : HandleEvent n} (hsets : event.sets ≠ some .SERVER_FAILURE_LIMIT) :
    (ptr.step lib qsort event).server_failure_limit = ptr.server_failure_limit := by
  rcases stepsTo_step lib qsort ptr event with
    ⟨hkeeps, -⟩ | ⟨moment, between, -, hkeeps, -, hrun⟩
  · exact hkeeps.server_failure_limit hsets
  · rw [hrun, run_distribution_limits.1]
    exact hkeeps.server_failure_limit hsets

theorem step_givenUp {addr : ServerAddr} (hlimit : ptr.server_failure_limit ≠ 0)
    (h : ptr.All (AllGivenUp ptr.server_failure_limit Q addr)) {event : HandleEvent n}
    (hevent : (patient addr).event ptr event) :
    (ptr.step lib qsort event).All (AllGivenUp ptr.server_failure_limit Q addr) := by
  apply (givenUp_lasting ptr.server_failure_limit Q addr).step h
  · intro moment _ s outcome
    rcases memcached_connect_servers lib qsort moment ptr s outcome with
      hsame | hrun | ⟨-, hfailed, server, haddr, hset⟩
    · rw [hsame]
      exact h
    · rw [hrun]
      exact (givenUp_lasting _ Q addr).run_distribution h
    · rw [hset]
      apply Lasting.setServer h
      intro hserver
      rw [failed_of_givenUp hlimit h (haddr.symm.trans hserver)] at hfailed
      cases hfailed
  · intro s _ hfd haddr
    rw [(h s haddr).fd] at hfd
    cases hfd
  · intro s hreset haddr
    refine ⟨rfl, UInt32.le_trans (h s haddr).failures ?_, (h s haddr).retry⟩
    have hsmall : (ptr.servers s).server_failure_counter.toNat + (1 : UInt32).toNat < 2 ^ 32 :=
      hevent.2 s hreset
    rw [UInt32.le_iff_toNat_le, UInt32.toNat_add, Nat.mod_eq_of_lt hsmall]
    exact Nat.le_succ _

theorem Develops.givenUp {addr : ServerAddr} {start : ConfigSt m}
    (h : Develops lib qsort (patient addr) start ptr) (hlimit : start.server_failure_limit ≠ 0)
    (hstart : start.All (AllGivenUp start.server_failure_limit Q addr)) :
    ptr.server_failure_limit = start.server_failure_limit ∧
      ptr.All (AllGivenUp start.server_failure_limit Q addr) := by
  induction h with
  | refl => exact ⟨rfl, hstart⟩
  | @server_add _ ptr moment a weight _ _ _ hhost _ ih =>
    obtain ⟨hsame, hall⟩ := ih
    refine ⟨run_distribution_limits.1.trans hsame, (givenUp_lasting _ Q addr).server_add hall ?_ weight⟩
    intro server hserver hsame
    exact absurd (hserver.symm.trans hsame) hhost
  | @step _ ptr event _ hevent ih =>
    obtain ⟨hsame, hall⟩ := ih
    rw [← hsame] at hall hlimit ⊢
    exact ⟨step_limit hevent.1, step_givenUp hlimit hall hevent⟩
  | memcached_clone _ hclone _ _ => exact hclone.elim

/-- A host that has failed as often as the limit allows is never connected
again, at any later time and whatever else happens. -/
theorem a_host_over_the_failure_limit_is_never_tried_again {addr : ServerAddr} {start : ConfigSt m}
    (hlimit : start.server_failure_limit ≠ 0)
    (hfailed : ∀ s, (start.servers s).addr = addr → (start.servers s).fd = false ∧
      start.server_failure_limit ≤ (start.servers s).server_failure_counter)
    (h : Develops lib qsort (patient addr) start ptr) {s : Fin n}
    (haddr : (ptr.servers s).addr = addr) :
    (ptr.servers s).fd = false ∧ ∀ moment outcome,
      (ptr.memcached_connect lib qsort moment s outcome).2 = SERVER_MARKED_DEAD := by
  obtain ⟨hsame, hall⟩ := h.givenUp (Q := fun _ => True) hlimit fun s haddr =>
    ⟨(hfailed s haddr).1, (hfailed s haddr).2, trivial⟩
  rw [← hsame] at hlimit hall
  exact ⟨(hall s haddr).fd, fun moment outcome => connect_givenUp hlimit hall haddr outcome⟩

def impatient : ConfigSt 0 := { ketama with server_failure_limit := 1 }

/-- Two hosts, of which the first one refused the only connect that may fail. -/
def refusedOnce : ConfigSt 2 :=
  (numberedHosts impatient 2).step aligned insertionQsort
    (.connect noon ⟨0, Nat.zero_lt_two⟩ .refused)

set_option maxRecDepth 100000 in
theorem refusedOnce_failed : ∀ s, (refusedOnce.servers s).addr = ServerAddr.add (decimal 0) 0 →
    (refusedOnce.servers s).fd = false ∧
      refusedOnce.server_failure_limit ≤ (refusedOnce.servers s).server_failure_counter ∧
      (refusedOnce.servers s).next_retry ≤ noon.now := by decide +kernel

set_option maxRecDepth 100000 in
theorem refusedOnce_addr : (refusedOnce.servers 0).addr = ServerAddr.add (decimal 0) 0 := by decide +kernel

set_option maxRecDepth 100000 in
theorem refusedOnce_limit : refusedOnce.server_failure_limit ≠ 0 := by decide +kernel

/-- The rules of both: keys are placed in the same way all the time. -/
def patientSteady (addr : ServerAddr) : Rules where
  host a := steady.host a ∧ a ≠ addr
  clock := PastRetry
  event ptr event := steady.event ptr event ∧ (patient addr).event ptr event
  clone := False

theorem Develops.toPatient {addr : ServerAddr} {start : ConfigSt m}
    (h : Develops lib qsort (patientSteady addr) start ptr) :
    Develops lib qsort (patient addr) start ptr := by
  apply h.weaken
  · exact fun _ hhost => hhost.2
  · exact fun _ _ _ => trivial
  · intro _ ptr event hevent
    exact And.right (a := steady.event ptr event) hevent
  · exact False.elim

theorem Develops.patientToSteady {addr : ServerAddr} {start : ConfigSt m}
    (h : Develops lib qsort (patientSteady addr) start ptr) :
    Develops lib qsort steady start ptr := by
  apply h.weaken
  · exact fun _ hhost => hhost.1
  · exact fun _ _ hclock => hclock
  · intro _ ptr event hevent
    exact And.left (a := steady.event ptr event) hevent
  · exact False.elim

/-- Its connections are closed, the first host is tried again, and a third one
is added. -/
def refusedLater : ConfigSt 3 :=
  ((refusedOnce.step aligned insertionQsort .quit).step aligned insertionQsort
    (.connect noon ⟨0, Nat.zero_lt_two⟩ .connected)).server_add aligned insertionQsort noon
      (ServerAddr.add (decimal 2) 0) 0

set_option maxRecDepth 100000 in
theorem refusedLater_fields :
    ((refusedOnce.step aligned insertionQsort .quit).step aligned insertionQsort
      (.connect noon ⟨0, Nat.zero_lt_two⟩ .connected)).flags.use_udp = false ∧
    ((refusedOnce.step aligned insertionQsort .quit).step aligned insertionQsort
      (.connect noon ⟨0, Nat.zero_lt_two⟩ .connected)).retry_timeout = 0 ∧
    (refusedLater.servers 0).addr = ServerAddr.add (decimal 0) 0 := by decide +kernel

theorem refusedLater_develops : Develops aligned insertionQsort
    (patientSteady (ServerAddr.add (decimal 0) 0)) refusedOnce refusedLater := by
  obtain ⟨hudp, hretry, -⟩ := refusedLater_fields
  apply Develops.server_add 0
  · apply Develops.step
    · apply Develops.step Develops.refl
      exact ⟨⟨fun _ _ => nofun, nofun⟩, nofun, fun _ => nofun⟩
    · exact ⟨⟨fun _ _ => nofun, nofun⟩, nofun, fun _ => nofun⟩
  · exact hudp
  · exact ServerAddr.add_proper _ _
  · exact ⟨numberedHosts_short (by decide : 3 ≤ 100) 2 (by decide), by decide⟩
  · exact pastRetry_noon hretry _ rfl

/-- The theorem after this run. -/
theorem a_host_over_the_failure_limit_is_never_tried_again_refused :
    (refusedLater.servers 0).fd = false ∧ ∀ moment outcome,
      (refusedLater.memcached_connect aligned insertionQsort moment 0 outcome).2 =
        SERVER_MARKED_DEAD :=
  a_host_over_the_failure_limit_is_never_tried_again refusedOnce_limit
    (fun s haddr => ⟨(refusedOnce_failed s haddr).1, (refusedOnce_failed s haddr).2.1⟩)
    refusedLater_develops.toPatient refusedLater_fields.2.2

/-- Such a host does not stay out of the ring. Once its retry time is over, each
distribution gives it all its points, and each connect to it fails. -/
theorem a_host_over_the_failure_limit_takes_its_keys_back {addr : ServerAddr} {start : ConfigSt m}
    {empty : ConfigSt 0} (hconsistent : empty.distribution.Consistent)
    (hunweighted : empty.flags.ketama_weighted = false)
    (hbefore : Develops lib qsort steady empty start) (hlimit : start.server_failure_limit ≠ 0)
    {retry : Int} (hlisted : addr ∈ start.addrs)
    (hfailed : ∀ s, (start.servers s).addr = addr → (start.servers s).fd = false ∧
      start.server_failure_limit ≤ (start.servers s).server_failure_counter ∧
      (start.servers s).next_retry ≤ retry)
    (h : Develops lib qsort (patientSteady addr) start ptr) (hlater : retry ≤ moment.now) :
    (∀ value ∈ ptr.pointsFor lib addr, (value, addr) ∈ (ptr.run_distribution lib qsort moment).ring) ∧
      ∀ s, ((ptr.run_distribution lib qsort moment).servers s).addr = addr → ∀ later outcome,
        ((ptr.run_distribution lib qsort moment).memcached_connect lib qsort later s outcome).2 =
          SERVER_MARKED_DEAD := by
  obtain ⟨hplaced, -⟩ := hbefore.placed (placed_empty lib hconsistent hunweighted)
  obtain ⟨hplaced', -⟩ := h.patientToSteady.placed hplaced
  obtain ⟨hsame, hall⟩ := h.toPatient.givenUp (Q := (· ≤ retry)) hlimit fun s haddr =>
    ⟨(hfailed s haddr).1, (hfailed s haddr).2.1, (hfailed s haddr).2.2⟩
  rw [← hsame] at hlimit hall
  constructor
  · obtain ⟨s, rfl⟩ := ConfigSt.mem_addrs.mp (h.addrs hlisted)
    have hserves : (ptr.run_distribution lib qsort moment).Serves (ptr.servers s).addr := by
      apply hplaced'.listed.serves
      unfold ConfigSt.gets
      rw [Bool.or_eq_true, decide_eq_true_eq]
      exact Or.inr (Int.le_trans (hall s rfl).retry hlater)
    have hdistributed : Placed lib (ptr.run_distribution lib qsort moment) :=
      hplaced'.listed.run_distribution fun _ => ⟨hplaced'.whole, hplaced'.inOrder⟩
    intro value hvalue
    apply hdistributed.whole.all _ hserves
    rw [(run_distribution_redistributed lib qsort moment ptr).settings.pointsFor]
    exact hvalue
  · intro s haddr later outcome
    have hlimit' : (ptr.run_distribution lib qsort moment).server_failure_limit =
        ptr.server_failure_limit := run_distribution_limits.1
    have hall' : (ptr.run_distribution lib qsort moment).All
        (AllGivenUp (ptr.run_distribution lib qsort moment).server_failure_limit (· ≤ retry)
          addr) := by
      rw [hlimit']
      exact (givenUp_lasting _ _ addr).run_distribution hall
    exact connect_givenUp (by rw [hlimit']; exact hlimit) hall' haddr outcome

/-- The theorem after the same run. -/
theorem a_host_over_the_failure_limit_takes_its_keys_back_refused :
    (∀ value ∈ refusedLater.pointsFor aligned (ServerAddr.add (decimal 0) 0),
        (value, ServerAddr.add (decimal 0) 0) ∈
          (refusedLater.run_distribution aligned insertionQsort noon).ring) ∧
      ∀ s, ((refusedLater.run_distribution aligned insertionQsort noon).servers s).addr =
          ServerAddr.add (decimal 0) 0 → ∀ later outcome,
        ((refusedLater.run_distribution aligned insertionQsort noon).memcached_connect aligned
          insertionQsort later s outcome).2 = SERVER_MARKED_DEAD := by
  have hnumbered : Develops aligned insertionQsort steady impatient
      (numberedHosts impatient 2) :=
    numberedHosts_develops Develops.refl rfl (pastRetry_noon rfl) 2 (numberedHosts_short (by decide))
  have hrefusing : Develops aligned insertionQsort steady impatient refusedOnce :=
    Develops.step hnumbered ⟨fun _ _ => nofun, nofun⟩
  exact a_host_over_the_failure_limit_takes_its_keys_back
    (show impatient.distribution.Consistent from trivial) rfl hrefusing refusedOnce_limit
    (ConfigSt.mem_addrs.mpr ⟨0, refusedOnce_addr⟩) refusedOnce_failed refusedLater_develops
    (Int.le_refl noon.now)

/-! ## Hosts that wait for their retry -/

/-- All hosts of an address wait for a retry, and are not connected. -/
def AllWait (retry : Int) (addr : ServerAddr) (server : ServerSt) : Prop :=
  server.addr = addr → server.fd = false ∧ server.next_retry = retry

theorem allWait_lasting (retry : Int) (addr : ServerAddr) : Lasting (AllWait retry addr) where
  quit server h haddr := by
    rw [(memcached_quit_server_fields server).1] at haddr
    obtain ⟨hfd, hretry⟩ := h haddr
    unfold ServerSt.memcached_quit_server
    rw [if_neg (by rw [hfd]; decide)]
    exact ⟨hfd, hretry⟩
  weight _ _ h := h

/-- Steps before a retry, of a handle that keeps the retry timeout. -/
def beforeRetry (retry : Int) (addr : ServerAddr) : Rules where
  host a := a ≠ addr
  clock _ _ := True
  event _ event := event.sets ≠ some .RETRY_TIMEOUT ∧ ∀ moment, event.moment = some moment →
    moment.now < retry
  clone := False

theorem waits_of_allWait {retry : Int} {addr : ServerAddr} (htimeout : ptr.retry_timeout ≠ 0)
    (hretry : retry ≠ 0) (h : ptr.All (AllWait retry addr)) {s : Fin n}
    (haddr : (ptr.servers s).addr = addr) (hbefore : moment.now < retry) :
    ptr.waits moment.now s = true := by
  unfold ConfigSt.waits
  rw [(h s haddr).2]
  simp only [ne_eq, htimeout, hretry, not_false_eq_true, decide_true, hbefore, Bool.and_self]

/-- It is not tried, and nothing changes. -/
theorem connect_waits {retry : Int} {addr : ServerAddr} (htimeout : ptr.retry_timeout ≠ 0)
    (hretry : retry ≠ 0) (h : ptr.All (AllWait retry addr)) {s : Fin n}
    (haddr : (ptr.servers s).addr = addr) (hbefore : moment.now < retry)
    (outcome : ConnectOutcome) :
    ptr.memcached_connect lib qsort moment s outcome = (ptr, SERVER_MARKED_DEAD) := by
  unfold ConfigSt.memcached_connect
  rw [if_neg (by rw [(h s haddr).1]; decide),
    if_pos (waits_of_allWait htimeout hretry h haddr hbefore)]

theorem step_retry_timeout {event : HandleEvent n} (hsets : event.sets ≠ some .RETRY_TIMEOUT) :
    (ptr.step lib qsort event).retry_timeout = ptr.retry_timeout := by
  rcases stepsTo_step lib qsort ptr event with
    ⟨hkeeps, -⟩ | ⟨moment, between, -, hkeeps, -, hrun⟩
  · exact hkeeps.retry_timeout hsets
  · rw [hrun, run_distribution_limits.2]
    exact hkeeps.retry_timeout hsets

theorem step_allWait {retry : Int} {addr : ServerAddr} (htimeout : ptr.retry_timeout ≠ 0)
    (hretry : retry ≠ 0) (h : ptr.All (AllWait retry addr)) {event : HandleEvent n}
    (hevent : (beforeRetry retry addr).event ptr event) :
    (ptr.step lib qsort event).All (AllWait retry addr) := by
  apply (allWait_lasting retry addr).step h
  · intro moment hmoment s outcome
    have hbefore := hevent.2 moment hmoment
    rcases memcached_connect_servers lib qsort moment ptr s outcome with
      hsame | hrun | ⟨hwaits, -, server, haddr, hset⟩
    · rw [hsame]
      exact h
    · rw [hrun]
      exact (allWait_lasting retry addr).run_distribution h
    · rw [hset]
      apply Lasting.setServer h
      intro hserver
      rw [waits_of_allWait htimeout hretry h (haddr.symm.trans hserver) hbefore] at hwaits
      cases hwaits
  · intro s _ hfd haddr
    rw [(h s haddr).1] at hfd
    cases hfd
  · exact fun s _ haddr => ⟨rfl, (h s haddr).2⟩

theorem Develops.allWait {retry : Int} {addr : ServerAddr} {start : ConfigSt m}
    (h : Develops lib qsort (beforeRetry retry addr) start ptr)
    (htimeout : start.retry_timeout ≠ 0) (hretry : retry ≠ 0)
    (hstart : start.All (AllWait retry addr)) :
    ptr.retry_timeout = start.retry_timeout ∧ ptr.All (AllWait retry addr) := by
  induction h with
  | refl => exact ⟨rfl, hstart⟩
  | @server_add _ ptr moment a weight _ _ _ hhost _ ih =>
    obtain ⟨hsame, hall⟩ := ih
    refine ⟨run_distribution_limits.2.trans hsame, (allWait_lasting retry addr).server_add hall ?_ weight⟩
    intro server hserver hsame
    exact absurd (hserver.symm.trans hsame) hhost
  | @step _ ptr event _ hevent ih =>
    obtain ⟨hsame, hall⟩ := ih
    rw [← hsame] at htimeout ⊢
    exact ⟨step_retry_timeout hevent.1, step_allWait htimeout hretry hall hevent⟩
  | memcached_clone _ hclone _ _ => exact hclone.elim

/-- A host whose connect fails is left alone until the retry timeout is over,
whatever the calls before that are. -/
theorem a_host_that_failed_is_left_alone_until_its_retry {start : ConfigSt m} {s : Fin m}
    {now : Moment} {outcome : ConnectOutcome} (htcp : (start.servers s).addr.type = .tcp)
    (honly : ∀ s', (start.servers s').addr = (start.servers s).addr → s' = s)
    (hfd : (start.servers s).fd = false) (hwaits : start.waits now.now s = false)
    (hfailed : start.failed s = false) (htimeout : start.retry_timeout ≠ 0)
    (hretry : now.now + start.retry_timeout.toInt ≠ 0)
    (houtcome : outcome = .timeout ∨ outcome = .refused)
    (h : Develops lib qsort (beforeRetry (now.now + start.retry_timeout.toInt)
      (start.servers s).addr) (start.memcached_connect lib qsort now s outcome).1 ptr)
    {s' : Fin n} (haddr : (ptr.servers s').addr = (start.servers s).addr) :
    (ptr.servers s').fd = false ∧ ∀ later outcome', later.now < now.now + start.retry_timeout.toInt →
      ptr.memcached_connect lib qsort later s' outcome' = (ptr, SERVER_MARKED_DEAD) := by
  -- the failed connect notes the time of the retry
  obtain ⟨server, hset, hserver⟩ : ∃ server,
      (start.memcached_connect lib qsort now s outcome).1 = start.setServer s server ∧
        server.fd = false ∧ server.next_retry = now.now + start.retry_timeout.toInt := by
    unfold ConfigSt.memcached_connect
    rw [if_neg (by rw [hfd]; decide), if_neg (by rw [hwaits]; decide),
      if_neg (by rw [hfailed]; decide), htcp]
    rcases houtcome with rfl | rfl
    all_goals
      refine ⟨_, rfl, ?_⟩
      simp only [network_connect, network_connect.scheduled, if_neg htimeout, reduceCtorEq,
        if_false]
      exact ⟨hfd, trivial⟩
  have hall : (start.memcached_connect lib qsort now s outcome).1.All
      (AllWait (now.now + start.retry_timeout.toInt) (start.servers s).addr) := by
    rw [hset]
    intro s''
    rw [setServer_servers]
    split_ifs with hs
    · exact fun _ => hserver
    · exact fun hsame => absurd (honly s'' hsame) hs
  have htimeout' : (start.memcached_connect lib qsort now s outcome).1.retry_timeout =
      start.retry_timeout := by
    rw [hset]
    rfl
  obtain ⟨hsame, hwait⟩ := h.allWait (by rw [htimeout']; exact htimeout) hretry hall
  refine ⟨(hwait s' haddr).1, fun later outcome' hbefore => ?_⟩
  exact connect_waits (by rw [hsame, htimeout']; exact htimeout) hretry hwait haddr hbefore outcome'

/-- One host, and a retry after half a minute. -/
def waiting : ConfigSt 1 := numberedHosts { ketama with retry_timeout := 30 } 1

set_option maxRecDepth 100000 in
theorem waiting_fields : (waiting.servers 0).addr = ServerAddr.add (decimal 0) 0 ∧
    (waiting.servers 0).fd = false ∧ waiting.waits 2000000 0 = false ∧ waiting.failed 0 = false ∧
    waiting.retry_timeout = 30 := by decide +kernel

/-- The host does not answer a connect in time. -/
def waitingFailed : ConfigSt 1 :=
  (waiting.memcached_connect aligned insertionQsort ⟨2000000, fun _ => 0⟩ ⟨0, Nat.zero_lt_one⟩
    .timeout).1

/-- The connections are closed, and the host is tried again too early. -/
def waitingLater : ConfigSt 1 :=
  (waitingFailed.step aligned insertionQsort .quit).step aligned insertionQsort
    (.connect ⟨2000010, fun _ => 0⟩ ⟨0, Nat.zero_lt_one⟩ .connected)

set_option maxRecDepth 100000 in
theorem waitingLater_addr : (waitingLater.servers 0).addr = (waiting.servers 0).addr := by
  decide +kernel

/-- The theorem after this run. -/
theorem a_host_that_failed_is_left_alone_until_its_retry_waiting :
    (waitingLater.servers 0).fd = false ∧
      ∀ later outcome, later.now < 2000000 + waiting.retry_timeout.toInt →
        waitingLater.memcached_connect aligned insertionQsort later 0 outcome =
          (waitingLater, SERVER_MARKED_DEAD) := by
  obtain ⟨haddr, hfd, hwaits, hfailed, hretry⟩ := waiting_fields
  have hnow : (⟨2000000, fun _ => 0⟩ : Moment).now + waiting.retry_timeout.toInt ≠ 0 := by
    rw [hretry]
    decide
  have hlater : Develops aligned insertionQsort
      (beforeRetry (2000000 + waiting.retry_timeout.toInt) (waiting.servers 0).addr)
      waitingFailed waitingLater := by
    apply Develops.step
    · apply Develops.step Develops.refl
      constructor
      · rintro ⟨⟩
      · rintro moment ⟨⟩
    · constructor
      · rintro ⟨⟩
      · rintro moment ⟨⟩
        rw [hretry]
        decide
  exact a_host_that_failed_is_left_alone_until_its_retry (by rw [haddr]; rfl)
    (fun s _ => Subsingleton.elim s 0) hfd hwaits hfailed (by rw [hretry]; decide) hnow (Or.inl rfl)
    hlater waitingLater_addr

end Libmemcached
