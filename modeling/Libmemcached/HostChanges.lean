-- Keys and changes of the hosts: hosts are added, fail, are left out and come
-- back, and a key goes to another host only where it must.
import Libmemcached.Configurations
import Libmemcached.Libhashkit
import Mathlib.Data.List.Sort

open Chunks Decimal Rings

namespace Libmemcached

variable {n n' m m' : Nat} {lib : Hashkit} {qsort qsort' : Qsort} {moment : Moment}
variable {ptr : ConfigSt n} {ptr' : ConfigSt n'}

/-! ## The points of a host without weights -/

/-- A name that leaves room for the rest of the hashed text. -/
def ServerAddr.Short (addr : ServerAddr) : Prop := addr.hostname.length ≤ 75

theorem sortHost_length (distribution : memcached_server_distribution_t) (addr : ServerAddr)
    {pointer_index digits : Nat} (hindex : pointer_index < 10 ^ (digits + 1)) :
    (sortHost distribution addr pointer_index).length ≤ addr.hostname.length + 9 + digits := by
  have hport : (decimal addr.port.toNat).length ≤ 5 :=
    decimal_length (Nat.lt_of_lt_of_le addr.port.toNat_lt (by decide))
  have hdigits := decimal_length hindex
  unfold sortHost
  split
  · simp only [List.length_append, List.length_cons]
    omega
  · split_ifs <;> simp only [List.length_append, List.length_cons] <;> omega

theorem sortHostRead_fits (beyond : Nat → UInt8) {text : Bytes}
    (h : text.length < MEMCACHED_MAX_HOST_SORT_LENGTH) : sortHostRead beyond text = text := by
  unfold sortHostRead
  rw [if_pos h]

namespace ConfigSt

/-- The points of a host without weights. -/
def pointsFor (lib : Hashkit) (ptr : ConfigSt n) (addr : ServerAddr) : List UInt32 :=
  (List.range MEMCACHED_POINTS_PER_SERVER).map fun pointer_index =>
    lib.digest ptr.distribution_hashkit (sortHost ptr.distribution addr pointer_index)

theorem pointsOf_unweighted (hweighted : ptr.flags.ketama_weighted = false) {server : ServerSt}
    (hshort : server.addr.Short) :
    ptr.pointsOf lib moment server = ptr.pointsFor lib server.addr := by
  have hvalues : ∀ key, ptr.valuesOf lib key = [lib.digest ptr.distribution_hashkit key] := by
    intro key
    unfold valuesOf
    rw [if_neg (by rw [hweighted]; decide)]
  have hhashes : ptr.hashesOf moment.now server = MEMCACHED_POINTS_PER_SERVER := by
    unfold hashesOf
    rw [if_neg (by rw [hweighted]; decide)]
  unfold pointsOf pointsFor
  rw [hhashes, List.map_eq_flatMap]
  apply List.flatMap_congr
  intro pointer_index hmem
  have hindex : pointer_index < 10 ^ (1 + 1) := List.mem_range.mp hmem
  have hlength := sortHost_length ptr.distribution server.addr hindex
  have hname : server.addr.hostname.length ≤ 75 := hshort
  rw [hvalues, sortHostRead_fits]
  exact Nat.lt_of_le_of_lt hlength (by unfold MEMCACHED_MAX_HOST_SORT_LENGTH; omega)

theorem pointsFor_ne_nil (lib : Hashkit) (ptr : ConfigSt n) (addr : ServerAddr) :
    ∃ value, value ∈ ptr.pointsFor lib addr :=
  ⟨_, List.mem_map_of_mem (List.mem_range.mpr (by decide : 0 < MEMCACHED_POINTS_PER_SERVER))⟩

end ConfigSt

theorem SameSettings.pointsFor (h : SameSettings ptr ptr') (addr : ServerAddr) :
    ptr'.pointsFor lib addr = ptr.pointsFor lib addr := by
  unfold ConfigSt.pointsFor
  rw [h.distribution, h.distribution_hashkit]

/-! ## Rings of whole hosts -/

/-- A ring on which each host has all of its points, or none. -/
structure Whole (lib : Hashkit) (ptr : ConfigSt n) : Prop extends ptr.Arranged where
  own : ∀ value addr, (value, addr) ∈ ptr.ring → value ∈ ptr.pointsFor lib addr
  all : ∀ addr, ptr.Serves addr → ∀ value ∈ ptr.pointsFor lib addr, (value, addr) ∈ ptr.ring

/-- On two such rings a key goes to one host, if that host and the other pick
have points on both. -/
theorem Whole.agree (h : Whole lib ptr) (h' : Whole lib ptr') (hsame : SameSettings ptr ptr')
    {key : Bytes} {addr addr' : ServerAddr} (haddr : ptr.hostAddr lib key = some addr)
    (haddr' : ptr'.hostAddr lib key = some addr') (hserves : ptr'.Serves addr)
    (hserves' : ptr.Serves addr') : addr' = addr ∨ ptr'.Coincide addr addr' := by
  apply h.toArranged.agree h'.toArranged hsame.toSameHashing haddr haddr'
  · intro value hmem
    have hpoint := h.own value addr hmem
    rw [← hsame.pointsFor] at hpoint
    exact h'.all addr hserves value hpoint
  · intro value hmem
    have hpoint := h'.own value addr' hmem
    rw [hsame.pointsFor] at hpoint
    exact h.all addr' hserves' value hpoint

theorem ring_eq {ptr ptr' : ConfigSt n} (hcontinuum : ptr'.continuum = ptr.continuum)
    (haddr : ∀ s, (ptr'.servers s).addr = (ptr.servers s).addr) : ptr'.ring = ptr.ring := by
  unfold ConfigSt.ring
  rw [hcontinuum]
  exact List.map_congr_left fun item _ => by rw [haddr]

/-- What stays the same leaves the ring whole. -/
theorem Whole.of_same {ptr ptr' : ConfigSt n} (h : Whole lib ptr) (hsame : SameSettings ptr ptr')
    (hcontinuum : ptr'.continuum = ptr.continuum)
    (haddr : ∀ s, (ptr'.servers s).addr = (ptr.servers s).addr) : Whole lib ptr' := by
  have hring := ring_eq hcontinuum haddr
  refine ⟨⟨?_, ?_⟩, ?_, ?_⟩
  · rw [hsame.distribution]
    exact h.consistent
  · rw [hcontinuum]
    exact h.sorted
  · intro value addr hmem
    rw [hring] at hmem
    rw [hsame.pointsFor]
    exact h.own value addr hmem
  · rintro addr ⟨value', hmem⟩ value hpoint
    rw [hring] at hmem ⊢
    rw [hsame.pointsFor] at hpoint
    exact h.all addr ⟨value', hmem⟩ value hpoint

theorem update_continuum_mem (hweighted : ptr.flags.ketama_weighted = false)
    (hshort : ∀ addr ∈ ptr.addrs, addr.Short) (hlive : ptr.live_servers moment.now ≠ 0)
    {value : UInt32} {addr : ServerAddr} :
    (value, addr) ∈ (ptr.update_continuum lib qsort moment).ring ↔
      (∃ s, ptr.gets moment.now s = true ∧ (ptr.servers s).addr = addr) ∧
        value ∈ ptr.pointsFor lib addr := by
  rw [(update_continuum_ring lib qsort hlive).mem_iff, weighted_unweighted hweighted,
    ConfigSt.mem_addrPoints]
  constructor
  · rintro ⟨s, hgets, rfl, hpoint⟩
    rw [ConfigSt.pointsOf_unweighted hweighted (hshort _ (ConfigSt.mem_addrs.mpr ⟨s, rfl⟩))]
      at hpoint
    exact ⟨⟨s, hgets, rfl⟩, hpoint⟩
  · rintro ⟨⟨s, hgets, rfl⟩, hpoint⟩
    refine ⟨s, hgets, rfl, ?_⟩
    rw [ConfigSt.pointsOf_unweighted hweighted (hshort _ (ConfigSt.mem_addrs.mpr ⟨s, rfl⟩))]
    exact hpoint

theorem update_continuum_whole (hconsistent : ptr.distribution.Consistent)
    (hweighted : ptr.flags.ketama_weighted = false)
    (hshort : ∀ addr ∈ ptr.addrs, addr.Short) (hlive : ptr.live_servers moment.now ≠ 0) :
    Whole lib (ptr.update_continuum lib qsort moment) := by
  obtain ⟨next, hupdated⟩ := update_continuum_eq lib qsort hlive
  have hpoints : ∀ addr, (ptr.update_continuum lib qsort moment).pointsFor lib addr =
      ptr.pointsFor lib addr := by
    intro addr
    rw [hupdated, weighted_unweighted hweighted]
    rfl
  refine ⟨update_continuum_arranged lib qsort hconsistent hlive, ?_, ?_⟩
  · intro value addr hmem
    rw [hpoints]
    exact ((update_continuum_mem hweighted hshort hlive).mp hmem).2
  · rintro addr ⟨value', hmem⟩ value hpoint
    rw [hpoints] at hpoint
    exact (update_continuum_mem hweighted hshort hlive).mpr
      ⟨((update_continuum_mem hweighted hshort hlive).mp hmem).1, hpoint⟩

/-! ## Steps -/

/-- What a rebuild of the ring counts on. -/
structure Listed (ptr : ConfigSt n) : Prop where
  consistent : ptr.distribution.Consistent
  unweighted : ptr.flags.ketama_weighted = false
  proper : ptr.Proper
  short : ∀ addr ∈ ptr.addrs, addr.Short

/-- A handle with a ring of whole hosts, which keep their places. -/
structure Placed (lib : Hashkit) (ptr : ConfigSt n) : Prop where
  whole : Whole lib ptr
  listed : Listed ptr
  inOrder : ptr.flags.use_sort_hosts = true → ptr.InOrder

theorem Listed.of_same {ptr ptr' : ConfigSt n} (h : Listed ptr) (hsame : SameSettings ptr ptr')
    (haddrs : ptr'.addrs.Perm ptr.addrs) : Listed ptr' where
  consistent := by
    rw [hsame.distribution]
    exact h.consistent
  unweighted := hsame.ketama_weighted.trans h.unweighted
  proper addr hmem := h.proper addr (haddrs.mem_iff.mp hmem)
  short addr hmem := h.short addr (haddrs.mem_iff.mp hmem)

theorem prepared_perm (qsort : Qsort) (ptr : ConfigSt n) :
    (ptr.prepared qsort).addrs.Perm ptr.addrs := by
  obtain ⟨servers, hprepared, hperm⟩ := prepared_fields qsort ptr
  rw [hprepared]
  exact hperm.map _

theorem prepared_settings (qsort : Qsort) (ptr : ConfigSt n) :
    SameSettings ptr (ptr.prepared qsort) := by
  obtain ⟨servers, hprepared, -⟩ := prepared_fields qsort ptr
  rw [hprepared]
  exact ⟨⟨rfl, rfl⟩, rfl, rfl, rfl⟩

/-- A distribution makes the ring anew, or it leaves it where no host gets
points. -/
theorem Listed.run_distribution {ptr : ConfigSt n} (h : Listed ptr)
    (hidle : ptr.live_servers moment.now = 0 →
      Whole lib ptr ∧ (ptr.flags.use_sort_hosts = true → ptr.InOrder)) :
    Placed lib (ptr.run_distribution lib qsort moment) := by
  have hdone := run_distribution_redistributed lib qsort moment ptr
  have hlisted := h.of_same hdone.settings hdone.addrs
  refine ⟨?_, hlisted, fun hsort => hdone.inOrder ?_⟩
  · by_cases hlive : ptr.live_servers moment.now = 0
    · obtain ⟨hwhole, hinOrder⟩ := hidle hlive
      have hprepared_live : (ptr.prepared qsort).live_servers moment.now = 0 := by
        rw [prepared_live]
        exact hlive
      obtain ⟨next, hupdated⟩ := update_continuum_idle lib qsort
        hprepared_live
      apply hwhole.of_same hdone.settings
      · obtain ⟨servers, hprepared, -⟩ := prepared_fields qsort ptr
        rw [run_distribution_eq h.consistent, hupdated, hprepared]
      · exact hdone.kept h.proper hinOrder
    · have hprepared := h.of_same (prepared_settings qsort ptr) (prepared_perm qsort ptr)
      rw [run_distribution_eq h.consistent]
      apply update_continuum_whole hprepared.consistent hprepared.unweighted hprepared.short
      rw [prepared_live]
      exact hlive
  · rw [← hdone.flags]
    exact hsort

theorem Keeps.addrs {sets : Option memcached_behavior_t} {ptr ptr' : ConfigSt n}
    (h : Keeps sets ptr ptr') : ptr'.addrs = ptr.addrs := by
  unfold ConfigSt.addrs ConfigSt.list
  rw [List.map_ofFn, List.map_ofFn]
  congr 1
  funext s
  exact h.addr s

theorem inOrder_of_addr {ptr ptr' : ConfigSt n} (h : ptr.InOrder)
    (haddrs : ptr'.addrs = ptr.addrs) : ptr'.InOrder := by
  rw [inOrder_iff] at h ⊢
  rw [haddrs]
  exact h

/-- Steps that leave the behaviors on which the place of a key depends, and
hosts with short names. The hosts are not sorted for the first time while all
of them wait for a retry. -/
def steady : Rules where
  host := ServerAddr.Short
  clock := PastRetry
  event ptr event :=
    (∀ flag ∈ placing, event.sets ≠ some flag) ∧
      (event.sets = some .SORT_HOSTS → ∀ moment, event.moment = some moment →
        ptr.live_servers moment.now ≠ 0)
  clone := True

theorem Placed.step {ptr : ConfigSt n} (h : Placed lib ptr) {event : HandleEvent n}
    (hevent : steady.event ptr event) :
    Placed lib (ptr.step lib qsort event) ∧ SameSettings ptr (ptr.step lib qsort event) := by
  obtain ⟨hplacing, hsorting⟩ := hevent
  rcases stepsTo_step lib qsort ptr event with
    ⟨hkeeps, hsort⟩ | ⟨moment, between, hmoment, hkeeps, hlive, hrun⟩
  · have hsame := hkeeps.settings hplacing
    have haddrs := hkeeps.addrs
    refine ⟨⟨h.whole.of_same hsame hkeeps.continuum hkeeps.addr,
      h.listed.of_same hsame (by rw [haddrs]), ?_⟩, hsame⟩
    intro hsorted
    rw [hsort] at hsorted
    exact inOrder_of_addr (h.inOrder hsorted) haddrs
  · have hsame := hkeeps.settings hplacing
    have hlisted := h.listed.of_same hsame (by rw [hkeeps.addrs])
    rw [hrun]
    refine ⟨hlisted.run_distribution ?_,
      hsame.trans (run_distribution_redistributed lib qsort moment between).settings⟩
    intro hidle
    refine ⟨h.whole.of_same hsame hkeeps.continuum hkeeps.addr, fun hsorted => ?_⟩
    by_cases hsets : event.sets = some .SORT_HOSTS
    · rw [hlive hsets] at hidle
      exact absurd hidle (hsorting hsets moment hmoment)
    · rw [hkeeps.use_sort_hosts hsets] at hsorted
      exact inOrder_of_addr (h.inOrder hsorted) hkeeps.addrs

/-! ## New hosts -/

theorem grown_addrs (ptr : ConfigSt n) (addr : ServerAddr) (weight : UInt32) :
    (ptr.grown addr weight).addrs = ptr.addrs ++ [addr] := by
  unfold ConfigSt.addrs ConfigSt.list ConfigSt.grown
  rw [List.ofFn_succ', List.concat_eq_append, List.map_append]
  simp only [Fin.snoc_castSucc, Fin.snoc_last, List.map_cons, List.map_nil]

theorem grown_settings (ptr : ConfigSt n) (addr : ServerAddr) (weight : UInt32) :
    SameSettings ptr (ptr.grown addr weight) := ⟨⟨rfl, rfl⟩, rfl, rfl, rfl⟩

/-- A host whose retry is over gets points. -/
theorem live_ne_zero {s : Fin n} (h : (ptr.servers s).next_retry ≤ moment.now) :
    ptr.live_servers moment.now ≠ 0 := by
  apply Nat.ne_of_gt
  apply List.countP_pos_iff.mpr
  refine ⟨s, List.mem_finRange s, ?_⟩
  unfold ConfigSt.gets
  rw [Bool.or_eq_true, decide_eq_true_eq]
  exact Or.inr h

theorem grown_live {addr : ServerAddr} {weight : UInt32}
    (hclock : ptr.retry_timeout.toInt ≤ moment.now) :
    (ptr.grown addr weight).live_servers moment.now ≠ 0 := by
  apply live_ne_zero (s := Fin.last n)
  unfold ConfigSt.grown
  dsimp only
  rw [Fin.snoc_last]
  exact hclock

theorem Listed.grown (h : Listed ptr) {addr : ServerAddr} (weight : UInt32)
    (hproper : addr.Proper) (hshort : addr.Short) : Listed (ptr.grown addr weight) where
  consistent := h.consistent
  unweighted := h.unweighted
  proper a hmem := by
    rw [grown_addrs, List.mem_append, List.mem_singleton] at hmem
    rcases hmem with hmem | rfl
    · exact h.proper a hmem
    · exact hproper
  short a hmem := by
    rw [grown_addrs, List.mem_append, List.mem_singleton] at hmem
    rcases hmem with hmem | rfl
    · exact h.short a hmem
    · exact hshort

/-- A handle without hosts. -/
theorem placed_empty (lib : Hashkit) {ptr : ConfigSt 0} (hconsistent : ptr.distribution.Consistent)
    (hweighted : ptr.flags.ketama_weighted = false) : Placed lib ptr := by
  have hnil : ptr.continuum = [] :=
    List.eq_nil_iff_forall_not_mem.mpr fun item _ => item.index.elim0
  have hring : ptr.ring = [] := by
    unfold ConfigSt.ring
    rw [hnil]
    rfl
  have haddrs : ptr.addrs = [] := rfl
  refine ⟨⟨⟨hconsistent, ?_⟩, ?_, ?_⟩, ⟨hconsistent, hweighted, ?_, ?_⟩, fun _ => ?_⟩
  · rw [hnil]
    exact List.Pairwise.nil
  · intro value addr hmem
    rw [hring] at hmem
    cases hmem
  · rintro addr ⟨value, hmem⟩
    rw [hring] at hmem
    cases hmem
  · intro addr hmem
    rw [haddrs] at hmem
    cases hmem
  · intro addr hmem
    rw [haddrs] at hmem
    cases hmem
  · exact List.Pairwise.nil

theorem copied_settings (ptr : ConfigSt n) : SameSettings ptr ptr.copied :=
  ⟨⟨rfl, rfl⟩, rfl, rfl, rfl⟩

theorem copied_addrs (ptr : ConfigSt n) : ptr.copied.addrs = ptr.addrs := by
  unfold ConfigSt.addrs ConfigSt.list ConfigSt.copied
  rw [List.map_ofFn, List.map_ofFn]
  rfl

theorem Listed.memcached_clone {pushed : Moment} (h : Listed ptr)
    (hclock : ptr.retry_timeout.toInt ≤ pushed.now) :
    Placed lib (ptr.memcached_clone lib qsort pushed moment) ∧
      SameSettings ptr (ptr.memcached_clone lib qsort pushed moment) := by
  have hcopied := h.of_same (copied_settings ptr) (by rw [copied_addrs])
  unfold ConfigSt.memcached_clone
  dsimp only
  split_ifs with hn
  · subst hn
    exact ⟨hcopied.run_distribution fun _ =>
        have hempty := placed_empty lib hcopied.consistent hcopied.unweighted
        ⟨hempty.whole, hempty.inOrder⟩,
      (copied_settings ptr).trans (run_distribution_redistributed lib qsort moment _).settings⟩
  · have hfirst : Placed lib (ptr.copied.run_distribution lib qsort pushed) := by
      apply hcopied.run_distribution
      intro hidle
      exact absurd hidle (live_ne_zero (s := ⟨0, Nat.pos_of_ne_zero hn⟩) hclock)
    exact ⟨hfirst.listed.run_distribution fun _ => ⟨hfirst.whole, hfirst.inOrder⟩,
      ((copied_settings ptr).trans (run_distribution_redistributed lib qsort pushed _).settings).trans
        (run_distribution_redistributed lib qsort moment _).settings⟩

/-! ## Sample handles -/

/-- `qsort` as an insertion sort. -/
def insertionQsort : Qsort where
  run le := List.insertionSort fun a b => le a b = true
  perm le l := List.perm_insertionSort _ l
  sorted le l htotal htrans := by
    have : Std.Total fun a b => le a b = true := ⟨fun a b => by
      rw [← Bool.or_eq_true]
      exact htotal a b⟩
    have : IsTrans _ fun a b => le a b = true := ⟨htrans⟩
    exact List.pairwise_insertionSort _ l

/-- The hash functions of keys at an address that is a multiple of four. -/
def aligned : Hashkit := libhashkit false ⟨0, fun _ => 0, fun _ => 0⟩

def noon : Moment := ⟨1000000, fun _ => 0⟩

def ketama : ConfigSt 0 := { ConfigSt.memcached_create with distribution := .CONSISTENT }

/-- The hosts with the numbers below `n`, on the default port. -/
def numberedHosts (ptr : ConfigSt 0) : (n : Nat) → ConfigSt n
  | 0 => ptr
  | n + 1 =>
    (numberedHosts ptr n).server_add aligned insertionQsort noon (ServerAddr.add (decimal n) 0) 0

theorem server_add_fields (lib : Hashkit) (qsort : Qsort) (moment : Moment) (ptr : ConfigSt n)
    (addr : ServerAddr) (weight : UInt32) :
    (ptr.server_add lib qsort moment addr weight).flags = ptr.flags ∧
      (ptr.server_add lib qsort moment addr weight).retry_timeout = ptr.retry_timeout ∧
      SameSettings ptr (ptr.server_add lib qsort moment addr weight) := by
  obtain ⟨servers, next, room, count, continuum, hfields⟩ :=
    (run_distribution_redistributed lib qsort moment (ptr.grown addr weight)).fields
  unfold ConfigSt.server_add
  rw [hfields]
  exact ⟨rfl, rfl, ⟨⟨rfl, rfl⟩, rfl, rfl, rfl⟩⟩

theorem numberedHosts_fields (ptr : ConfigSt 0) (n : Nat) :
    (numberedHosts ptr n).flags = ptr.flags ∧
      (numberedHosts ptr n).retry_timeout = ptr.retry_timeout ∧
      SameSettings ptr (numberedHosts ptr n) := by
  induction n with
  | zero => exact ⟨rfl, rfl, SameSettings.refl ptr⟩
  | succ n ih =>
    obtain ⟨hflags, hretry, hsame⟩ := server_add_fields aligned insertionQsort noon
      (numberedHosts ptr n) (ServerAddr.add (decimal n) 0) 0
    exact ⟨hflags.trans ih.1, hretry.trans ih.2.1, ih.2.2.trans hsame⟩

theorem numberedHosts_develops {rules : Rules} {start : ConfigSt m} {ptr : ConfigSt 0}
    (h : Develops aligned insertionQsort rules start ptr) (hudp : ptr.flags.use_udp = false)
    (hclock : ∀ {k : Nat} (p : ConfigSt k), p.retry_timeout = ptr.retry_timeout →
      rules.clock p noon) (n : Nat)
    (hhost : ∀ k < n, rules.host (ServerAddr.add (decimal k) 0)) :
    Develops aligned insertionQsort rules start (numberedHosts ptr n) := by
  induction n with
  | zero => exact h
  | succ n ih =>
    obtain ⟨hflags, hretry, -⟩ := numberedHosts_fields ptr n
    apply Develops.server_add 0 (ih fun k hk => hhost k (Nat.lt_succ_of_lt hk))
    · rw [hflags]
      exact hudp
    · exact ServerAddr.add_proper _ _
    · exact hhost n (Nat.lt_succ_self n)
    · exact hclock _ hretry

theorem pastRetry_noon {ptr : ConfigSt m} (h : ptr.retry_timeout = 0) {k : Nat} (p : ConfigSt k)
    (hp : p.retry_timeout = ptr.retry_timeout) : PastRetry p noon := by
  unfold PastRetry
  rw [hp, h]
  decide

theorem numberedHosts_short {n : Nat} (hn : n ≤ 100) :
    ∀ k < n, (ServerAddr.add (decimal k) 0).Short := by
  intro k hk
  have hlength : (decimal k).length ≤ 1 + 1 :=
    decimal_length (Nat.lt_of_lt_of_le hk (Nat.le_trans hn (by decide)))
  exact Nat.le_trans hlength (by decide)

theorem numberedHosts_steady {n : Nat} (hn : n ≤ 100) :
    Develops aligned insertionQsort steady ketama (numberedHosts ketama n) :=
  numberedHosts_develops Develops.refl rfl (pastRetry_noon rfl) n (numberedHosts_short hn)

set_option maxRecDepth 100000 in
theorem numberedHosts_one : (numberedHosts ketama 1).hostAddr aligned (ascii ['a']) =
    some (ServerAddr.add (decimal 0) 0) := by decide +kernel

set_option maxRecDepth 100000 in
theorem numberedHosts_three : (numberedHosts ketama 3).hostAddr aligned (ascii ['a']) =
    some (ServerAddr.add (decimal 1) 0) := by decide +kernel

set_option maxRecDepth 100000 in
theorem numberedHosts_two : (numberedHosts ketama 2).hostAddr aligned (ascii ['a']) =
    some (ServerAddr.add (decimal 1) 0) := by decide +kernel

/-! ## Runs -/

theorem Develops.placed {start : ConfigSt m} (h : Develops lib qsort steady start ptr)
    (hstart : Placed lib start) : Placed lib ptr ∧ SameSettings start ptr := by
  induction h with
  | refl => exact ⟨hstart, SameSettings.refl start⟩
  | @server_add _ ptr moment addr weight _ _ hproper hshort hclock ih =>
    obtain ⟨hplaced, hsame⟩ := ih
    have hgrown := hplaced.listed.grown weight hproper hshort
    refine ⟨hgrown.run_distribution fun hidle => absurd hidle (grown_live hclock), ?_⟩
    exact (hsame.trans (grown_settings ptr addr weight)).trans
      (run_distribution_redistributed lib qsort moment _).settings
  | step _ hevent ih =>
    obtain ⟨hplaced, hsame⟩ := ih
    obtain ⟨hplaced', hsame'⟩ := hplaced.step hevent
    exact ⟨hplaced', hsame.trans hsame'⟩
  | memcached_clone _ _ hclock ih =>
    obtain ⟨hplaced, hsame⟩ := ih
    obtain ⟨hplaced', hsame'⟩ := hplaced.listed.memcached_clone hclock
    exact ⟨hplaced', hsame.trans hsame'⟩

/-- Two programs that place keys alike send a key to the same host, whatever
hosts were added, failed, were left out or came back, unless one of them has no
points for the host of the other, or two points are at the same place. -/
theorem a_key_stays_with_its_host {start : ConfigSt 0}
    {start' : ConfigSt 0} (hconsistent : start.distribution.Consistent)
    (hunweighted : start.flags.ketama_weighted = false) (hsame : SameSettings start start')
    (h : Develops lib qsort steady start ptr) (h' : Develops lib qsort' steady start' ptr')
    {key : Bytes} {addr addr' : ServerAddr} (haddr : ptr.hostAddr lib key = some addr)
    (haddr' : ptr'.hostAddr lib key = some addr') :
    addr' = addr ∨ ¬ ptr'.Serves addr ∨ ¬ ptr.Serves addr' ∨ ptr'.Coincide addr addr' := by
  have hconsistent' : start'.distribution.Consistent := by
    rw [hsame.distribution]
    exact hconsistent
  obtain ⟨hplaced, hsettings⟩ := h.placed (placed_empty lib hconsistent hunweighted)
  obtain ⟨hplaced', hsettings'⟩ := h'.placed
    (placed_empty lib hconsistent' (hsame.ketama_weighted.trans hunweighted))
  have hboth := hsettings.symm.trans (hsame.trans hsettings')
  by_cases hserves : ptr'.Serves addr
  · by_cases hserves' : ptr.Serves addr'
    · rcases hplaced.whole.agree hplaced'.whole hboth haddr haddr' hserves hserves' with heq | hpoint
      · exact Or.inl heq
      · exact Or.inr (Or.inr (Or.inr hpoint))
    · exact Or.inr (Or.inr (Or.inl hserves'))
  · exact Or.inr (Or.inl hserves)

/-- The theorem at two handles that both have points for the host. -/
theorem a_key_stays_with_its_host_numbered :
    ServerAddr.add (decimal 1) 0 = ServerAddr.add (decimal 1) 0 ∨
      ¬ (numberedHosts ketama 3).Serves (ServerAddr.add (decimal 1) 0) ∨
        ¬ (numberedHosts ketama 2).Serves (ServerAddr.add (decimal 1) 0) ∨
          (numberedHosts ketama 3).Coincide (ServerAddr.add (decimal 1) 0)
            (ServerAddr.add (decimal 1) 0) :=
  a_key_stays_with_its_host (show ketama.distribution.Consistent from trivial) rfl
    (SameSettings.refl ketama)
    (numberedHosts_steady (by decide)) (numberedHosts_steady (by decide)) numberedHosts_two
    numberedHosts_three

/-! ## Handles that leave no host out -/

/-- Without ejection all hosts get points. -/
theorem live_all (h : ptr.flags.auto_eject_hosts = false) (now : Int) :
    ptr.live_servers now = n := by
  have hgets : ∀ s, ptr.gets now s = true := by
    intro s
    unfold ConfigSt.gets
    rw [h]
    rfl
  unfold ConfigSt.live_servers
  rw [List.countP_eq_length.mpr fun s _ => hgets s, List.length_finRange]

/-- Every host has points. -/
structure AllServe (ptr : ConfigSt n) : Prop where
  noEject : ptr.flags.auto_eject_hosts = false
  serves : ∀ addr ∈ ptr.addrs, ptr.Serves addr

/-- A host that gets points has some after a distribution. -/
theorem Listed.serves {ptr : ConfigSt n} (h : Listed ptr) {s : Fin n}
    (hgets : ptr.gets moment.now s = true) :
    (ptr.run_distribution lib qsort moment).Serves (ptr.servers s).addr := by
  have hprepared := h.of_same (prepared_settings qsort ptr) (prepared_perm qsort ptr)
  obtain ⟨servers, hfields, hperm⟩ := prepared_fields qsort ptr
  -- the host may have another place when the hosts are sorted
  obtain ⟨s', hs'⟩ : ∃ s', (ptr.prepared qsort).servers s' = ptr.servers s := by
    have hmem : ptr.servers s ∈ List.ofFn servers :=
      hperm.mem_iff.mpr (ConfigSt.mem_list.mpr ⟨s, rfl⟩)
    obtain ⟨s', hs'⟩ := List.mem_ofFn.mp hmem
    refine ⟨s', ?_⟩
    rw [hfields]
    exact hs'
  have hgets' : (ptr.prepared qsort).gets moment.now s' = true := by
    unfold ConfigSt.gets at hgets ⊢
    rw [hs', hfields]
    exact hgets
  have hlive : (ptr.prepared qsort).live_servers moment.now ≠ 0 :=
    Nat.ne_of_gt (List.countP_pos_iff.mpr ⟨s', List.mem_finRange s', hgets'⟩)
  obtain ⟨value, hvalue⟩ := (ptr.prepared qsort).pointsFor_ne_nil lib (ptr.servers s).addr
  rw [run_distribution_eq h.consistent]
  exact ⟨value, (update_continuum_mem hprepared.unweighted hprepared.short hlive).mpr
    ⟨⟨s', hgets', by rw [hs']⟩, hvalue⟩⟩

theorem Listed.allServe {ptr : ConfigSt n} (h : Listed ptr)
    (hnoEject : ptr.flags.auto_eject_hosts = false) :
    AllServe (ptr.run_distribution lib qsort moment) := by
  have hdone := run_distribution_redistributed lib qsort moment ptr
  refine ⟨by rw [hdone.flags]; exact hnoEject, fun addr hmem => ?_⟩
  obtain ⟨s, rfl⟩ := ConfigSt.mem_addrs.mp (hdone.addrs.mem_iff.mp hmem)
  apply h.serves
  unfold ConfigSt.gets
  rw [hnoEject]
  rfl

theorem AllServe.of_keeps {sets : Option memcached_behavior_t} {ptr ptr' : ConfigSt n}
    (h : AllServe ptr) (hkeeps : Keeps sets ptr ptr') (heject : sets ≠ some .AUTO_EJECT_HOSTS) :
    AllServe ptr' where
  noEject := (hkeeps.auto_eject_hosts heject).trans h.noEject
  serves addr hmem := by
    rw [hkeeps.addrs] at hmem
    unfold ConfigSt.Serves
    rw [ring_eq hkeeps.continuum hkeeps.addr]
    exact h.serves addr hmem

/-- Steps that leave where keys go, and never leave hosts out. -/
def steadyAll : Rules where
  host := steady.host
  clock := PastRetry
  event ptr event := steady.event ptr event ∧ event.sets ≠ some .AUTO_EJECT_HOSTS
  clone := True

theorem Develops.toSteady {start : ConfigSt m} (h : Develops lib qsort steadyAll start ptr) :
    Develops lib qsort steady start ptr := by
  apply h.weaken
  · exact fun _ hhost => hhost
  · exact fun _ _ hclock => hclock
  · intro _ ptr event hevent
    exact And.left (a := steady.event ptr event) hevent
  · exact fun hclone => hclone

theorem memcached_clone_addrs (lib : Hashkit) (qsort : Qsort) (pushed moment : Moment)
    (ptr : ConfigSt n) : (ptr.memcached_clone lib qsort pushed moment).addrs.Perm ptr.addrs := by
  unfold ConfigSt.memcached_clone
  dsimp only
  rw [← copied_addrs ptr]
  split_ifs
  · exact (run_distribution_redistributed lib qsort moment _).addrs
  · exact (run_distribution_redistributed lib qsort moment _).addrs.trans
      (run_distribution_redistributed lib qsort pushed _).addrs

/-- Hosts are never taken from a list. -/
theorem Develops.addrs {rules : Rules} {start : ConfigSt m}
    (h : Develops lib qsort rules start ptr) {addr : ServerAddr} (hmem : addr ∈ start.addrs) :
    addr ∈ ptr.addrs := by
  induction h with
  | refl => exact hmem
  | server_add _ _ _ _ _ _ ih =>
    unfold ConfigSt.server_add
    rw [(run_distribution_redistributed lib qsort _ _).addrs.mem_iff, grown_addrs]
    exact List.mem_append_left _ ih
  | @step _ ptr event _ _ ih =>
    rcases stepsTo_step lib qsort ptr event with
      ⟨hkeeps, -⟩ | ⟨moment, between, -, hkeeps, -, hrun⟩
    · rw [hkeeps.addrs]
      exact ih
    · rw [hrun, (run_distribution_redistributed lib qsort moment between).addrs.mem_iff,
        hkeeps.addrs]
      exact ih
  | memcached_clone _ _ _ ih => exact (memcached_clone_addrs lib qsort _ _ _).mem_iff.mpr ih

/-- All hosts that a handle had keep points, beside those it gets. -/
theorem Develops.allServe {start : ConfigSt m} (h : Develops lib qsort steadyAll start ptr)
    (hstart : Placed lib start) (hall : AllServe start) : AllServe ptr := by
  induction h with
  | refl => exact hall
  | server_add weight hbefore _ hproper hshort _ ih =>
    obtain ⟨hplaced, -⟩ := hbefore.toSteady.placed hstart
    exact (hplaced.listed.grown weight hproper hshort).allServe ih.noEject
  | @step _ ptr event hbefore hevent ih =>
    obtain ⟨hplaced, -⟩ := hbefore.toSteady.placed hstart
    rcases stepsTo_step lib qsort ptr event with
      ⟨hkeeps, -⟩ | ⟨moment, between, -, hkeeps, -, hrun⟩
    · exact ih.of_keeps hkeeps hevent.2
    · have hlisted := hplaced.listed.of_same (hkeeps.settings hevent.1.1) (by rw [hkeeps.addrs])
      rw [hrun]
      exact hlisted.allServe (ih.of_keeps hkeeps hevent.2).noEject
  | @memcached_clone _ ptr pushed moment hbefore _ _ ih =>
    obtain ⟨hplaced, -⟩ := hbefore.toSteady.placed hstart
    have hcopied := hplaced.listed.of_same (copied_settings ptr) (by rw [copied_addrs])
    have hpushed := run_distribution_redistributed lib qsort pushed ptr.copied
    unfold ConfigSt.memcached_clone
    dsimp only
    split_ifs
    · exact hcopied.allServe ih.noEject
    · apply (hcopied.of_same hpushed.settings hpushed.addrs).allServe
      rw [hpushed.flags]
      exact ih.noEject

/-- While no host is ever left out, a key leaves its host only for one that was
added. -/
theorem new_hosts_take_keys_for_themselves {start : ConfigSt 0}
    (hconsistent : start.distribution.Consistent)
    (hunweighted : start.flags.ketama_weighted = false)
    (hnoEject : start.flags.auto_eject_hosts = false)
    (h : Develops lib qsort steadyAll start ptr) (h' : Develops lib qsort steadyAll ptr ptr')
    {key : Bytes} {addr addr' : ServerAddr} (haddr : ptr.hostAddr lib key = some addr)
    (haddr' : ptr'.hostAddr lib key = some addr') :
    addr' = addr ∨ addr' ∉ ptr.addrs ∨ ptr'.Coincide addr addr' := by
  have hempty := placed_empty lib hconsistent hunweighted
  have hnone : AllServe start := ⟨hnoEject, fun addr hmem => by cases hmem⟩
  obtain ⟨hplaced, -⟩ := h.toSteady.placed hempty
  have hserve := h.allServe hempty hnone
  obtain ⟨hplaced', hsame⟩ := h'.toSteady.placed hplaced
  have hserve' := h'.allServe hplaced hserve
  by_cases hold : addr' ∈ ptr.addrs
  · have hown : addr ∈ ptr.addrs := by
      obtain ⟨value, hvalue⟩ := hplaced.whole.toArranged.serves haddr
      obtain ⟨item, -, hitem⟩ := List.mem_map.mp hvalue
      cases hitem
      exact ConfigSt.mem_addrs.mpr ⟨item.index, rfl⟩
    rcases hplaced.whole.agree hplaced'.whole hsame haddr haddr' (hserve'.serves _ (h'.addrs hown))
      (hserve.serves _ hold) with heq | hpoint
    · exact Or.inl heq
    · exact Or.inr (Or.inr hpoint)
  · exact Or.inr (Or.inl hold)

theorem new_hosts_take_keys_for_themselves_numbered :
    ServerAddr.add (decimal 1) 0 = ServerAddr.add (decimal 0) 0 ∨
      ServerAddr.add (decimal 1) 0 ∉ (numberedHosts ketama 1).addrs ∨
        (numberedHosts ketama 2).Coincide (ServerAddr.add (decimal 0) 0)
          (ServerAddr.add (decimal 1) 0) :=
  new_hosts_take_keys_for_themselves (show ketama.distribution.Consistent from trivial) rfl rfl
    (numberedHosts_develops Develops.refl rfl (pastRetry_noon rfl) 1
      (numberedHosts_short (by decide)))
    (Develops.server_add 0 Develops.refl (by rw [(numberedHosts_fields ketama 1).1]; rfl)
      (ServerAddr.add_proper _ _) (numberedHosts_short (n := 2) (by decide) 1 (by decide))
      (pastRetry_noon (show ketama.retry_timeout = 0 from rfl) _ (numberedHosts_fields ketama 1).2.1))
    numberedHosts_one numberedHosts_two

end Libmemcached
