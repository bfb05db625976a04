-- Two programs with the same hosts send a key to the same one, whatever the
-- order in which the hosts were added.
import Libmemcached.ContinuumRoom

open Chunks Decimal

namespace Libmemcached

variable {n n' m m' : Nat} {lib : Hashkit} {qsort qsort' : Qsort} {moment : Moment}
variable {ptr : ConfigSt n} {ptr' : ConfigSt n'}

/-! ## Hosts and their points -/

namespace ConfigSt

/-- The hosts with their weights. -/
def hosts (ptr : ConfigSt n) : List (ServerAddr × UInt32) :=
  ptr.list.map fun server => (server.addr, server.weight)

/-- How many texts are hashed for a weight, when all hosts get points. -/
def hashesBy (ptr : ConfigSt n) (weight : UInt32) : Nat :=
  if ptr.flags.ketama_weighted then
    weightedHashes weight (ptr.hosts.map fun host => host.2.toNat).sum ptr.hosts.length
  else MEMCACHED_POINTS_PER_SERVER

def pointsBy (lib : Hashkit) (ptr : ConfigSt n) (addr : ServerAddr) (weight : UInt32) :
    List UInt32 :=
  (List.range (ptr.hashesBy weight)).flatMap fun pointer_index =>
    ptr.valuesOf lib (sortHost ptr.distribution addr pointer_index)

theorem mem_hosts {addr : ServerAddr} {weight : UInt32} : (addr, weight) ∈ ptr.hosts ↔
    ∃ s, (ptr.servers s).addr = addr ∧ (ptr.servers s).weight = weight := by
  unfold hosts
  simp only [List.mem_map, mem_list, Prod.mk.injEq]
  constructor
  · rintro ⟨_, ⟨s, rfl⟩, haddr, hweight⟩
    exact ⟨s, haddr, hweight⟩
  · rintro ⟨s, haddr, hweight⟩
    exact ⟨_, ⟨s, rfl⟩, haddr, hweight⟩

theorem hosts_length (ptr : ConfigSt n) : ptr.hosts.length = n := by
  unfold hosts list
  rw [List.length_map, List.length_ofFn]

theorem total_weight_all (hnoEject : ptr.flags.auto_eject_hosts = false) (now : Int) :
    ptr.total_weight now = (ptr.hosts.map fun host => host.2.toNat).sum := by
  have hgets : ∀ s, ptr.gets now s = true := by
    intro s
    unfold gets
    rw [hnoEject]
    rfl
  unfold total_weight hosts list
  rw [List.filter_eq_self.mpr fun s _ => hgets s, List.ofFn_eq_map, List.map_map, List.map_map]
  rfl

theorem hashesOf_all (hnoEject : ptr.flags.auto_eject_hosts = false) (now : Int)
    (server : ServerSt) : ptr.hashesOf now server = ptr.hashesBy server.weight := by
  unfold hashesOf hashesBy
  rw [total_weight_all hnoEject, live_all hnoEject, hosts_length]

/-- One host has no more hashes than all together. -/
theorem hashesBy_lt (hfew : n ≤ 50000) (hweighed : ptr.Weighed) (s : Fin n) :
    ptr.hashesBy (ptr.servers s).weight < 10 ^ 7 := by
  unfold hashesBy
  cases hweighted : ptr.flags.ketama_weighted with
  | false =>
    rw [if_neg (by decide)]
    decide
  | true =>
    rw [if_pos rfl]
    have hmem : (ptr.servers s).weight ∈ ptr.hosts.map (·.2) :=
      List.mem_map_of_mem (mem_hosts.mpr ⟨s, rfl, rfl⟩)
    have hlength : (ptr.hosts.map (·.2)).length = ptr.hosts.length := List.length_map _
    have htotal : ((ptr.hosts.map (·.2)).map UInt32.toNat).sum =
        (ptr.hosts.map fun host => host.2.toNat).sum := by
      rw [List.map_map]
      rfl
    have hpos : 0 < (ptr.hosts.map fun host => host.2.toNat).sum := by
      have hone : 0 < (ptr.servers s).weight.toNat :=
        Nat.pos_of_ne_zero fun hzero => hweighed hweighted s (UInt32.toNat_inj.mp hzero)
      rw [← htotal]
      exact Nat.lt_of_lt_of_le hone (List.le_sum_of_mem (List.mem_map_of_mem hmem))
    have hsum := sum_weightedHashes_le (ptr.hosts.map (·.2)) hpos htotal
      (by rw [hlength, hosts_length]; exact hfew)
    have hle := List.le_sum_of_mem (List.mem_map_of_mem (f := fun weight => weightedHashes weight
      (ptr.hosts.map fun host => host.2.toNat).sum (ptr.hosts.map (·.2)).length) hmem)
    rw [hlength, hosts_length] at hsum hle
    rw [hosts_length]
    omega

end ConfigSt

/-- A name that leaves room for any number behind it. -/
def ServerAddr.Brief (addr : ServerAddr) : Prop := addr.hostname.length ≤ 70

theorem pointsOf_all (hnoEject : ptr.flags.auto_eject_hosts = false) (hfew : n ≤ 50000)
    (hweighed : ptr.Weighed) {s : Fin n} (hbrief : (ptr.servers s).addr.Brief) :
    ptr.pointsOf lib moment (ptr.servers s) =
      ptr.pointsBy lib (ptr.servers s).addr (ptr.servers s).weight := by
  unfold ConfigSt.pointsOf ConfigSt.pointsBy
  rw [ConfigSt.hashesOf_all hnoEject]
  apply List.flatMap_congr
  intro pointer_index hmem
  have hindex : pointer_index < 10 ^ (6 + 1) :=
    Nat.lt_trans (List.mem_range.mp hmem) (ConfigSt.hashesBy_lt hfew hweighed s)
  have hlength := sortHost_length ptr.distribution (ptr.servers s).addr hindex
  have hname : (ptr.servers s).addr.hostname.length ≤ 70 := hbrief
  rw [sortHostRead_fits]
  exact Nat.lt_of_le_of_lt hlength (by unfold MEMCACHED_MAX_HOST_SORT_LENGTH; omega)

/-- The points depend on the hosts, not on their order. -/
theorem SameSettings.pointsBy (lib : Hashkit) (h : SameSettings ptr ptr') (hhosts : ptr'.hosts.Perm ptr.hosts)
    (addr : ServerAddr) (weight : UInt32) :
    ptr'.pointsBy lib addr weight = ptr.pointsBy lib addr weight := by
  have hhashes : ptr'.hashesBy weight = ptr.hashesBy weight := by
    unfold ConfigSt.hashesBy
    rw [h.ketama_weighted, (hhosts.map _).sum_eq, hhosts.length_eq]
  have hvalues : ptr'.valuesOf lib = ptr.valuesOf lib := by
    unfold ConfigSt.valuesOf
    rw [h.ketama_weighted, h.distribution_hashkit]
  unfold ConfigSt.pointsBy
  rw [hhashes, hvalues, h.distribution]

/-- A ring with the points of all hosts, by their weights. -/
structure Spread (lib : Hashkit) (ptr : ConfigSt n) : Prop where
  arranged : ptr.Arranged
  noEject : ptr.flags.auto_eject_hosts = false
  brief : ∀ addr ∈ ptr.addrs, addr.Brief
  mem : ∀ value addr, (value, addr) ∈ ptr.ring ↔
    ∃ weight, (addr, weight) ∈ ptr.hosts ∧ value ∈ ptr.pointsBy lib addr weight

theorem Spread.agree (h : Spread lib ptr) (h' : Spread lib ptr') (hsame : SameSettings ptr ptr')
    (hhosts : ptr'.hosts.Perm ptr.hosts) {key : Bytes} {addr addr' : ServerAddr}
    (haddr : ptr.hostAddr lib key = some addr) (haddr' : ptr'.hostAddr lib key = some addr') :
    addr' = addr ∨ ptr'.Coincide addr addr' := by
  have hmem : ∀ value addr, (value, addr) ∈ ptr.ring ↔ (value, addr) ∈ ptr'.ring := by
    intro value addr
    rw [h.mem, h'.mem]
    simp only [hhosts.mem_iff, hsame.pointsBy lib hhosts]
  exact h.arranged.agree h'.arranged hsame.toSameHashing haddr haddr'
    (fun value => (hmem value addr).mp) fun value => (hmem value addr').mpr

theorem weighted_weighed (ptr : ConfigSt n) : ptr.weighted.Weighed := by
  intro hweighted
  rw [weighted_flags] at hweighted
  exact weighted_weights hweighted

theorem update_continuum_spread (hconsistent : ptr.distribution.Consistent)
    (hnoEject : ptr.flags.auto_eject_hosts = false) (hbrief : ∀ addr ∈ ptr.addrs, addr.Brief)
    (hfew : n ≤ 50000) (hlive : ptr.live_servers moment.now ≠ 0) :
    Spread lib (ptr.update_continuum lib qsort moment) := by
  obtain ⟨next, hupdated⟩ := update_continuum_eq lib qsort hlive
  have hring := update_continuum_ring lib qsort hlive
  have harranged := update_continuum_arranged lib qsort hconsistent hlive
  have hnoEject' : ptr.weighted.flags.auto_eject_hosts = false := by
    rw [weighted_flags]
    exact hnoEject
  have hbrief' : ∀ s, (ptr.weighted.servers s).addr.Brief := by
    intro s
    rw [weighted_addr]
    exact hbrief _ (ConfigSt.mem_addrs.mpr ⟨s, rfl⟩)
  have hgets : ∀ s, ptr.weighted.gets moment.now s = true := by
    intro s
    unfold ConfigSt.gets
    rw [hnoEject']
    rfl
  have hmem : ∀ value addr, (value, addr) ∈ ptr.weighted.addrPoints lib moment ↔
      ∃ weight, (addr, weight) ∈ ptr.weighted.hosts ∧
        value ∈ ptr.weighted.pointsBy lib addr weight := by
    intro value addr
    rw [ConfigSt.mem_addrPoints]
    constructor
    · rintro ⟨s, -, rfl, hvalue⟩
      rw [pointsOf_all hnoEject' hfew (weighted_weighed ptr) (hbrief' s)] at hvalue
      exact ⟨_, ConfigSt.mem_hosts.mpr ⟨s, rfl, rfl⟩, hvalue⟩
    · rintro ⟨weight, hhost, hvalue⟩
      obtain ⟨s, rfl, rfl⟩ := ConfigSt.mem_hosts.mp hhost
      refine ⟨s, hgets s, rfl, ?_⟩
      rw [pointsOf_all hnoEject' hfew (weighted_weighed ptr) (hbrief' s)]
      exact hvalue
  refine ⟨harranged, ?_, ?_, ?_⟩
  · rw [hupdated]
    exact hnoEject'
  · intro addr haddr
    rw [hupdated] at haddr
    exact hbrief addr (by rw [← weighted_addrs]; exact haddr)
  · intro value addr
    rw [hring.mem_iff, hmem, hupdated]
    rfl

/-! ## Runs -/

/-- Hosts with brief names, and steps that leave where keys go and leave no
host out. -/
def steadyBrief : Rules where
  host := ServerAddr.Brief
  clock _ _ := True
  event _ event := (∀ flag ∈ placing, event.sets ≠ some flag) ∧
    event.sets ≠ some .AUTO_EJECT_HOSTS
  clone := True

theorem Keeps.hosts {sets : Option memcached_behavior_t} {ptr ptr' : ConfigSt n}
    (h : Keeps sets ptr ptr') : ptr'.hosts = ptr.hosts := by
  unfold ConfigSt.hosts ConfigSt.list
  rw [List.map_ofFn, List.map_ofFn]
  congr 1
  funext s
  exact Prod.ext (h.addr s) (h.weight s)

theorem Spread.of_same {ptr ptr' : ConfigSt n} (h : Spread lib ptr) (hsame : SameSettings ptr ptr')
    (hnoEject : ptr'.flags.auto_eject_hosts = false) (hcontinuum : ptr'.continuum = ptr.continuum)
    (haddr : ∀ s, (ptr'.servers s).addr = (ptr.servers s).addr) (hhosts : ptr'.hosts = ptr.hosts) :
    Spread lib ptr' where
  arranged := by
    refine ⟨?_, ?_⟩
    · rw [hsame.distribution]
      exact h.arranged.consistent
    · rw [hcontinuum]
      exact h.arranged.sorted
  noEject := hnoEject
  brief addr hmem := by
    obtain ⟨s, rfl⟩ := ConfigSt.mem_addrs.mp hmem
    rw [haddr]
    exact h.brief _ (ConfigSt.mem_addrs.mpr ⟨s, rfl⟩)
  mem value addr := by
    have hpoints := hsame.pointsBy lib (by rw [hhosts] : ptr'.hosts.Perm ptr.hosts)
    rw [ring_eq hcontinuum haddr, hhosts, h.mem]
    simp only [hpoints]

/-- A handle without hosts has nothing to spread. -/
theorem spread_empty {ptr : ConfigSt 0} (hconsistent : ptr.distribution.Consistent)
    (hnoEject : ptr.flags.auto_eject_hosts = false) : Spread lib ptr := by
  have hnil : ptr.continuum = [] :=
    List.eq_nil_iff_forall_not_mem.mpr fun item _ => item.index.elim0
  refine ⟨⟨hconsistent, ?_⟩, hnoEject, fun addr hmem => (nomatch hmem), fun value addr => ?_⟩
  · rw [hnil]
    exact List.Pairwise.nil
  · unfold ConfigSt.ring
    rw [hnil]
    constructor
    · intro hmem
      cases hmem
    · rintro ⟨weight, hmem, -⟩
      cases hmem

theorem run_distribution_spread (hconsistent : ptr.distribution.Consistent)
    (hnoEject : ptr.flags.auto_eject_hosts = false) (hbrief : ∀ addr ∈ ptr.addrs, addr.Brief)
    (hfew : n ≤ 50000) : Spread lib (ptr.run_distribution lib qsort moment) := by
  by_cases hn : n = 0
  · subst hn
    have hdone := run_distribution_redistributed lib qsort moment ptr
    apply spread_empty
    · rw [hdone.settings.distribution]
      exact hconsistent
    · rw [hdone.flags]
      exact hnoEject
  · obtain ⟨servers, hprepared, -⟩ := prepared_fields qsort ptr
    have haddrs := prepared_perm qsort ptr
    rw [run_distribution_eq hconsistent]
    apply update_continuum_spread _ _ (fun addr hmem => hbrief addr (haddrs.mem_iff.mp hmem)) hfew
    · rw [prepared_live, live_all hnoEject]
      exact hn
    · rw [hprepared]
      exact hconsistent
    · rw [hprepared]
      exact hnoEject

theorem Develops.spread {start : ConfigSt m} (h : Develops lib qsort steadyBrief start ptr)
    (hstart : Spread lib start) (hfew : n ≤ 50000) :
    Spread lib ptr ∧ SameSettings start ptr := by
  induction h with
  | refl => exact ⟨hstart, SameSettings.refl start⟩
  | @server_add _ ptr moment addr weight _ _ _ hbrief _ ih =>
    obtain ⟨hspread, hsame⟩ := ih (Nat.le_of_succ_le hfew)
    refine ⟨run_distribution_spread hspread.arranged.consistent hspread.noEject ?_ hfew,
      (hsame.trans (grown_settings ptr addr weight)).trans
        (run_distribution_redistributed lib qsort moment _).settings⟩
    intro a hmem
    rw [grown_addrs, List.mem_append, List.mem_singleton] at hmem
    rcases hmem with hmem | rfl
    · exact hspread.brief a hmem
    · exact hbrief
  | @step _ ptr event _ hevent ih =>
    obtain ⟨hspread, hsame⟩ := ih hfew
    rcases stepsTo_step lib qsort ptr event with
      ⟨hkeeps, -⟩ | ⟨moment, between, -, hkeeps, -, hrun⟩
    · have hsettings := hkeeps.settings hevent.1
      exact ⟨hspread.of_same hsettings
        ((hkeeps.auto_eject_hosts hevent.2).trans hspread.noEject) hkeeps.continuum hkeeps.addr
        hkeeps.hosts, hsame.trans hsettings⟩
    · have hsettings := hkeeps.settings hevent.1
      rw [hrun]
      refine ⟨run_distribution_spread ?_ ((hkeeps.auto_eject_hosts hevent.2).trans hspread.noEject)
        ?_ hfew, (hsame.trans hsettings).trans
          (run_distribution_redistributed lib qsort moment between).settings⟩
      · rw [hsettings.distribution]
        exact hspread.arranged.consistent
      · rw [hkeeps.addrs]
        exact hspread.brief
  | @memcached_clone _ ptr pushed moment _ _ _ ih =>
    obtain ⟨hspread, hsame⟩ := ih hfew
    have hcopied := copied_settings ptr
    have hbrief : ∀ addr ∈ ptr.copied.addrs, addr.Brief := by
      rw [copied_addrs]
      exact hspread.brief
    have hconsistent : ptr.copied.distribution.Consistent := hspread.arranged.consistent
    have hpushed := run_distribution_redistributed lib qsort pushed ptr.copied
    unfold ConfigSt.memcached_clone
    dsimp only
    split_ifs
    · exact ⟨run_distribution_spread hconsistent hspread.noEject hbrief hfew,
        (hsame.trans hcopied).trans (run_distribution_redistributed lib qsort moment _).settings⟩
    · refine ⟨run_distribution_spread ?_ ?_ ?_ hfew, ((hsame.trans hcopied).trans
        hpushed.settings).trans (run_distribution_redistributed lib qsort moment _).settings⟩
      · rw [hpushed.settings.distribution]
        exact hconsistent
      · rw [hpushed.flags]
        exact hspread.noEject
      · exact fun addr hmem => hbrief addr (hpushed.addrs.mem_iff.mp hmem)

/-- Two programs with the same hosts and weights, in any order, send a key to
the same host, unless two points are at the same place. -/
theorem the_order_of_the_hosts_does_not_matter {start start' : ConfigSt 0}
    (hconsistent : start.distribution.Consistent)
    (hnoEject : start.flags.auto_eject_hosts = false)
    (hnoEject' : start'.flags.auto_eject_hosts = false) (hsame : SameSettings start start')
    (h : Develops lib qsort steadyBrief start ptr)
    (h' : Develops lib qsort' steadyBrief start' ptr') (hfew : n ≤ 50000)
    (hhosts : ptr'.hosts.Perm ptr.hosts) {key : Bytes} {addr addr' : ServerAddr}
    (haddr : ptr.hostAddr lib key = some addr) (haddr' : ptr'.hostAddr lib key = some addr') :
    addr' = addr ∨ ptr'.Coincide addr addr' := by
  have hfew' : n' ≤ 50000 := by
    have hlength := hhosts.length_eq
    rw [ConfigSt.hosts_length, ConfigSt.hosts_length] at hlength
    rw [hlength]
    exact hfew
  have hconsistent' : start'.distribution.Consistent := by
    rw [hsame.distribution]
    exact hconsistent
  obtain ⟨hspread, hsettings⟩ := h.spread (spread_empty hconsistent hnoEject) hfew
  obtain ⟨hspread', hsettings'⟩ := h'.spread (spread_empty hconsistent' hnoEject') hfew'
  exact hspread.agree hspread' (hsettings.symm.trans (hsame.trans hsettings')) hhosts haddr haddr'

/-- Two hosts that are added the other way round. -/
def reversedHosts : ConfigSt 2 :=
  (ketama.server_add aligned insertionQsort noon (ServerAddr.add (decimal 1) 0) 0).server_add aligned
    insertionQsort noon (ServerAddr.add (decimal 0) 0) 0

set_option maxRecDepth 100000 in
theorem reversedHosts_two : reversedHosts.hostAddr aligned (ascii ['a']) =
    some (ServerAddr.add (decimal 1) 0) := by decide +kernel

theorem the_order_of_the_hosts_does_not_matter_reversed :
    ServerAddr.add (decimal 1) 0 = ServerAddr.add (decimal 1) 0 ∨
      reversedHosts.Coincide (ServerAddr.add (decimal 1) 0) (ServerAddr.add (decimal 1) 0) := by
  have hbrief : ∀ k < 2, (ServerAddr.add (decimal k) 0).Brief := by
    intro k hk
    exact Nat.le_trans (decimal_length (Nat.lt_of_lt_of_le hk (by decide) : k < 10 ^ (0 + 1)))
      (by decide)
  exact the_order_of_the_hosts_does_not_matter (show ketama.distribution.Consistent from trivial) rfl rfl
    (SameSettings.refl ketama)
    (numberedHosts_develops Develops.refl rfl (fun _ _ => trivial) 2 hbrief)
    (Develops.server_add 0 (Develops.server_add 0 Develops.refl rfl (ServerAddr.add_proper _ _)
      (hbrief 1 (by decide)) trivial) rfl (ServerAddr.add_proper _ _) (hbrief 0 (by decide))
      trivial)
    (by decide) (by decide +kernel) numberedHosts_two reversedHosts_two

/-! ## Hosts without points -/

/-- Hosts are in order where they are to be sorted. -/
structure Sorts (ptr : ConfigSt n) : Prop where
  proper : ptr.Proper
  inOrder : ptr.flags.use_sort_hosts = true → ptr.InOrder

theorem Redistributed.sorts {ptr ptr' : ConfigSt n} (h : Redistributed ptr ptr')
    (hproper : ptr.Proper) : Sorts ptr' := by
  refine ⟨h.proper hproper, fun hsort => h.inOrder ?_⟩
  rw [← h.flags]
  exact hsort

/-- That holds whatever happens to a handle. -/
theorem Develops.sorts {rules : Rules} {start : ConfigSt m}
    (h : Develops lib qsort rules start ptr) (hstart : Sorts start) : Sorts ptr := by
  induction h with
  | refl => exact hstart
  | @server_add _ ptr moment addr weight _ _ hproper _ _ ih =>
    apply (run_distribution_redistributed lib qsort moment _).sorts
    intro a hmem
    rw [grown_addrs, List.mem_append, List.mem_singleton] at hmem
    rcases hmem with hmem | rfl
    · exact ih.proper a hmem
    · exact hproper
  | @step _ ptr event _ _ ih =>
    rcases stepsTo_step lib qsort ptr event with
      ⟨hkeeps, hsort⟩ | ⟨moment, between, -, hkeeps, -, hrun⟩
    · refine ⟨fun addr hmem => ih.proper addr (by rw [← hkeeps.addrs]; exact hmem), ?_⟩
      intro hsorted
      rw [hsort] at hsorted
      exact inOrder_of_addr (ih.inOrder hsorted) hkeeps.addrs
    · rw [hrun]
      apply (run_distribution_redistributed lib qsort moment between).sorts
      exact fun addr hmem => ih.proper addr (by rw [← hkeeps.addrs]; exact hmem)
  | @memcached_clone _ ptr pushed moment _ _ _ ih =>
    have hcopied : ptr.copied.Proper := by
      unfold ConfigSt.Proper
      rw [copied_addrs]
      exact ih.proper
    unfold ConfigSt.memcached_clone
    dsimp only
    split_ifs
    · exact (run_distribution_redistributed lib qsort moment _).sorts hcopied
    · exact (run_distribution_redistributed lib qsort moment _).sorts
        ((run_distribution_redistributed lib qsort pushed _).proper hcopied)

theorem hostAddr_modula {ptr : ConfigSt n} (h : ptr.distribution = .MODULA) (hn : 0 < n)
    (key : Bytes) : ptr.hostAddr lib key =
      some (ptr.servers ⟨(ptr.keyHash lib key).toNat % n, Nat.mod_lt _ hn⟩).addr := by
  unfold ConfigSt.hostAddr ConfigSt.routing ConfigSt.distributionOf
  rw [dif_pos hn, h]
  rfl

/-- Programs that sort their hosts, and hash keys alike, send each key to the
same one without a continuum too. Nothing else on their handles matters. -/
theorem sorted_hosts_share_the_keys {rules rules' : Rules} {start start' : ConfigSt 0}
    (h : Develops lib qsort rules start ptr) (h' : Develops lib qsort' rules' start' ptr')
    (hmodula : ptr.distribution = .MODULA) (hmodula' : ptr'.distribution = .MODULA)
    (hsort : ptr.flags.use_sort_hosts = true) (hsort' : ptr'.flags.use_sort_hosts = true)
    (hsame : SameHashing ptr ptr') (haddrs : ptr'.addrs.Perm ptr.addrs) (key : Bytes) :
    ptr'.hostAddr lib key = ptr.hostAddr lib key := by
  have hempty : ∀ start : ConfigSt 0, Sorts start :=
    fun start => ⟨fun addr hmem => (nomatch hmem), fun _ => List.Pairwise.nil⟩
  have hsorts := h.sorts (hempty start)
  have hsorts' := h'.sorts (hempty start')
  have hn : n' = n := by
    have hlength := haddrs.length_eq
    unfold ConfigSt.addrs ConfigSt.list at hlength
    rw [List.length_map, List.length_map, List.length_ofFn, List.length_ofFn] at hlength
    exact hlength
  subst hn
  have heq := addrs_eq_of_inOrder (hsorts.inOrder hsort) (hsorts'.inOrder hsort') haddrs
    hsorts.proper
  rcases Nat.eq_zero_or_pos n' with rfl | hpos
  · rfl
  · have hhash : ptr'.keyHash lib key = ptr.keyHash lib key := by
      unfold ConfigSt.keyHash
      rw [hsame.hashkit, hsame.hash_with_prefix_key]
    rw [hostAddr_modula hmodula hpos, hostAddr_modula hmodula' hpos, hhash,
      addr_eq_of_addrs_eq heq]

/-- A handle that sorts its hosts. -/
def sorting : ConfigSt 0 :=
  { ConfigSt.memcached_create with
    flags := { ConfigSt.memcached_create.flags with use_sort_hosts := true } }

def sortingReversed : ConfigSt 2 :=
  (sorting.server_add aligned insertionQsort noon (ServerAddr.add (decimal 1) 0) 0).server_add aligned
    insertionQsort noon (ServerAddr.add (decimal 0) 0) 0

theorem sorted_hosts_share_the_keys_reversed :
    sortingReversed.hostAddr aligned (ascii ['a']) =
      (numberedHosts sorting 2).hostAddr aligned (ascii ['a']) := by
  obtain ⟨hflags, -, hsame⟩ := numberedHosts_fields sorting 2
  obtain ⟨hfirst, hretry, hfirstSame⟩ := server_add_fields aligned insertionQsort noon sorting
    (ServerAddr.add (decimal 1) 0) 0
  obtain ⟨hsecond, -, hsecondSame⟩ := server_add_fields aligned insertionQsort noon
    (sorting.server_add aligned insertionQsort noon (ServerAddr.add (decimal 1) 0) 0)
    (ServerAddr.add (decimal 0) 0) 0
  have hshort := numberedHosts_short (n := 2) (by decide)
  have hreversed : Develops aligned insertionQsort steady sorting sortingReversed := by
    apply Develops.server_add 0
    · exact Develops.server_add 0 Develops.refl rfl (ServerAddr.add_proper _ _)
        (hshort 1 (by decide)) (pastRetry_noon rfl sorting rfl)
    · rw [hfirst]
      rfl
    · exact ServerAddr.add_proper _ _
    · exact hshort 0 (by decide)
    · exact pastRetry_noon (show sorting.retry_timeout = 0 from rfl) _ hretry
  have hnumbered : Develops aligned insertionQsort steady sorting (numberedHosts sorting 2) :=
    numberedHosts_develops Develops.refl rfl (pastRetry_noon rfl) 2 hshort
  have hboth := hsame.symm.trans (hfirstSame.trans hsecondSame)
  apply sorted_hosts_share_the_keys hnumbered hreversed
  · exact hsame.distribution
  · exact hboth.distribution.trans hsame.distribution
  · rw [hflags]
    rfl
  · show sortingReversed.flags.use_sort_hosts = true
    unfold sortingReversed
    rw [hsecond, hfirst]
    rfl
  · exact hboth.toSameHashing
  · decide +kernel

end Libmemcached
