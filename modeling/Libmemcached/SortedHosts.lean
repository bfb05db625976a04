-- The order of the hosts that `sort_hosts` gives, and what a distribution of the
-- hosts does.
import Libmemcached.KeyPlacement

open Chunks

namespace Libmemcached

variable {n n' : Nat} {lib : Hashkit} {qsort qsort' : Qsort} {moment : Moment}
variable {ptr : ConfigSt n} {ptr' : ConfigSt n'}

/-! ## The order of `compare_servers` -/

theorem strcmp_eq_iff {a b : Bytes} : strcmp a b = .eq ↔ a = b := by
  induction a generalizing b with
  | nil => cases b <;> simp [strcmp]
  | cons x xs ih =>
    cases b with
    | nil => simp [strcmp]
    | cons y ys =>
      unfold strcmp
      split_ifs with hlt hgt
      · simp only [List.cons.injEq, false_iff, not_and]
        rintro rfl
        exact absurd hlt (UInt8.lt_irrefl x)
      · simp only [List.cons.injEq, false_iff, not_and]
        rintro rfl
        exact absurd hgt (UInt8.lt_irrefl x)
      · obtain rfl : x = y := UInt8.le_antisymm (UInt8.not_lt.mp hgt) (UInt8.not_lt.mp hlt)
        simp only [List.cons.injEq, true_and]
        exact ih

theorem strcmp_swap (a b : Bytes) : strcmp b a = (strcmp a b).swap := by
  induction a generalizing b with
  | nil => cases b <;> rfl
  | cons x xs ih =>
    cases b with
    | nil => rfl
    | cons y ys =>
      unfold strcmp
      split_ifs with hyx hxy hxy
      · exact absurd (UInt8.lt_trans hyx hxy) (UInt8.lt_irrefl y)
      · rfl
      · rfl
      · exact ih ys

/-- The order of `strcmp` on strings of bytes. -/
theorem strcmp_lt_trans {a b c : Bytes} (hab : strcmp a b = .lt) (hbc : strcmp b c = .lt) :
    strcmp a c = .lt := by
  induction a generalizing b c with
  | nil =>
    cases c with
    | nil => cases b <;> simp [strcmp] at hab hbc
    | cons z zs => rfl
  | cons x xs ih =>
    cases b with
    | nil => simp [strcmp] at hab
    | cons y ys =>
      cases c with
      | nil => simp [strcmp] at hbc
      | cons z zs =>
        unfold strcmp at hab hbc ⊢
        by_cases hxy : x < y
        · have hyz : ¬ z < y := by
            intro hzy
            rw [if_neg (fun hlt => UInt8.lt_irrefl _ (UInt8.lt_trans hlt hzy)), if_pos hzy] at hbc
            cases hbc
          have hxz : x < z := UInt8.lt_of_lt_of_le hxy (UInt8.not_lt.mp hyz)
          rw [if_pos hxz]
        · rw [if_neg hxy] at hab
          split_ifs at hab with hyx
          obtain rfl : x = y := UInt8.le_antisymm (UInt8.not_lt.mp hyx) (UInt8.not_lt.mp hxy)
          split_ifs at hbc ⊢ with hxz hzx
          · rfl
          · exact ih hab hbc

/-- Not after, in the order of `compare_servers`. -/
theorem compareServersLe_iff {a b : ServerSt} : compareServersLe a b = true ↔
    strcmp a.addr.hostname b.addr.hostname = .lt ∨
      (a.addr.hostname = b.addr.hostname ∧ a.addr.port ≤ b.addr.port) := by
  unfold compareServersLe
  rw [← strcmp_eq_iff]
  cases strcmp a.addr.hostname b.addr.hostname <;> simp

/-- Of two hosts one is not after the other. -/
theorem compareServersLe_total (a b : ServerSt) :
    (compareServersLe a b || compareServersLe b a) = true := by
  rw [Bool.or_eq_true, compareServersLe_iff, compareServersLe_iff, strcmp_swap a.addr.hostname]
  cases hcompare : strcmp a.addr.hostname b.addr.hostname with
  | lt => exact Or.inl (Or.inl rfl)
  | gt => exact Or.inr (Or.inl rfl)
  | eq =>
    have hname := strcmp_eq_iff.mp hcompare
    rcases UInt16.le_total a.addr.port b.addr.port with hle | hle
    · exact Or.inl (Or.inr ⟨hname, hle⟩)
    · exact Or.inr (Or.inr ⟨hname.symm, hle⟩)

theorem compareServersLe_trans (a b c : ServerSt) (hab : compareServersLe a b = true)
    (hbc : compareServersLe b c = true) : compareServersLe a c = true := by
  rw [compareServersLe_iff] at hab hbc ⊢
  rcases hab with hab | ⟨hab, hport⟩
  · rcases hbc with hbc | ⟨hbc, -⟩
    · exact Or.inl (strcmp_lt_trans hab hbc)
    · rw [← hbc]
      exact Or.inl hab
  · rcases hbc with hbc | ⟨hbc, hport'⟩
    · rw [hab]
      exact Or.inl hbc
    · exact Or.inr ⟨hab.trans hbc, UInt16.le_trans hport hport'⟩

/-- An address as the calls make it: only a socket has no port. -/
def ServerAddr.Proper (addr : ServerAddr) : Prop := addr.type = .unix ↔ addr.port = 0

theorem ServerAddr.add_proper (hostname : Bytes) (port : UInt16) :
    (ServerAddr.add hostname port).Proper := by
  unfold ServerAddr.add ServerAddr.Proper
  dsimp only
  split_ifs with hport
  · simp only [false_iff]
    decide
  · simp only [false_iff]
    exact hport

/-- The order tells all addresses apart. -/
theorem compareServersLe_antisymm {a b : ServerSt} (ha : a.addr.Proper) (hb : b.addr.Proper)
    (hab : compareServersLe a b = true) (hba : compareServersLe b a = true) :
    a.addr = b.addr := by
  rw [compareServersLe_iff] at hab hba
  rw [strcmp_swap a.addr.hostname] at hba
  have hname : a.addr.hostname = b.addr.hostname := by
    rcases hab with hab | ⟨hname, -⟩
    · rcases hba with hba | ⟨hname, -⟩
      · rw [hab] at hba
        cases hba
      · exact hname.symm
    · exact hname
  have heq := strcmp_eq_iff.mpr hname
  rw [heq] at hab hba
  have hport : a.addr.port = b.addr.port := by
    rcases hab with hab | ⟨-, hle⟩
    · cases hab
    · rcases hba with hba | ⟨-, hge⟩
      · cases hba
      · exact UInt16.le_antisymm hle hge
  have htype : a.addr.type = b.addr.type := by
    have hport_iff : a.addr.type = .unix ↔ a.addr.port = 0 := ha
    have hiff : a.addr.type = .unix ↔ b.addr.type = .unix := by
      rw [hport_iff, hport]
      exact hb.symm
    cases hta : a.addr.type <;> cases htb : b.addr.type
    · rfl
    · exact absurd (hiff.mpr htb) (by rw [hta]; decide)
    · exact absurd (hiff.mp hta) (by rw [htb]; decide)
    · rfl
  cases haddr : a.addr
  cases hbddr : b.addr
  rw [haddr, hbddr] at hname hport htype
  simp only at hname hport htype
  rw [hname, hport, htype]

/-! ## Sorted hosts -/

namespace ConfigSt

/-- The hosts of a handle, in their order. -/
def list (ptr : ConfigSt n) : List ServerSt := List.ofFn ptr.servers

def addrs (ptr : ConfigSt n) : List ServerAddr := ptr.list.map (·.addr)

theorem mem_list {server : ServerSt} : server ∈ ptr.list ↔ ∃ s, ptr.servers s = server := by
  unfold list
  rw [List.mem_ofFn]

theorem mem_addrs {addr : ServerAddr} : addr ∈ ptr.addrs ↔ ∃ s, (ptr.servers s).addr = addr := by
  unfold addrs
  simp only [List.mem_map, mem_list]
  constructor
  · rintro ⟨_, ⟨s, rfl⟩, rfl⟩
    exact ⟨s, rfl⟩
  · rintro ⟨s, rfl⟩
    exact ⟨_, ⟨s, rfl⟩, rfl⟩

/-- The hosts are in the order of `compare_servers`. -/
def InOrder (ptr : ConfigSt n) : Prop := ptr.list.Pairwise fun a b => compareServersLe a b

def Proper (ptr : ConfigSt n) : Prop := ∀ addr ∈ ptr.addrs, addr.Proper

theorem sort_hosts_list (qsort : Qsort) (ptr : ConfigSt n) :
    (ptr.sort_hosts qsort).list = qsort.run compareServersLe ptr.list := by
  unfold sort_hosts list
  apply List.ext_get
  · rw [List.length_ofFn, (qsort.perm compareServersLe _).length_eq, List.length_ofFn]
  · intro i hi hj
    simp

/-- Sorting only moves the hosts. -/
theorem sort_hosts_perm (qsort : Qsort) (ptr : ConfigSt n) :
    (ptr.sort_hosts qsort).list.Perm ptr.list := by
  rw [sort_hosts_list]
  exact qsort.perm _ _

theorem sort_hosts_inOrder (qsort : Qsort) (ptr : ConfigSt n) :
    (ptr.sort_hosts qsort).InOrder := by
  unfold InOrder
  rw [sort_hosts_list]
  exact qsort.sorted _ _ compareServersLe_total compareServersLe_trans

end ConfigSt

/-- The order is one of the addresses. -/
theorem inOrder_iff : ptr.InOrder ↔ ptr.addrs.Pairwise fun a b =>
    compareServersLe ⟨a, 0, 0, 0, false⟩ ⟨b, 0, 0, 0, false⟩ = true := by
  unfold ConfigSt.InOrder ConfigSt.addrs
  rw [List.pairwise_map]
  rfl

/-- Sorted hosts with the same addresses are in the same order. -/
theorem addrs_eq_of_inOrder (h : ptr.InOrder) (h' : ptr'.InOrder)
    (hperm : ptr'.addrs.Perm ptr.addrs) (hproper : ptr.Proper) : ptr'.addrs = ptr.addrs := by
  refine List.Perm.eq_of_pairwise ?_ (inOrder_iff.mp h') (inOrder_iff.mp h) hperm
  intro a b ha hb hab hba
  exact compareServersLe_antisymm (hproper a (hperm.mem_iff.mp ha)) (hproper b hb) hab hba

/-- The same list of addresses has the same address in each place. -/
theorem addr_eq_of_addrs_eq {ptr ptr' : ConfigSt n} (h : ptr'.addrs = ptr.addrs) (s : Fin n) :
    (ptr'.servers s).addr = (ptr.servers s).addr := by
  have hfun : (fun s => (ptr'.servers s).addr) = fun s => (ptr.servers s).addr := by
    apply List.ofFn_injective
    unfold ConfigSt.addrs ConfigSt.list at h
    rw [List.map_ofFn, List.map_ofFn] at h
    exact h
  exact congrFun hfun s

/-! ## `run_distribution` -/

/-- What the choice of a host depends on besides the hosts. -/
structure SameSettings (ptr : ConfigSt n) (ptr' : ConfigSt n') : Prop extends
    SameHashing ptr ptr' where
  distribution : ptr'.distribution = ptr.distribution
  distribution_hashkit : ptr'.distribution_hashkit = ptr.distribution_hashkit
  ketama_weighted : ptr'.flags.ketama_weighted = ptr.flags.ketama_weighted

theorem SameSettings.refl (ptr : ConfigSt n) : SameSettings ptr ptr := ⟨⟨rfl, rfl⟩, rfl, rfl, rfl⟩

theorem SameSettings.symm (h : SameSettings ptr ptr') : SameSettings ptr' ptr :=
  ⟨⟨h.hashkit.symm, h.hash_with_prefix_key.symm⟩, h.distribution.symm,
    h.distribution_hashkit.symm, h.ketama_weighted.symm⟩

theorem SameSettings.trans {m : Nat} {ptr'' : ConfigSt m} (h : SameSettings ptr ptr')
    (h' : SameSettings ptr' ptr'') : SameSettings ptr ptr'' where
  hashkit := h'.hashkit.trans h.hashkit
  hash_with_prefix_key := h'.hash_with_prefix_key.trans h.hash_with_prefix_key
  distribution := h'.distribution.trans h.distribution
  distribution_hashkit := h'.distribution_hashkit.trans h.distribution_hashkit
  ketama_weighted := h'.ketama_weighted.trans h.ketama_weighted

/-- The hosts are sorted first, if they are to be. -/
def ConfigSt.prepared (qsort : Qsort) (ptr : ConfigSt n) : ConfigSt n :=
  if ptr.flags.use_sort_hosts then ptr.sort_hosts qsort else ptr

theorem prepared_fields (qsort : Qsort) (ptr : ConfigSt n) : ∃ servers,
    ptr.prepared qsort = { ptr with servers } ∧ (List.ofFn servers).Perm ptr.list := by
  unfold ConfigSt.prepared
  split_ifs
  · exact ⟨_, rfl, ConfigSt.sort_hosts_perm qsort ptr⟩
  · exact ⟨ptr.servers, rfl, List.Perm.refl _⟩

theorem run_distribution_eq (h : ptr.distribution.Consistent) :
    ptr.run_distribution lib qsort moment =
      (ptr.prepared qsort).update_continuum lib qsort moment := by
  have hsorted : (ptr.prepared qsort).distribution = ptr.distribution := by
    obtain ⟨servers, hprepared, -⟩ := prepared_fields qsort ptr
    rw [hprepared]
  unfold ConfigSt.run_distribution
  dsimp only
  rw [← ConfigSt.prepared, hsorted]
  cases hdistribution : ptr.distribution <;> rw [hdistribution] at h <;>
    exact h.elim

theorem run_distribution_other (h : ¬ ptr.distribution.Consistent) :
    ptr.run_distribution lib qsort moment = ptr.prepared qsort := by
  have hsorted : (ptr.prepared qsort).distribution = ptr.distribution := by
    obtain ⟨servers, hprepared, -⟩ := prepared_fields qsort ptr
    rw [hprepared]
  unfold ConfigSt.run_distribution
  dsimp only
  rw [← ConfigSt.prepared, hsorted]
  cases hdistribution : ptr.distribution <;> rw [hdistribution] at h <;>
    exact absurd trivial h

/-- The same number of hosts gets points in any order. -/
theorem prepared_live (qsort : Qsort) (ptr : ConfigSt n) (now : Int) :
    (ptr.prepared qsort).live_servers now = ptr.live_servers now := by
  obtain ⟨servers, hprepared, hperm⟩ := prepared_fields qsort ptr
  have hcount : ∀ servers : Fin n → ServerSt,
      ({ ptr with servers } : ConfigSt n).live_servers now =
        (List.ofFn servers).countP fun server =>
          !ptr.flags.auto_eject_hosts || server.next_retry ≤ now := by
    intro servers
    rw [List.ofFn_eq_map, List.countP_map]
    rfl
  rw [hprepared, hcount, hperm.countP_eq]
  exact (hcount ptr.servers).symm

/-- What a rebuild makes of a host. -/
def ConfigSt.reweigh (ptr : ConfigSt n) (server : ServerSt) : ServerSt :=
  { server with
    weight := if ptr.flags.ketama_weighted ∧ server.weight = 0 then 1 else server.weight }

theorem weighted_list (ptr : ConfigSt n) : ptr.weighted.list = ptr.list.map ptr.reweigh := by
  unfold ConfigSt.list ConfigSt.weighted ConfigSt.reweigh
  rw [List.map_ofFn]
  split_ifs with hweighted
  · simp only [hweighted, true_and]
    rfl
  · simp only [hweighted, Bool.false_eq_true, false_and, if_false]
    rfl

theorem weighted_addr (ptr : ConfigSt n) (s : Fin n) :
    (ptr.weighted.servers s).addr = (ptr.servers s).addr := by
  unfold ConfigSt.weighted
  split_ifs <;> rfl

theorem weighted_addrs (ptr : ConfigSt n) : ptr.weighted.addrs = ptr.addrs := by
  unfold ConfigSt.addrs
  rw [weighted_list, List.map_map]
  rfl

/-- A distribution changes the order and the weights of the hosts, and the
points. -/
structure Redistributed (ptr ptr' : ConfigSt n) : Prop where
  fields : ∃ servers next_distribution_rebuild continuum_room continuum_count continuum,
    ptr' = { ptr with
      servers, next_distribution_rebuild, continuum_room, continuum_count, continuum }
  list : ptr'.list.Perm ptr.list ∨ ptr'.list.Perm (ptr.list.map ptr.reweigh)
  addr : ptr.flags.use_sort_hosts = false → ∀ s, (ptr'.servers s).addr = (ptr.servers s).addr
  inOrder : ptr.flags.use_sort_hosts = true → ptr'.InOrder

theorem prepared_inOrder (h : ptr.flags.use_sort_hosts = true) :
    (ptr.prepared qsort).InOrder := by
  unfold ConfigSt.prepared
  rw [if_pos h]
  exact ConfigSt.sort_hosts_inOrder qsort ptr

theorem prepared_unsorted (h : ptr.flags.use_sort_hosts = false) : ptr.prepared qsort = ptr := by
  unfold ConfigSt.prepared
  rw [if_neg (by rw [h]; decide)]

/-- The weights have no part in the order. -/
theorem weighted_inOrder (h : ptr.InOrder) : ptr.weighted.InOrder := by
  unfold ConfigSt.InOrder
  rw [weighted_list]
  exact List.pairwise_map.mpr h

theorem run_distribution_redistributed (lib : Hashkit) (qsort : Qsort) (moment : Moment)
    (ptr : ConfigSt n) : Redistributed ptr (ptr.run_distribution lib qsort moment) := by
  obtain ⟨servers, hprepared, hperm⟩ := prepared_fields qsort ptr
  have hlist : (ptr.prepared qsort).list.Perm ptr.list := by
    rw [hprepared]
    exact hperm
  have haddr : ptr.flags.use_sort_hosts = false → ∀ s,
      ((ptr.prepared qsort).servers s).addr = (ptr.servers s).addr := by
    intro hsort s
    rw [prepared_unsorted hsort]
  by_cases hconsistent : ptr.distribution.Consistent
  · rw [run_distribution_eq hconsistent]
    by_cases hlive : (ptr.prepared qsort).live_servers moment.now = 0
    · obtain ⟨next, hidle⟩ := update_continuum_idle lib qsort hlive
      rw [hidle]
      refine ⟨⟨servers, next, ptr.continuum_room, ptr.continuum_count, ptr.continuum, ?_⟩,
        Or.inl hlist, haddr, fun hsort => prepared_inOrder hsort⟩
      rw [hprepared]
    · obtain ⟨next, hupdated⟩ := update_continuum_eq lib qsort hlive
      obtain ⟨weights, hweights, -⟩ := weighted_eq (ptr.prepared qsort)
      have hreweigh : (ptr.prepared qsort).reweigh = ptr.reweigh := by
        rw [hprepared]
        rfl
      rw [hupdated]
      refine ⟨⟨weights, next, ((ptr.prepared qsort).makeRoom moment.now).continuum_room,
        ((ptr.prepared qsort).makeRoom moment.now).continuum_count,
        qsort.run ConfigSt.continuumLe ((ptr.prepared qsort).weighted.newPoints lib moment), ?_⟩,
        Or.inr ?_, ?_, ?_⟩
      · generalize (ptr.prepared qsort).makeRoom moment.now = room
        generalize qsort.run ConfigSt.continuumLe _ = points
        rw [hweights, hprepared]
      · have hmapped := hlist.map (ptr.prepared qsort).reweigh
        rw [← weighted_list, hreweigh] at hmapped
        exact hmapped
      · intro hsort s
        rw [← haddr hsort s]
        exact weighted_addr _ s
      · intro hsort
        exact weighted_inOrder (prepared_inOrder hsort)
  · rw [run_distribution_other hconsistent]
    exact ⟨⟨servers, _, _, _, _, hprepared⟩, Or.inl hlist, haddr, fun hsort =>
      prepared_inOrder hsort⟩

theorem Redistributed.settings {ptr ptr' : ConfigSt n} (h : Redistributed ptr ptr') :
    SameSettings ptr ptr' := by
  obtain ⟨servers, next, room, count, continuum, rfl⟩ := h.fields
  exact ⟨⟨rfl, rfl⟩, rfl, rfl, rfl⟩

theorem Redistributed.flags {ptr ptr' : ConfigSt n} (h : Redistributed ptr ptr') :
    ptr'.flags = ptr.flags := by
  obtain ⟨servers, next, room, count, continuum, rfl⟩ := h.fields
  rfl

theorem Redistributed.addrs {ptr ptr' : ConfigSt n} (h : Redistributed ptr ptr') :
    ptr'.addrs.Perm ptr.addrs := by
  unfold ConfigSt.addrs
  rcases h.list with hlist | hlist
  · exact hlist.map _
  · have hmapped := hlist.map (·.addr)
    rw [List.map_map] at hmapped
    exact hmapped

theorem Redistributed.proper {ptr ptr' : ConfigSt n} (h : Redistributed ptr ptr')
    (hproper : ptr.Proper) : ptr'.Proper :=
  fun addr hmem => hproper addr (h.addrs.mem_iff.mp hmem)

/-- Hosts that were in order keep their places. -/
theorem Redistributed.kept {ptr ptr' : ConfigSt n} (h : Redistributed ptr ptr')
    (hproper : ptr.Proper) (hinOrder : ptr.flags.use_sort_hosts = true → ptr.InOrder) (s : Fin n) :
    (ptr'.servers s).addr = (ptr.servers s).addr := by
  cases hsort : ptr.flags.use_sort_hosts with
  | false => exact h.addr hsort s
  | true =>
    exact addr_eq_of_addrs_eq
      (addrs_eq_of_inOrder (hinOrder hsort) (h.inOrder hsort) h.addrs hproper) s

end Libmemcached
