-- Which host a key goes to on the continuum: the one with the next point. What
-- other hosts have no part in that.
import Libmemcached.HostList

open Chunks Decimal Rings

namespace Libmemcached

variable {n n' : Nat} {lib : Hashkit} {qsort : Qsort} {moment moment' : Moment}
variable {ptr : ConfigSt n} {ptr' : ConfigSt n'}

/-! ## The loop of `dispatch_host` -/

/-- Where a point is on the ring. -/
def ContinuumItem.place (item : ContinuumItem n) : Nat := item.value.toNat

theorem searchContinuum_eq (points : List (ContinuumItem n)) (hash : UInt32)
    (fuel left right : Nat) :
    searchContinuum points hash fuel left right =
      bisect (fun i => (points[i]?.map (·.value)).getD 0 < hash) fuel left right := by
  induction fuel generalizing left right with
  | zero => rfl
  | succ fuel ih =>
    rw [searchContinuum, bisect]
    simp only [ih, decide_eq_true_eq]

/-- It finds the next point. -/
theorem continuumHost_next (c : Continuum n) (hsorted : Sorted ContinuumItem.place c.points)
    (hash : UInt32) : ∃ p, IsNext ContinuumItem.place c.points hash.toNat p ∧
      continuumHost c hash = p.index := by
  obtain ⟨below, hbelow⟩ : ∃ below : Nat → Bool,
    below = fun i => decide ((c.points[i]?.map (·.value)).getD 0 < hash) := ⟨_, rfl⟩
  have hvalue : ∀ i q, c.points[i]? = some q → (below i = true ↔ q.place < hash.toNat) := by
    intro i q hq
    rw [hbelow]
    simp only [hq, Option.map_some, Option.getD_some, decide_eq_true_eq]
    exact UInt32.lt_iff_toNat_lt
  have hdown : ∀ i j, i ≤ j → j < c.points.length → below j = true → below i = true := by
    intro i j hij hj hlow
    have hq := List.getElem?_eq_getElem hj
    have hp := List.getElem?_eq_getElem (Nat.lt_of_le_of_lt hij hj)
    rw [hvalue j _ hq] at hlow
    rw [hvalue i _ hp]
    exact Nat.lt_of_le_of_lt (hsorted.ordered hij hp hq) hlow
  obtain ⟨hle, hlow, hhigh⟩ := bisect_spec hdown c.points.length 0 c.points.length (Nat.zero_le _)
    (Nat.le_refl _) (Nat.le_refl _) (fun i hi => absurd hi (Nat.not_lt_zero i))
  have hsearch : searchContinuum c.points hash c.points.length 0 c.points.length =
      bisect below c.points.length 0 c.points.length := by
    rw [searchContinuum_eq, hbelow]
  have hpoints : Sorted ContinuumItem.place (c.begin :: c.rest) := hsorted
  refine ⟨_, hpoints.isNext
    (bisect below c.points.length 0 c.points.length) ?_ ?_, ?_⟩
  · exact fun i hi q hq => (hvalue i q hq).mp (hlow i hi)
  · intro i hi q hq
    have hlen := (List.getElem?_eq_some_iff.mp hq).1
    have hfalse := hhigh i hi hlen
    apply Nat.le_of_not_lt
    intro hlt
    rw [(hvalue i q hq).mpr hlt] at hfalse
    cases hfalse
  · unfold continuumHost
    dsimp only
    rw [hsearch]
    rfl

/-! ## The ring of a handle -/

/-- The distributions with a continuum. -/
def memcached_server_distribution_t.Consistent : memcached_server_distribution_t → Prop
  | .CONSISTENT | .CONSISTENT_KETAMA | .CONSISTENT_KETAMA_SPY => True
  | _ => False

namespace ConfigSt

/-- The points of the continuum, with the address of the host. -/
def ring (ptr : ConfigSt n) : List (UInt32 × ServerAddr) :=
  ptr.continuum.map fun item => (item.value, (ptr.servers item.index).addr)

/-- A host has points on the ring. -/
def Serves (ptr : ConfigSt n) (addr : ServerAddr) : Prop := ∃ value, (value, addr) ∈ ptr.ring

/-- Two hosts have a point at the same place. -/
def Coincide (ptr : ConfigSt n) (a b : ServerAddr) : Prop :=
  a ≠ b ∧ ∃ value, (value, a) ∈ ptr.ring ∧ (value, b) ∈ ptr.ring

/-- The hash of a key, on which the distribution has no influence. -/
def keyHash (lib : Hashkit) (ptr : ConfigSt n) (key : Bytes) : UInt32 :=
  generate_hash_wrapper (⟨.MODULA, lib.digest ptr.hashkit, ptr.flags.hash_with_prefix_key⟩ :
    Routing n) key

/-- The points of the continuum are in order. -/
structure Arranged (ptr : ConfigSt n) : Prop where
  consistent : ptr.distribution.Consistent
  sorted : Sorted ContinuumItem.place ptr.continuum

end ConfigSt

theorem hostAddr_consistent (hconsistent : ptr.distribution.Consistent) (hn : 0 < n)
    {begin : ContinuumItem n} {rest : List (ContinuumItem n)}
    (hpoints : ptr.continuum = begin :: rest) (key : Bytes) :
    ptr.hostAddr lib key =
      some (ptr.servers (continuumHost ⟨begin, rest⟩ (ptr.keyHash lib key))).addr := by
  unfold ConfigSt.hostAddr ConfigSt.routing ConfigSt.distributionOf
  rw [dif_pos hn, hpoints]
  cases hdistribution : ptr.distribution <;> rw [hdistribution] at hconsistent <;>
    first | exact hconsistent.elim | rfl

theorem hostAddr_none (hconsistent : ptr.distribution.Consistent) (hnil : ptr.continuum = [])
    (key : Bytes) : ptr.hostAddr lib key = none := by
  unfold ConfigSt.hostAddr ConfigSt.routing ConfigSt.distributionOf
  split_ifs
  · rw [hnil]
    cases hdistribution : ptr.distribution <;> rw [hdistribution] at hconsistent <;>
      first | exact hconsistent.elim | rfl
  · rfl

/-- A key goes to a host with the next point. -/
theorem ConfigSt.Arranged.next (h : ptr.Arranged) {key : Bytes} {addr : ServerAddr}
    (haddr : ptr.hostAddr lib key = some addr) : ∃ value,
      IsNext (·.1.toNat) ptr.ring (ptr.keyHash lib key).toNat (value, addr) := by
  rcases hpoints : ptr.continuum with _ | ⟨begin, rest⟩
  · rw [hostAddr_none h.consistent hpoints] at haddr
    cases haddr
  · have hn : 0 < n := begin.index.pos
    have hsorted := h.sorted
    rw [hpoints] at hsorted
    obtain ⟨p, hnext, hhost⟩ := continuumHost_next ⟨begin, rest⟩ hsorted (ptr.keyHash lib key)
    rw [hostAddr_consistent h.consistent hn hpoints, hhost] at haddr
    cases haddr
    have hmapped : IsNext (fun q : UInt32 × ServerAddr => q.1.toNat)
        ((begin :: rest).map fun item => (item.value, (ptr.servers item.index).addr))
        (ptr.keyHash lib key).toNat (p.value, (ptr.servers p.index).addr) :=
      hnext.map (f := fun item => (item.value, (ptr.servers item.index).addr)) fun _ => rfl
    rw [← hpoints] at hmapped
    exact ⟨p.value, hmapped⟩

theorem ConfigSt.Arranged.serves (h : ptr.Arranged) {key : Bytes} {addr : ServerAddr}
    (haddr : ptr.hostAddr lib key = some addr) : ptr.Serves addr := by
  obtain ⟨value, hnext⟩ := h.next haddr
  exact ⟨value, hnext.mem⟩

/-! ## Two handles -/

/-- Two handles hash a key in the same way. -/
structure SameHashing (ptr : ConfigSt n) (ptr' : ConfigSt n') : Prop where
  hashkit : ptr'.hashkit = ptr.hashkit
  hash_with_prefix_key : ptr'.flags.hash_with_prefix_key = ptr.flags.hash_with_prefix_key

theorem SameHashing.keyHash (h : SameHashing ptr ptr') (hn : n ≠ 1) (hn' : n' ≠ 1) (key : Bytes) :
    ptr'.keyHash lib key = ptr.keyHash lib key := by
  unfold ConfigSt.keyHash generate_hash_wrapper
  rw [if_neg hn, if_neg hn']
  simp only [h.hashkit, h.hash_with_prefix_key]

/-- With one host all points are its own. -/
theorem ring_subsingleton {ptr : ConfigSt 1} {p q : UInt32 × ServerAddr} (hp : p ∈ ptr.ring)
    (hq : q ∈ ptr.ring) : q.2 = p.2 := by
  obtain ⟨item, -, rfl⟩ := List.mem_map.mp hp
  obtain ⟨item', -, rfl⟩ := List.mem_map.mp hq
  rw [Subsingleton.elim item'.index item.index]

/-- A key goes to the same host on two handles when the host that each of them
picks has its points on the other one too, unless two points are at the same
place. -/
theorem ConfigSt.Arranged.agree (h : ptr.Arranged) (h' : ptr'.Arranged)
    (hsame : SameHashing ptr ptr') {key : Bytes} {addr addr' : ServerAddr}
    (haddr : ptr.hostAddr lib key = some addr) (haddr' : ptr'.hostAddr lib key = some addr')
    (hmem : ∀ value, (value, addr) ∈ ptr.ring → (value, addr) ∈ ptr'.ring)
    (hmem' : ∀ value, (value, addr') ∈ ptr'.ring → (value, addr') ∈ ptr.ring) :
    addr' = addr ∨ ptr'.Coincide addr addr' := by
  obtain ⟨value, hnext⟩ := h.next haddr
  obtain ⟨value', hnext'⟩ := h'.next haddr'
  have hp := hmem value hnext.mem
  have hq := hmem' value' hnext'.mem
  -- with one host on a handle, both are that host
  by_cases hone : n = 1
  · subst hone
    exact Or.inl (ring_subsingleton hnext.mem hq)
  by_cases hone' : n' = 1
  · subst hone'
    exact Or.inl (ring_subsingleton hp hnext'.mem)
  · rw [hsame.keyHash hone hone'] at hnext'
    have hplace := hnext.value_eq hnext' hp hq
    obtain rfl : value = value' := UInt32.toNat_inj.mp hplace
    by_cases hne : addr' = addr
    · exact Or.inl hne
    · exact Or.inr ⟨Ne.symm hne, value, hp, hnext'.mem⟩

/-! ## The points of the hosts -/

namespace ConfigSt

/-- The points that the hosts get at some time. -/
def addrPoints (lib : Hashkit) (moment : Moment) (ptr : ConfigSt n) :
    List (UInt32 × ServerAddr) :=
  (ptr.newPoints lib moment).map fun item => (item.value, (ptr.servers item.index).addr)

theorem mem_addrPoints {value : UInt32} {addr : ServerAddr} :
    (value, addr) ∈ ptr.addrPoints lib moment ↔ ∃ s, ptr.gets moment.now s = true ∧
      (ptr.servers s).addr = addr ∧ value ∈ ptr.pointsOf lib moment (ptr.servers s) := by
  simp only [addrPoints, newPoints, List.mem_map, List.mem_flatMap, List.mem_filter,
    List.mem_finRange, true_and, Prod.mk.injEq]
  constructor
  · rintro ⟨item, ⟨s, hgets, value', hvalue, rfl⟩, rfl, rfl⟩
    exact ⟨s, hgets, rfl, hvalue⟩
  · rintro ⟨s, hgets, rfl, hvalue⟩
    exact ⟨⟨value, s⟩, ⟨s, hgets, value, hvalue, rfl⟩, rfl, rfl⟩

end ConfigSt

/-! ## A rebuild -/

theorem qsort_sorted (qsort : Qsort) (points : List (ContinuumItem n)) :
    Sorted ContinuumItem.place (qsort.run ConfigSt.continuumLe points) := by
  have hsorted := qsort.sorted ConfigSt.continuumLe points
    (fun a b => by
      simp only [ConfigSt.continuumLe, Bool.or_eq_true, decide_eq_true_eq]
      exact UInt32.le_total a.value b.value)
    (fun a b c => by
      simp only [ConfigSt.continuumLe, decide_eq_true_eq]
      exact UInt32.le_trans)
  exact hsorted.imp fun hle => UInt32.le_iff_toNat_le.mp (of_decide_eq_true hle)

theorem noteRebuild_eq (ptr : ConfigSt n) (now : Int) : ∃ next,
    ptr.noteRebuild now = { ptr with next_distribution_rebuild := next } := by
  unfold ConfigSt.noteRebuild
  split_ifs
  · exact ⟨_, rfl⟩
  · exact ⟨ptr.next_distribution_rebuild, rfl⟩

theorem makeRoom_eq (ptr : ConfigSt n) (now : Int) :
    ptr.makeRoom now =
      { ptr with
        continuum_room := (ptr.makeRoom now).continuum_room
        continuum_count := (ptr.makeRoom now).continuum_count } := by
  unfold ConfigSt.makeRoom
  dsimp only
  split_ifs <;> rfl

/-- What a rebuild changes besides the points. -/
theorem prepared_eq (ptr : ConfigSt n) (now : Int) : ∃ next,
    ((ptr.noteRebuild now).makeRoom now).weighted =
      { ptr.weighted with
        next_distribution_rebuild := next
        continuum_room := (ptr.makeRoom now).continuum_room
        continuum_count := (ptr.makeRoom now).continuum_count } := by
  obtain ⟨next, hnext⟩ := noteRebuild_eq ptr now
  have hroom : ({ ptr with next_distribution_rebuild := next } : ConfigSt n).makeRoom now =
      { ptr.makeRoom now with next_distribution_rebuild := next } := by
    have hlive : ({ ptr with next_distribution_rebuild := next } : ConfigSt n).live_servers now =
      ptr.live_servers now := rfl
    unfold ConfigSt.makeRoom
    dsimp only
    rw [hlive]
    split_ifs <;> rfl
  refine ⟨next, ?_⟩
  rw [hnext, hroom, makeRoom_eq]
  unfold ConfigSt.weighted
  dsimp only
  split_ifs <;> rfl

theorem noteRebuild_live (ptr : ConfigSt n) (now now' : Int) :
    (ptr.noteRebuild now).live_servers now' = ptr.live_servers now' := by
  unfold ConfigSt.noteRebuild
  split_ifs <;> rfl

/-- A rebuild with a host that gets points. -/
theorem update_continuum_eq (lib : Hashkit) (qsort : Qsort)
    (hlive : ptr.live_servers moment.now ≠ 0) : ∃ next,
    ptr.update_continuum lib qsort moment =
      { ptr.weighted with
        next_distribution_rebuild := next
        continuum_room := (ptr.makeRoom moment.now).continuum_room
        continuum_count := (ptr.makeRoom moment.now).continuum_count
        continuum := qsort.run ConfigSt.continuumLe (ptr.weighted.newPoints lib moment) } := by
  obtain ⟨next, hprepared⟩ := prepared_eq ptr moment.now
  refine ⟨next, ?_⟩
  unfold ConfigSt.update_continuum
  dsimp only
  rw [noteRebuild_live, if_neg hlive, hprepared]
  rfl

/-- Without one only the time of the next rebuild is noted. -/
theorem update_continuum_idle (lib : Hashkit) (qsort : Qsort)
    (hlive : ptr.live_servers moment.now = 0) : ∃ next,
    ptr.update_continuum lib qsort moment =
      { ptr with next_distribution_rebuild := next } := by
  obtain ⟨next, hnext⟩ := noteRebuild_eq ptr moment.now
  refine ⟨next, ?_⟩
  unfold ConfigSt.update_continuum
  dsimp only
  rw [noteRebuild_live, if_pos hlive, hnext]

/-- A weight is never 0 where weights count. -/
def ConfigSt.Weighed (ptr : ConfigSt n) : Prop :=
  ptr.flags.ketama_weighted = true → ∀ s, (ptr.servers s).weight ≠ 0

theorem weighted_eq (ptr : ConfigSt n) : ∃ servers, ptr.weighted = { ptr with servers } ∧
    ∀ s, ∃ weight, servers s = { ptr.servers s with weight } := by
  unfold ConfigSt.weighted
  split_ifs
  · exact ⟨_, rfl, fun s => ⟨_, rfl⟩⟩
  · exact ⟨ptr.servers, rfl, fun s => ⟨(ptr.servers s).weight, rfl⟩⟩

theorem weighted_unweighted (h : ptr.flags.ketama_weighted = false) : ptr.weighted = ptr := by
  unfold ConfigSt.weighted
  rw [if_neg (by rw [h]; decide)]

theorem update_continuum_ring (lib : Hashkit) (qsort : Qsort)
    (hlive : ptr.live_servers moment.now ≠ 0) :
    (ptr.update_continuum lib qsort moment).ring.Perm (ptr.weighted.addrPoints lib moment) := by
  obtain ⟨next, hupdated⟩ := update_continuum_eq lib qsort hlive
  rw [hupdated]
  exact (qsort.perm _ _).map _

theorem update_continuum_arranged (lib : Hashkit) (qsort : Qsort)
    (hconsistent : ptr.distribution.Consistent)
    (hlive : ptr.live_servers moment.now ≠ 0) :
    (ptr.update_continuum lib qsort moment).Arranged := by
  obtain ⟨next, hupdated⟩ := update_continuum_eq lib qsort hlive
  obtain ⟨servers, hweighted, -⟩ := weighted_eq ptr
  rw [hupdated]
  refine ⟨?_, qsort_sorted qsort _⟩
  rw [hweighted]
  exact hconsistent

end Libmemcached
