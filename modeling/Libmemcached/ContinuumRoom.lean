-- The room that is allocated for the points, and how many are written there.
import Libmemcached.HostChanges
import Libmemcached.Weights
import Mathlib.Algebra.BigOperators.Ring.List

open Chunks Decimal

namespace Libmemcached

variable {n m : Nat} {lib : Hashkit} {qsort : Qsort} {moment : Moment} {ptr : ConfigSt n}

/-! ## The number of points -/

namespace ConfigSt

/-- The weights of the hosts that get points. -/
def liveWeights (ptr : ConfigSt n) (now : Int) : List UInt32 :=
  ((List.finRange n).filter (ptr.gets now)).map fun s => (ptr.servers s).weight

theorem liveWeights_length (ptr : ConfigSt n) (now : Int) :
    (ptr.liveWeights now).length = ptr.live_servers now := by
  unfold liveWeights live_servers
  rw [List.length_map, List.countP_eq_length_filter]

theorem liveWeights_sum (ptr : ConfigSt n) (now : Int) :
    ((ptr.liveWeights now).map UInt32.toNat).sum = ptr.total_weight now := by
  unfold liveWeights total_weight
  rw [List.map_map]
  rfl

theorem live_servers_le (ptr : ConfigSt n) (now : Int) : ptr.live_servers now ≤ n := by
  unfold live_servers
  have hle := List.countP_le_length (p := ptr.gets now) (l := List.finRange n)
  rw [List.length_finRange] at hle
  exact hle

/-- How many values a text gives. -/
def perHash (ptr : ConfigSt n) : Nat := if ptr.flags.ketama_weighted then 4 else 1

theorem pointsOf_length (lib : Hashkit) (moment : Moment) (ptr : ConfigSt n) (server : ServerSt) :
    (ptr.pointsOf lib moment server).length = ptr.hashesOf moment.now server * ptr.perHash := by
  have hvalues : ∀ key, (ptr.valuesOf lib key).length = ptr.perHash := by
    intro key
    unfold valuesOf perHash
    split_ifs <;> simp
  unfold pointsOf
  rw [List.length_flatMap, List.map_congr_left fun pointer_index _ => hvalues _, List.map_const',
    List.sum_replicate_nat, List.length_range]

theorem newPoints_length (lib : Hashkit) (moment : Moment) (ptr : ConfigSt n) :
    (ptr.newPoints lib moment).length =
      (((List.finRange n).filter (ptr.gets moment.now)).map fun s =>
        ptr.hashesOf moment.now (ptr.servers s)).sum * ptr.perHash := by
  unfold newPoints
  rw [List.length_flatMap, List.map_congr_left fun s _ =>
    (List.length_map _).trans (pointsOf_length lib moment ptr (ptr.servers s)), List.sum_map_mul_right]

theorem newPoints_unweighted (hweighted : ptr.flags.ketama_weighted = false) :
    (ptr.newPoints lib moment).length =
      MEMCACHED_POINTS_PER_SERVER * ptr.live_servers moment.now := by
  have hhashes : ∀ s, ptr.hashesOf moment.now (ptr.servers s) = MEMCACHED_POINTS_PER_SERVER := by
    intro s
    unfold hashesOf
    rw [if_neg (by rw [hweighted]; decide)]
  have hper : ptr.perHash = 1 := by
    unfold perHash
    rw [if_neg (by rw [hweighted]; decide)]
  rw [newPoints_length, hper, Nat.mul_one, List.map_congr_left fun s _ => hhashes s,
    List.map_const', List.sum_replicate_nat, Nat.mul_comm]
  unfold live_servers
  rw [List.countP_eq_length_filter]

theorem newPoints_weighted (hweighted : ptr.flags.ketama_weighted = true) :
    (ptr.newPoints lib moment).length =
      ((ptr.liveWeights moment.now).map fun weight => weightedHashes weight
        (ptr.total_weight moment.now) (ptr.liveWeights moment.now).length).sum * 4 := by
  have hhashes : ∀ s, ptr.hashesOf moment.now (ptr.servers s) = weightedHashes
      (ptr.servers s).weight (ptr.total_weight moment.now) (ptr.live_servers moment.now) := by
    intro s
    unfold hashesOf
    rw [if_pos hweighted]
  have hper : ptr.perHash = 4 := by
    unfold perHash
    rw [if_pos hweighted]
  rw [newPoints_length, hper, List.map_congr_left fun s _ => hhashes s, liveWeights_length]
  unfold liveWeights
  rw [List.map_map]
  rfl

/-- Where weights count, some host has one. -/
theorem total_weight_pos (hweighed : ∀ s, (ptr.servers s).weight ≠ 0) {now : Int}
    (hlive : ptr.live_servers now ≠ 0) : 0 < ptr.total_weight now := by
  rw [← liveWeights_length] at hlive
  rw [← liveWeights_sum]
  rcases hweights : ptr.liveWeights now with _ | ⟨weight, rest⟩
  · rw [hweights] at hlive
    exact absurd rfl hlive
  · have hmem : weight ∈ ptr.liveWeights now := by
      rw [hweights]
      exact List.mem_cons_self ..
    obtain ⟨s, -, rfl⟩ := List.mem_map.mp hmem
    have hpos : 0 < (ptr.servers s).weight.toNat :=
      Nat.pos_of_ne_zero fun hzero => hweighed s (UInt32.toNat_inj.mp hzero)
    rw [List.map_cons, List.sum_cons]
    omega

end ConfigSt

/-- The points for which room is made, for each host. -/
def ConfigSt.points_per_server (ptr : ConfigSt n) : Nat :=
  if ptr.flags.ketama_weighted then MEMCACHED_POINTS_PER_SERVER_KETAMA
  else MEMCACHED_POINTS_PER_SERVER

theorem weighted_weights (h : ptr.flags.ketama_weighted = true) (s : Fin n) :
    (ptr.weighted.servers s).weight ≠ 0 := by
  unfold ConfigSt.weighted
  rw [if_pos h]
  dsimp only
  split_ifs with hzero
  · decide
  · exact hzero

theorem weighted_flags (ptr : ConfigSt n) : ptr.weighted.flags = ptr.flags := by
  unfold ConfigSt.weighted
  split_ifs <;> rfl

theorem weighted_live (ptr : ConfigSt n) (now : Int) :
    ptr.weighted.live_servers now = ptr.live_servers now := by
  unfold ConfigSt.weighted
  split_ifs <;> rfl

/-- A rebuild writes no more points than that. -/
theorem newPoints_le (lib : Hashkit) (hfew : n ≤ 50000) (hlive : ptr.live_servers moment.now ≠ 0) :
    (ptr.weighted.newPoints lib moment).length ≤
      ptr.points_per_server * ptr.live_servers moment.now := by
  unfold ConfigSt.points_per_server
  cases hweighted : ptr.flags.ketama_weighted with
  | false =>
    rw [weighted_unweighted hweighted, ConfigSt.newPoints_unweighted hweighted]
    rfl
  | true =>
    have hflag : ptr.weighted.flags.ketama_weighted = true := by
      rw [weighted_flags]
      exact hweighted
    have hlive' : ptr.weighted.live_servers moment.now ≠ 0 := by
      rw [weighted_live]
      exact hlive
    have hsum := sum_weightedHashes_le (ptr.weighted.liveWeights moment.now)
      (ConfigSt.total_weight_pos (weighted_weights hweighted) hlive')
      (ConfigSt.liveWeights_sum ptr.weighted moment.now)
      (by
        rw [ConfigSt.liveWeights_length]
        exact Nat.le_trans (ConfigSt.live_servers_le _ _) hfew)
    rw [ConfigSt.newPoints_weighted hflag, ← weighted_live ptr, ← ConfigSt.liveWeights_length]
    unfold MEMCACHED_POINTS_PER_SERVER_KETAMA
    rw [if_pos rfl]
    omega

/-! ## The room -/

/-- The points fit, and there is room for as many hosts as are counted. -/
structure Roomy (ptr : ConfigSt n) : Prop where
  fits : ptr.continuum.length ≤ ptr.continuum_room
  counted : ptr.points_per_server * ptr.continuum_count ≤ ptr.continuum_room

theorem makeRoom_cases (ptr : ConfigSt n) (now : Int) :
    (ptr.live_servers now ≤ ptr.continuum_count ∧
      (ptr.makeRoom now).continuum_count = ptr.continuum_count ∧
      (ptr.makeRoom now).continuum_room = ptr.continuum_room) ∨
    (ptr.continuum_count < ptr.live_servers now ∧
      (ptr.makeRoom now).continuum_count = ptr.live_servers now + MEMCACHED_CONTINUUM_ADDITION ∧
      (ptr.makeRoom now).continuum_room =
        (ptr.live_servers now + MEMCACHED_CONTINUUM_ADDITION) * ptr.points_per_server) := by
  by_cases hroom : ptr.continuum_count < ptr.live_servers now
  · refine Or.inr ⟨hroom, ?_, ?_⟩ <;> unfold ConfigSt.makeRoom <;> dsimp only <;> rw [if_pos hroom]
    rfl
  · refine Or.inl ⟨Nat.le_of_not_lt hroom, ?_, ?_⟩ <;> unfold ConfigSt.makeRoom <;> dsimp only <;>
      rw [if_neg hroom]

theorem Roomy.update_continuum (h : ptr.points_per_server * ptr.continuum_count ≤ ptr.continuum_room)
    (hfits : ptr.continuum.length ≤ ptr.continuum_room) (hfew : n ≤ 50000) :
    Roomy (ptr.update_continuum lib qsort moment) := by
  by_cases hlive : ptr.live_servers moment.now = 0
  · obtain ⟨next, hidle⟩ := update_continuum_idle lib qsort hlive
    rw [hidle]
    exact ⟨hfits, h⟩
  · obtain ⟨next, hupdated⟩ := update_continuum_eq lib qsort hlive
    have hpoints := newPoints_le lib hfew hlive
    have hper : ∀ p : ConfigSt n, p.flags = ptr.flags →
        p.points_per_server = ptr.points_per_server := by
      intro p hflags
      unfold ConfigSt.points_per_server
      rw [hflags]
    have hcounted : ptr.points_per_server * (ptr.makeRoom moment.now).continuum_count ≤
        (ptr.makeRoom moment.now).continuum_room ∧
        ptr.live_servers moment.now ≤ (ptr.makeRoom moment.now).continuum_count := by
      rcases makeRoom_cases ptr moment.now with ⟨hle, hcount, hroom⟩ | ⟨-, hcount, hroom⟩
      · rw [hcount, hroom]
        exact ⟨h, hle⟩
      · rw [hcount, hroom, Nat.mul_comm]
        exact ⟨Nat.le_refl _, Nat.le_add_right ..⟩
    refine ⟨?_, ?_⟩
    · rw [hupdated]
      dsimp only
      rw [(qsort.perm _ _).length_eq]
      exact Nat.le_trans hpoints
        (Nat.le_trans (Nat.mul_le_mul_left _ hcounted.2) hcounted.1)
    · rw [hper _ (by rw [hupdated]; exact weighted_flags ptr), hupdated]
      exact hcounted.1

theorem Roomy.run_distribution (moment : Moment)
    (h : ptr.points_per_server * ptr.continuum_count ≤ ptr.continuum_room)
    (hfits : ptr.continuum.length ≤ ptr.continuum_room) (hfew : n ≤ 50000) :
    Roomy (ptr.run_distribution lib qsort moment) := by
  obtain ⟨servers, hprepared, -⟩ := prepared_fields qsort ptr
  by_cases hconsistent : ptr.distribution.Consistent
  · rw [run_distribution_eq hconsistent, hprepared]
    exact Roomy.update_continuum h hfits hfew
  · rw [run_distribution_other hconsistent, hprepared]
    exact ⟨hfits, h⟩

/-- A step turns the weights on. -/
def HandleEvent.WeighsHosts (event : HandleEvent n) : Prop :=
  ∃ moment probe data, event = .behavior_set moment probe .KETAMA_WEIGHTED data ∧
    set_flag data = true

theorem set_distribution_flags (lib : Hashkit) (qsort : Qsort) (moment : Moment) (ptr : ConfigSt n)
    (type : UInt32) :
    (ptr.memcached_behavior_set_distribution lib qsort moment type).1.flags = ptr.flags := by
  rcases set_distribution_eq lib qsort moment ptr type with hsame | ⟨distribution, hrun⟩
  · rw [hsame]
  · rw [hrun]
    exact (run_distribution_redistributed lib qsort moment _).flags

/-- Setting that behavior keeps all other flags. -/
theorem set_weighted_flags (lib : Hashkit) (qsort : Qsort) (moment : Moment) (probe : Probe)
    (ptr : ConfigSt n) (data : UInt64) :
    (ptr.memcached_behavior_set lib qsort moment probe .KETAMA_WEIGHTED data).1.flags =
      { ptr.flags with ketama_weighted := set_flag data } := by
  unfold ConfigSt.memcached_behavior_set
  dsimp only
  obtain ⟨hashkit, hset⟩ := set_key_hash_eq lib ptr hashkit_hash_algorithm_t.MD5.number.toUInt32
  rw [hset]
  obtain ⟨distribution_hashkit, hset'⟩ := set_distribution_hash_eq lib { ptr with hashkit }
    hashkit_hash_algorithm_t.MD5.number.toUInt32
  rw [hset', set_distribution_flags]

theorem step_weighted {event : HandleEvent n}
    (h : (ptr.step lib qsort event).flags.ketama_weighted = true) :
    ptr.flags.ketama_weighted = true ∨ event.WeighsHosts := by
  by_cases hsets : event.sets = some .KETAMA_WEIGHTED
  · cases event with
    | behavior_set moment probe flag data =>
      cases hsets
      have hflags := set_weighted_flags lib qsort moment probe ptr data
      unfold ConfigSt.step at h
      dsimp only at h
      rw [hflags] at h
      exact Or.inr ⟨moment, probe, data, rfl, h⟩
    | _ => cases hsets
  · apply Or.inl
    rcases stepsTo_step lib qsort ptr event with
      ⟨hkeeps, -⟩ | ⟨moment, between, -, hkeeps, -, hrun⟩
    · rw [← hkeeps.ketama_weighted hsets]
      exact h
    · rw [hrun, (run_distribution_redistributed lib qsort moment between).flags] at h
      rw [← hkeeps.ketama_weighted hsets]
      exact h

/-- Weights are turned on before there is room for points, or again. -/
def weighedEarly : Rules where
  host _ := True
  clock _ _ := True
  event ptr event :=
    event.WeighsHosts → ptr.flags.ketama_weighted = true ∨ ptr.continuum_count = 0
  clone := True

theorem points_per_server_le {ptr ptr' : ConfigSt n}
    (h : ptr'.flags.ketama_weighted = true → ptr.flags.ketama_weighted = true) :
    ptr'.points_per_server ≤ ptr.points_per_server := by
  unfold ConfigSt.points_per_server
  cases hweighted' : ptr'.flags.ketama_weighted with
  | true => rw [h hweighted']
  | false =>
    rw [if_neg (by decide)]
    split_ifs <;> decide

theorem Roomy.step (h : Roomy ptr) (hfew : n ≤ 50000) {event : HandleEvent n}
    (hevent : weighedEarly.event ptr event) : Roomy (ptr.step lib qsort event) := by
  -- the room is enough for the weights that count after the step
  have hcounted : ∀ p : ConfigSt n, p.flags = (ptr.step lib qsort event).flags →
      p.points_per_server * ptr.continuum_count ≤ ptr.continuum_room := by
    intro p hflags
    by_cases hweighted : p.flags.ketama_weighted = true → ptr.flags.ketama_weighted = true
    · exact Nat.le_trans (Nat.mul_le_mul_right _ (points_per_server_le hweighted)) h.counted
    · obtain ⟨hon, hoff⟩ := Classical.not_imp.mp hweighted
      rw [hflags] at hon
      rcases step_weighted hon with hwas | hweighs
      · exact absurd hwas hoff
      · rcases hevent hweighs with hwas | hzero
        · exact absurd hwas hoff
        · rw [hzero, Nat.mul_zero]
          exact Nat.zero_le _
  rcases stepsTo_step lib qsort ptr event with
    ⟨hkeeps, -⟩ | ⟨moment, between, -, hkeeps, -, hrun⟩
  · refine ⟨?_, ?_⟩
    · rw [hkeeps.continuum, hkeeps.continuum_room]
      exact h.fits
    · rw [hkeeps.continuum_count, hkeeps.continuum_room]
      exact hcounted _ rfl
  · rw [hrun]
    apply Roomy.run_distribution moment _ _ hfew
    · rw [hkeeps.continuum_count, hkeeps.continuum_room]
      apply hcounted
      rw [hrun, (run_distribution_redistributed lib qsort moment between).flags]
    · rw [hkeeps.continuum, hkeeps.continuum_room]
      exact h.fits

theorem grown_roomy (h : Roomy ptr) (addr : ServerAddr) (weight : UInt32) :
    Roomy (ptr.grown addr weight) := by
  refine ⟨?_, h.counted⟩
  unfold ConfigSt.grown
  dsimp only
  rw [List.length_map]
  exact h.fits

theorem copied_roomy (ptr : ConfigSt n) : Roomy ptr.copied := ⟨Nat.le_refl _, Nat.le_refl _⟩

/-- A clone has room after its first update, too. -/
theorem pushed_roomy (ptr : ConfigSt n) (hfew : n ≤ 50000) (pushed : Moment) :
    Roomy (ptr.copied.run_distribution lib qsort pushed) :=
  Roomy.run_distribution pushed (copied_roomy ptr).counted (copied_roomy ptr).fits hfew

theorem Develops.roomy (h : Develops lib qsort weighedEarly ConfigSt.memcached_create ptr)
    (hfew : n ≤ 50000) : Roomy ptr := by
  induction h with
  | refl => exact ⟨Nat.le_refl _, Nat.le_refl _⟩
  | @server_add _ ptr moment addr weight _ _ _ _ _ ih =>
    have hgrown := grown_roomy (ih (Nat.le_of_succ_le hfew)) addr weight
    exact Roomy.run_distribution moment hgrown.counted hgrown.fits hfew
  | step _ hevent ih => exact (ih hfew).step hfew hevent
  | @memcached_clone _ ptr pushed moment _ _ _ ih =>
    have hcopied := copied_roomy ptr
    have hpushed : Roomy (ptr.copied.run_distribution lib qsort pushed) :=
      pushed_roomy ptr hfew pushed
    unfold ConfigSt.memcached_clone
    dsimp only
    split_ifs
    · exact Roomy.run_distribution moment hcopied.counted hcopied.fits hfew
    · exact Roomy.run_distribution moment hpushed.counted hpushed.fits hfew

/-- No update of the points writes behind the room that was allocated for them,
as long as weights are turned on before there are points. The first update of a
clone does not either. -/
theorem the_points_fit_their_room (h : Develops lib qsort weighedEarly ConfigSt.memcached_create ptr)
    (hfew : n ≤ 50000) : ptr.continuum.length ≤ ptr.continuum_room ∧ ∀ pushed,
      (ptr.copied.run_distribution lib qsort pushed).continuum.length ≤
        (ptr.copied.run_distribution lib qsort pushed).continuum_room :=
  ⟨(h.roomy hfew).fits, fun pushed => (pushed_roomy ptr hfew pushed).fits⟩

/-- Two hosts on a handle that had weights from the start. -/
def weighedPair : ConfigSt 2 :=
  numberedHosts (ConfigSt.memcached_create.step aligned insertionQsort
    (.behavior_set noon ⟨.connected, none, false, none⟩ .KETAMA_WEIGHTED 1)) 2

theorem the_points_fit_their_room_weighed :
    weighedPair.continuum.length ≤ weighedPair.continuum_room ∧ ∀ pushed,
      (weighedPair.copied.run_distribution aligned insertionQsort pushed).continuum.length ≤
        (weighedPair.copied.run_distribution aligned insertionQsort pushed).continuum_room :=
  the_points_fit_their_room
    (numberedHosts_develops (Develops.step Develops.refl fun _ => Or.inr rfl) rfl
      (fun _ _ => trivial) 2 fun _ _ => trivial) (by decide)

/-! ## Weights that are turned on later -/

/-- Room for the points of the hosts without weights, and for a few hosts
more. -/
structure HostRoom (ptr : ConfigSt n) : Prop where
  consistent : ptr.distribution.Consistent
  unweighted : ptr.flags.ketama_weighted = false
  noEject : ptr.flags.auto_eject_hosts = false
  room : ptr.continuum_room = ptr.continuum_count * MEMCACHED_POINTS_PER_SERVER
  few : ptr.continuum_count ≤ n + MEMCACHED_CONTINUUM_ADDITION

theorem HostRoom.update_continuum (h : HostRoom ptr) :
    HostRoom (ptr.update_continuum lib qsort moment) ∧
      n ≤ (ptr.update_continuum lib qsort moment).continuum_count := by
  have hall := live_all h.noEject moment.now
  by_cases hlive : ptr.live_servers moment.now = 0
  · obtain ⟨next, hidle⟩ := update_continuum_idle lib qsort hlive
    rw [hidle]
    refine ⟨⟨h.consistent, h.unweighted, h.noEject, h.room, h.few⟩, ?_⟩
    have hzero : n = 0 := hall.symm.trans hlive
    exact Nat.le_trans (Nat.le_of_eq hzero) (Nat.zero_le _)
  · obtain ⟨next, hupdated⟩ := update_continuum_eq lib qsort hlive
    have hper : ptr.points_per_server = MEMCACHED_POINTS_PER_SERVER := by
      unfold ConfigSt.points_per_server
      rw [if_neg (by rw [h.unweighted]; decide)]
    rw [hupdated, weighted_unweighted h.unweighted]
    rcases makeRoom_cases ptr moment.now with ⟨hle, hcount, hroom⟩ | ⟨hlt, hcount, hroom⟩
    · rw [hall] at hle
      refine ⟨⟨h.consistent, h.unweighted, h.noEject, ?_, ?_⟩, ?_⟩
      · dsimp only
        rw [hcount, hroom]
        exact h.room
      · dsimp only
        rw [hcount]
        exact h.few
      · dsimp only
        rw [hcount]
        exact hle
    · rw [hall] at hcount hroom
      refine ⟨⟨h.consistent, h.unweighted, h.noEject, ?_, ?_⟩, ?_⟩
      · dsimp only
        rw [hcount, hroom, hper]
      · dsimp only
        rw [hcount]
      · dsimp only
        rw [hcount]
        exact Nat.le_add_right ..

theorem HostRoom.run_distribution (moment : Moment) (h : HostRoom ptr) :
    HostRoom (ptr.run_distribution lib qsort moment) ∧
      n ≤ (ptr.run_distribution lib qsort moment).continuum_count := by
  obtain ⟨servers, hprepared, -⟩ := prepared_fields qsort ptr
  have hroom : HostRoom (ptr.prepared qsort) := by
    rw [hprepared]
    exact ⟨h.consistent, h.unweighted, h.noEject, h.room, h.few⟩
  rw [run_distribution_eq h.consistent]
  exact hroom.update_continuum

theorem HostRoom.of_keeps {sets : Option memcached_behavior_t} {ptr ptr' : ConfigSt n}
    (h : HostRoom ptr) (hkeeps : Keeps sets ptr ptr') (hplacing : ∀ flag ∈ placing, sets ≠ some flag)
    (heject : sets ≠ some .AUTO_EJECT_HOSTS) : HostRoom ptr' where
  consistent := by
    rw [(hkeeps.settings hplacing).distribution]
    exact h.consistent
  unweighted := (hkeeps.settings hplacing).ketama_weighted.trans h.unweighted
  noEject := (hkeeps.auto_eject_hosts heject).trans h.noEject
  room := by
    rw [hkeeps.continuum_room, hkeeps.continuum_count]
    exact h.room
  few := by
    rw [hkeeps.continuum_count]
    exact h.few

theorem Develops.hostRoom {start : ConfigSt m} (h : Develops lib qsort steadyAll start ptr)
    (hstart : HostRoom start) (hcount : m ≤ start.continuum_count) :
    HostRoom ptr ∧ n ≤ ptr.continuum_count := by
  induction h with
  | refl => exact ⟨hstart, hcount⟩
  | @server_add _ ptr moment addr weight _ _ _ _ _ ih =>
    obtain ⟨hroom, -⟩ := ih
    have hgrown : HostRoom (ptr.grown addr weight) :=
      ⟨hroom.consistent, hroom.unweighted, hroom.noEject, hroom.room,
        Nat.le_trans hroom.few (by omega)⟩
    exact hgrown.run_distribution moment
  | @step _ ptr event _ hevent ih =>
    obtain ⟨⟨hplacing, -⟩, heject⟩ := hevent
    rcases stepsTo_step lib qsort ptr event with
      ⟨hkeeps, -⟩ | ⟨moment, between, -, hkeeps, -, hrun⟩
    · refine ⟨ih.1.of_keeps hkeeps hplacing heject, ?_⟩
      rw [hkeeps.continuum_count]
      exact ih.2
    · rw [hrun]
      exact (ih.1.of_keeps hkeeps hplacing heject).run_distribution moment
  | @memcached_clone _ ptr pushed moment _ _ _ ih =>
    obtain ⟨hroom, -⟩ := ih
    have hcopied : HostRoom ptr.copied :=
      ⟨hroom.consistent, hroom.unweighted, hroom.noEject, (Nat.zero_mul _).symm, Nat.zero_le _⟩
    unfold ConfigSt.memcached_clone
    dsimp only
    split_ifs
    · exact hcopied.run_distribution moment
    · exact (hcopied.run_distribution pushed).1.run_distribution moment

/-- A handle whose weights are turned on or off, before the hosts are
distributed. -/
def ConfigSt.weighing (ptr : ConfigSt n) (hashkit distribution_hashkit : hashkit_hash_algorithm_t)
    (on : Bool) : ConfigSt n :=
  { ptr with
    hashkit, distribution_hashkit
    flags := { ptr.flags with ketama_weighted := on }
    distribution := .CONSISTENT_KETAMA }

theorem set_weighted_eq (lib : Hashkit) (qsort : Qsort) (moment : Moment) (probe : Probe)
    (ptr : ConfigSt n) (data : UInt64) : ∃ hashkit distribution_hashkit,
    (ptr.memcached_behavior_set lib qsort moment probe .KETAMA_WEIGHTED data).1 =
      (ptr.weighing hashkit distribution_hashkit (set_flag data)).run_distribution lib qsort
        moment := by
  have hfind : distributionTypes.find? (fun distribution => distribution.number =
      memcached_server_distribution_t.CONSISTENT_KETAMA.number.toUInt32.toUInt64) =
      some .CONSISTENT_KETAMA := by decide
  obtain ⟨hashkit, hset⟩ := set_key_hash_eq lib ptr hashkit_hash_algorithm_t.MD5.number.toUInt32
  obtain ⟨distribution_hashkit, hset'⟩ := set_distribution_hash_eq lib { ptr with hashkit }
    hashkit_hash_algorithm_t.MD5.number.toUInt32
  refine ⟨hashkit, distribution_hashkit, ?_⟩
  unfold ConfigSt.memcached_behavior_set
  dsimp only
  rw [hset, hset']
  unfold ConfigSt.memcached_behavior_set_distribution
  rw [hfind]
  rfl

/-- Turning the weights on when there are points already writes behind their
room, from eighteen hosts on. -/
theorem weights_turned_on_late_outgrow_the_room {start : ConfigSt 0}
    (hconsistent : start.distribution.Consistent)
    (hunweighted : start.flags.ketama_weighted = false)
    (hnoEject : start.flags.auto_eject_hosts = false) (hcount : start.continuum_count = 0)
    (hroom : start.continuum_room = 0) (h : Develops lib qsort steadyAll start ptr)
    (hmany : 18 ≤ n) (hfew : n ≤ 50000) (probe : Probe) {data : UInt64}
    (hon : set_flag data = true) :
    (ptr.memcached_behavior_set lib qsort moment probe .KETAMA_WEIGHTED data).1.continuum_room <
      (ptr.memcached_behavior_set lib qsort moment probe .KETAMA_WEIGHTED data).1.continuum.length := by
  have hstart : HostRoom start :=
    ⟨hconsistent, hunweighted, hnoEject, by rw [hcount, hroom]; rfl, by rw [hcount]; omega⟩
  obtain ⟨hfor, henough⟩ := h.hostRoom hstart (Nat.zero_le _)
  obtain ⟨hashkit, distribution_hashkit, hset⟩ := set_weighted_eq lib qsort moment probe ptr data
  have hketama : (ptr.weighing hashkit distribution_hashkit
      (set_flag data)).distribution.Consistent := trivial
  rw [hset, run_distribution_eq hketama]
  obtain ⟨servers, hprepared, -⟩ := prepared_fields qsort
    (ptr.weighing hashkit distribution_hashkit (set_flag data))
  generalize (ptr.weighing hashkit distribution_hashkit (set_flag data)).prepared qsort = between
    at hprepared ⊢
  have hweighted : between.flags.ketama_weighted = true := by
    rw [hprepared]
    exact hon
  have hall : between.live_servers moment.now = n := live_all (by rw [hprepared]; exact hfor.noEject) _
  have hlive : between.live_servers moment.now ≠ 0 := by omega
  obtain ⟨next, hupdated⟩ := update_continuum_eq lib qsort hlive
  rw [hupdated]
  dsimp only
  -- the room stays as it was
  have hsame : (between.makeRoom moment.now).continuum_room = ptr.continuum_room := by
    have hsize : between.continuum_count = ptr.continuum_count ∧
        between.continuum_room = ptr.continuum_room := by
      rw [hprepared]
      exact ⟨rfl, rfl⟩
    rcases makeRoom_cases between moment.now with ⟨-, -, hkept⟩ | ⟨hlt, -, -⟩
    · rw [hkept, hsize.2]
    · rw [hall, hsize.1] at hlt
      exact absurd henough (Nat.not_le_of_lt hlt)
  have hflag : between.weighted.flags.ketama_weighted = true := by
    rw [weighted_flags]
    exact hweighted
  have hlive' : between.weighted.live_servers moment.now = n := by
    rw [weighted_live]
    exact hall
  have hsum := le_sum_weightedHashes (between.weighted.liveWeights moment.now)
    (ConfigSt.total_weight_pos (weighted_weights hweighted) (by rw [hlive']; omega))
    (ConfigSt.liveWeights_sum between.weighted moment.now)
    (by rw [ConfigSt.liveWeights_length, hlive']; exact hfew)
  rw [(qsort.perm _ _).length_eq, hsame, hfor.room, ConfigSt.newPoints_weighted hflag]
  have hfewer := hfor.few
  unfold MEMCACHED_POINTS_PER_SERVER
  unfold MEMCACHED_CONTINUUM_ADDITION at hfewer
  have hlength : (between.weighted.liveWeights moment.now).length = n := by
    rw [ConfigSt.liveWeights_length, hlive']
  rw [hlength] at hsum ⊢
  omega

theorem weights_turned_on_late_outgrow_the_room_numbered :
    ((numberedHosts ketama 18).memcached_behavior_set aligned insertionQsort noon
        ⟨.connected, none, false, none⟩ .KETAMA_WEIGHTED 1).1.continuum_room <
      ((numberedHosts ketama 18).memcached_behavior_set aligned insertionQsort noon
        ⟨.connected, none, false, none⟩ .KETAMA_WEIGHTED 1).1.continuum.length :=
  weights_turned_on_late_outgrow_the_room (show ketama.distribution.Consistent from trivial) rfl
    rfl rfl rfl
    (numberedHosts_develops Develops.refl rfl (pastRetry_noon rfl) 18
      (numberedHosts_short (by decide)))
    (by decide) (by decide) ⟨.connected, none, false, none⟩ (by decide)

end Libmemcached
