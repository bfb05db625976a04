-- walk_stats: a second memcached_st is made for the hosts of the first, its
-- figures are fetched, and a callback is called for each of them
-- (libmemcached.xs, stats.c, memcached.c).
import Libmemcached.HostList
import Libmemcached.Lib.Heaps
import Libmemcached.Lib.PerlString
import Libmemcached.Stats

open Chunks Decimal Heaps PerlString

namespace Libmemcached

open memcached_return_t

/-! ## Hosts -/

def hostPort (hostname : Bytes) (port : UInt16) : Bytes :=
  hostname ++ [58] ++ decimal port.toNat

/-- `memcached_st`, as far as `walk_stats` looks at it. `user_data` points to
a `lmc_state_st`, or is NULL. -/
structure StatsSt where
  is_allocated : Bool
  user_data : Option Nat
  servers : List ServerAddr
  binary_protocol : Bool

namespace StatsSt

def create : StatsSt := ⟨true, none, [], false⟩

/-- `memcached_clone(clone, source)` for a structure `clone`: what becomes of
it. One that was allocated is left as it is, and NULL is returned. -/
def clone (clone source : StatsSt) : StatsSt :=
  if clone.is_allocated then clone else { source with is_allocated := false }

def memcached_server_add (st : StatsSt) (hostname : Bytes) (port : UInt16) : StatsSt :=
  { st with servers := st.servers ++ [ServerAddr.add hostname port] }

end StatsSt

/-- The second structure of `walk_stats`, once it is set up. -/
def statsClone (ptr : StatsSt) : StatsSt :=
  let clone := StatsSt.create.clone ptr
  let clone := { clone with binary_protocol := false }
  ptr.servers.foldl (fun clone server => clone.memcached_server_add server.hostname server.port)
    clone

/-! ## Fetching -/

/-- What each host of a list does with a request, by its place in the list
and the address that is connected to. -/
abbrev StatsWorld := Nat → ServerAddr → Network 1

/-- The loop of `memcached_stat` over the hosts, from the host number `i` on.
`none` stands for undefined behaviour. -/
def fetchFigures (world : StatsWorld) (args : Option Bytes) :
    Nat → List ServerAddr → Option (List memcached_stat_st × memcached_return_t)
  | _, [] => some ([], SUCCESS)
  | i, server :: servers =>
    match memcached_stat_st.ascii_stats_fetch (world i server) args zeroedStat with
    | none => none
    | some (stat, temp_return) =>
      match fetchFigures world args (i + 1) servers with
      | none => none
      | some (stats, rc) =>
        some (stat :: stats, if temp_return = SUCCESS then rc else SOME_ERRORS)

/-- `memcached_stat` of the text protocol: the array, when there is memory for
it, and the code. -/
def memcached_stat_array (memory : Bool) (world : StatsWorld) (servers : List ServerAddr)
    (args : Option Bytes) : Option (Option (List memcached_stat_st) × memcached_return_t) :=
  if memory then (fetchFigures world args 0 servers).map fun (stats, rc) => (some stats, rc)
  else some (none, MEMORY_ALLOCATION_FAILURE)

/-! ## Walking -/

structure StatsCall where
  key : Bytes
  value : Bytes
  hostport : Bytes
  args : Option Bytes
deriving DecidableEq

/-- How the callback ends. A list that is not empty is croaked on. -/
inductive StatsCallback.Outcome
  | empty
  | items
  | died
deriving DecidableEq

/-- The callback, which may depend on the calls before. -/
abbrev StatsCallback := List StatsCall → StatsCall → StatsCallback.Outcome

/-- How `walk_stats` ends. What comes after an access through NULL or to
released memory is undefined. -/
inductive WalkExit
  | returned (rc : memcached_return_t)
  | no
  | died
  | undefined
  | endless
deriving DecidableEq

structure Walking where
  stats : Heap (List memcached_stat_st)
  calls : List StatsCall

/-- The loop over the keys, for the array `stat`. The value is that of its
first element. -/
def walkKeys (stat : Nat) (hostport : Bytes) (args : Option Bytes) (cb : StatsCallback) :
    List StatKey → Walking → Option WalkExit × Walking
  | [], walking => (none, walking)
  | key :: keys, walking =>
    if walking.stats.Live stat then
      let first := (walking.stats.contents stat).bind (·.head?)
      match first.bind fun first => memcached_stat_get_value first key.name with
      | none => (some .endless, walking)
      | some value =>
        let call := ⟨key.name, value, hostport, args⟩
        let called := { walking with calls := walking.calls ++ [call] }
        match cb walking.calls call with
        | .empty => walkKeys stat hostport args cb keys called
        | .items | .died => (some .died, called)
    else (some .undefined, { walking with stats := walking.stats.access (some stat) })

/-- The loop over the hosts, of which `n` are left. The array is released at
the end of each turn. -/
def walkServers (stat : Nat) (hostport : Bytes) (args : Option Bytes) (cb : StatsCallback) :
    Nat → Walking → Option WalkExit × Walking
  | 0, walking => (none, walking)
  | n + 1, walking =>
    match walkKeys stat hostport args cb memcached_stat_keys walking with
    | (some exit, walking) => (some exit, walking)
    | (none, walking) =>
      walkServers stat hostport args cb n
        { walking with stats := walking.stats.release (some stat) id }

structure Walked where
  exit : WalkExit
  calls : List StatsCall
  states : Heap memcached_return_t
  sts : Heap StatsSt
  stats : Heap (List memcached_stat_st)

/-- `LMC_RECORD_RETURN_ERR`. -/
def recordReturnErr (st : StatsSt) (states : Heap memcached_return_t) (rc : memcached_return_t) :
    Heap memcached_return_t := states.write st.user_data fun _ => rc

/-- `walk_stats`. `stray` is what is read as the name and the port of a host
where the structure `ptr` itself is; `states` are the `lmc_state_st`, each by
its `last_return`. -/
def walk_stats (memory : Bool) (world : StatsWorld) (stray : Bytes × UInt16) (ptr : StatsSt)
    (states : Heap memcached_return_t) (stats_args : Option Raw) (cb : StatsCallback) : Walked :=
  let args := stats_args.map fun s => cString s.bytes
  let clone := statsClone ptr
  let (clone_st, sts) := Heap.empty.alloc clone
  match memcached_stat_array memory world clone.servers args with
  | none => ⟨.undefined, [], states, sts, .empty⟩
  | some (none, rc) =>
    ⟨if clone.user_data = none then .undefined else .no, [], recordReturnErr clone states rc, sts,
      .empty⟩
  | some (some array, rc) =>
    let (stat, stats) := Heap.empty.alloc array
    if LMC_RETURN_OK rc = false then
      ⟨if clone.user_data = none then .undefined else .no, [], recordReturnErr clone states rc,
        sts, stats⟩
    else
      match walkServers stat (hostPort stray.1 stray.2) args cb ptr.servers.length ⟨stats, []⟩ with
      | (some exit, walking) => ⟨exit, walking.calls, states, sts, walking.stats⟩
      | (none, walking) =>
        ⟨.returned rc, walking.calls, recordReturnErr ptr states rc,
          sts.release (some clone_st) id, walking.stats⟩

/-- The clone has no `user_data`, and every host of the first structure as a
TCP host. -/
theorem statsClone_eq (ptr : StatsSt) : statsClone ptr =
    ⟨true, none, ptr.servers.map fun server => ServerAddr.add server.hostname server.port, false⟩ := by
  have hfold : ∀ (servers : List ServerAddr) (st : StatsSt),
      servers.foldl (fun clone server => clone.memcached_server_add server.hostname server.port) st =
        { st with servers := st.servers ++
          servers.map fun server => ServerAddr.add server.hostname server.port } := by
    intro servers
    induction servers with
    | nil => simp
    | cons server servers ih =>
      intro st
      rw [List.foldl_cons, ih]
      simp [StatsSt.memcached_server_add]
  unfold statsClone
  simp only [hfold]
  rfl

/-! ## When the figures cannot be fetched -/

theorem fetchFigures_code {world : StatsWorld} {args : Option Bytes} {i : Nat}
    {servers : List ServerAddr} {stats : List memcached_stat_st} {rc : memcached_return_t}
    (h : fetchFigures world args i servers = some (stats, rc)) :
    (rc = SUCCESS ∨ rc = SOME_ERRORS) ∧ stats.length = servers.length := by
  induction servers generalizing i stats rc with
  | nil =>
    cases h
    exact ⟨Or.inl rfl, rfl⟩
  | cons server servers ih =>
    simp only [fetchFigures] at h
    split at h
    · cases h
    · split at h
      · cases h
      · rename_i stats' rc' hrest
        obtain ⟨hrc, hlength⟩ := ih hrest
        simp only [Option.some.injEq, Prod.mk.injEq] at h
        obtain ⟨rfl, rfl⟩ := h
        refine ⟨?_, by simp [hlength]⟩
        split_ifs
        · exact hrc
        · exact Or.inr rfl

theorem fetchFigures_success {world : StatsWorld} {args : Option Bytes} {i : Nat}
    {servers : List ServerAddr} {stats : List memcached_stat_st}
    (h : fetchFigures world args i servers = some (stats, SUCCESS)) {k : Nat} {server : ServerAddr}
    (hk : servers[k]? = some server) : ∃ stat,
      memcached_stat_st.ascii_stats_fetch (world (i + k) server) args zeroedStat =
        some (stat, SUCCESS) := by
  induction servers generalizing i stats k with
  | nil => simp at hk
  | cons first servers ih =>
    simp only [fetchFigures] at h
    split at h
    · cases h
    · rename_i stat temp_return hfirst
      split at h
      · cases h
      · rename_i stats' rc' hrest
        simp only [Option.some.injEq, Prod.mk.injEq] at h
        obtain ⟨-, hrc⟩ := h
        split_ifs at hrc with htemp
        · subst hrc htemp
          cases k with
          | zero =>
            cases hk
            exact ⟨stat, hfirst⟩
          | succ k =>
            obtain ⟨stat', hstat'⟩ := ih hrest hk
            exact ⟨stat', by rw [← hstat']; congr 2; omega⟩

/-- The hosts of the clone. -/
def addedServers (ptr : StatsSt) : List ServerAddr :=
  ptr.servers.map fun server => ServerAddr.add server.hostname server.port

/-- The figures of all hosts are there. -/
def FiguresFetched (memory : Bool) (world : StatsWorld) (ptr : StatsSt)
    (stats_args : Option Raw) (array : List memcached_stat_st) : Prop :=
  memory = true ∧ fetchFigures world (stats_args.map fun s => cString s.bytes) 0
    (addedServers ptr) = some (array, SUCCESS)

section

variable {memory : Bool} {world : StatsWorld} {stray : Bytes × UInt16} {ptr : StatsSt}
  {states : Heap memcached_return_t} {stats_args : Option Raw} {cb : StatsCallback}

/-- Without the figures of a host, the code is recorded through the NULL of
the clone, which is not released either. -/
theorem walk_stats_failed (h : ∀ array, ¬ FiguresFetched memory world ptr stats_args array) :
    (walk_stats memory world stray ptr states stats_args cb).exit = .undefined ∧
      (walk_stats memory world stray ptr states stats_args cb).calls = [] ∧
      (walk_stats memory world stray ptr states stats_args cb).sts.releases 0 = some 0 := by
  simp only [walk_stats, statsClone_eq, memcached_stat_array]
  cases memory with
  | false => exact ⟨rfl, rfl, rfl⟩
  | true =>
    simp only [if_true]
    rcases hfetch : fetchFigures world (stats_args.map fun s => cString s.bytes) 0
        (ptr.servers.map fun server => ServerAddr.add server.hostname server.port)
      with _ | ⟨array, rc⟩
    · rw [hfetch]
      exact ⟨rfl, rfl, rfl⟩
    · rcases (fetchFigures_code hfetch).1 with rfl | rfl
      · exact absurd ⟨rfl, hfetch⟩ (h array)
      · rw [hfetch]
        exact ⟨rfl, rfl, rfl⟩

theorem walk_stats_fetched {array : List memcached_stat_st}
    (h : FiguresFetched memory world ptr stats_args array) :
    walk_stats memory world stray ptr states stats_args cb =
      match walkServers 0 (hostPort stray.1 stray.2) (stats_args.map fun s => cString s.bytes) cb
        ptr.servers.length ⟨(Heap.empty.alloc array).2, []⟩ with
      | (some exit, walking) =>
        ⟨exit, walking.calls, states, (Heap.empty.alloc (statsClone ptr)).2, walking.stats⟩
      | (none, walking) =>
        ⟨.returned SUCCESS, walking.calls, recordReturnErr ptr states SUCCESS,
          (Heap.empty.alloc (statsClone ptr)).2.release (some 0) id, walking.stats⟩ := by
  obtain ⟨rfl, hfetch⟩ := h
  have hservers : (statsClone ptr).servers = addedServers ptr := by
    rw [statsClone_eq]
    rfl
  simp only [walk_stats, memcached_stat_array, if_true, hservers, hfetch, Option.map_some]
  rfl

/-! ## What the error path promises -/

def FailsForOne (world : StatsWorld) (ptr : StatsSt) (stats_args : Option Raw) : Prop :=
  ∃ (i : Nat) (server : ServerAddr), (addedServers ptr)[i]? = some server ∧
    ∀ stat, memcached_stat_st.ascii_stats_fetch (world i server)
      (stats_args.map fun s => cString s.bytes) zeroedStat ≠ some (stat, SUCCESS)

/-- `walk_stats` returns a false value without a call, its code is in the
state of the calling `$memc`, and no pointer was NULL. -/
structure ReportsFailure (ptr : StatsSt) (states : Heap memcached_return_t) (w : Walked) :
    Prop where
  exit : w.exit = .no
  silent : w.calls = []
  recorded : ∃ i rc, ptr.user_data = some i ∧ w.states.contents i = some rc ∧
    LMC_RETURN_OK rc = false
  tame : w.states.wild = states.wild

end

/-- A failure of the stats request is never reported: whichever hosts fail,
the code is recorded through a NULL pointer. -/
theorem a_failing_host_is_never_reported (memory : Bool) (world : StatsWorld)
    (stray : Bytes × UInt16) (ptr : StatsSt) (states : Heap memcached_return_t)
    (stats_args : Option Raw) (cb : StatsCallback) (h : FailsForOne world ptr stats_args) :
    ¬ ReportsFailure ptr states (walk_stats memory world stray ptr states stats_args cb) := by
  have hnone : ∀ array, ¬ FiguresFetched memory world ptr stats_args array := by
    rintro array ⟨-, hfetch⟩
    obtain ⟨i, server, hi, hfail⟩ := h
    obtain ⟨stat, hstat⟩ := fetchFigures_success hfetch hi
    rw [Nat.zero_add] at hstat
    exact hfail stat hstat
  intro hreports
  have hexit := hreports.exit
  rw [(walk_stats_failed hnone).1] at hexit
  cases hexit

def refusingHost : Network 1 where
  connect _ := CONNECTION_FAILURE
  connect_code _ := Or.inr rfl
  accepts _ _ := false
  answer _ _ := ([], .closed)
  poll _ _ := []

def twoHostsSt : StatsSt := ⟨true, some 0, [⟨ascii ['h'], 1, .tcp⟩, ⟨ascii ['h'], 2, .tcp⟩], false⟩

def oneState : Heap memcached_return_t := (Heap.empty.alloc SUCCESS).2

/-- The theorem at two hosts that refuse the connect. -/
theorem two_refused_connects_are_not_reported :
    ¬ ReportsFailure twoHostsSt oneState
      (walk_stats true (fun _ _ => refusingHost) ([], 0) twoHostsSt oneState none fun _ _ => .empty) :=
  a_failing_host_is_never_reported true (fun _ _ => refusingHost) ([], 0) twoHostsSt oneState none _
    ⟨0, _, rfl, fun _ hstat => (nomatch hstat)⟩

/-- One host refuses the connect, and the code goes through a NULL pointer. -/
theorem a_refused_connect_is_not_reported :
    ¬ ReportsFailure { twoHostsSt with servers := [⟨ascii ['h'], 1, .tcp⟩] } oneState
      (walk_stats true (fun _ _ => refusingHost) ([], 0)
        { twoHostsSt with servers := [⟨ascii ['h'], 1, .tcp⟩] } oneState none fun _ _ => .empty) := by
  intro hreports
  exact absurd hreports.exit (by decide)

/-! ## What becomes of the array and of the clone -/

def figureCalls (hostport : Bytes) (args : Option Bytes) (stat : memcached_stat_st)
    (keys : List StatKey) : List StatsCall :=
  keys.map fun k => ⟨k.name, printField (stat k), hostport, args⟩

/-- The callback returns an empty list in each of these calls, after those of
`seen`. -/
def EmptyThroughout (cb : StatsCallback) : List StatsCall → List StatsCall → Prop
  | _, [] => True
  | seen, call :: calls => cb seen call = .empty ∧ EmptyThroughout cb (seen ++ [call]) calls

theorem walkKeys_spec {stat : Nat} (hostport : Bytes) (args : Option Bytes) (cb : StatsCallback)
    {first : memcached_stat_st} {rest : List memcached_stat_st} (keys : List StatKey)
    (walking : Walking) (hlive : walking.stats.Live stat)
    (hcontents : walking.stats.contents stat = some (first :: rest)) :
    (EmptyThroughout cb walking.calls (figureCalls hostport args first keys) ∧
      walkKeys stat hostport args cb keys walking = (none, { walking with
        calls := walking.calls ++ figureCalls hostport args first keys })) ∨
    (¬ EmptyThroughout cb walking.calls (figureCalls hostport args first keys) ∧
      ∃ calls, walkKeys stat hostport args cb keys walking = (some .died, { walking with calls })) := by
  induction keys generalizing walking with
  | nil => exact Or.inl ⟨trivial, by simp [walkKeys, figureCalls]⟩
  | cons key keys ih =>
    simp only [walkKeys, hlive, if_true, hcontents, Option.bind_some, List.head?_cons,
      get_value_of_key]
    have hcalls : figureCalls hostport args first (key :: keys) =
        ⟨key.name, printField (first key), hostport, args⟩ ::
          figureCalls hostport args first keys := rfl
    rw [hcalls]
    simp only [EmptyThroughout]
    cases hcb : cb walking.calls ⟨key.name, printField (first key), hostport, args⟩ with
    | empty =>
      rcases ih { walking with
          calls := walking.calls ++ [⟨key.name, printField (first key), hostport, args⟩] }
        hlive hcontents with ⟨hempty, hwalk⟩ | ⟨hnot, calls, hwalk⟩
      · refine Or.inl ⟨⟨rfl, hempty⟩, ?_⟩
        simp only [hwalk, List.append_assoc, List.singleton_append]
      · exact Or.inr ⟨fun he => hnot he.2, calls, hwalk⟩
    | items => exact Or.inr ⟨fun he => (nomatch he.1), _, rfl⟩
    | died => exact Or.inr ⟨fun he => (nomatch he.1), _, rfl⟩

/-- The array and the clone were released once, and the array was not read
after that. -/
structure ReleasesAll (w : Walked) : Prop where
  stats : ∀ i c, w.stats.releases i = some c → c = 1
  tame : w.stats.wild = 0
  clone : w.sts.releases 0 = some 1

theorem walkServers_released {stat : Nat} {hostport : Bytes} {args : Option Bytes}
    {cb : StatsCallback} {walking : Walking} (hdead : ¬ walking.stats.Live stat) (n : Nat) :
    walkServers stat hostport args cb (n + 1) walking =
      (some .undefined, { walking with stats := walking.stats.access (some stat) }) := by
  simp only [walkServers, memcached_stat_keys, walkKeys, hdead, if_false]

/-- The loops, once the figures of all hosts are there. -/
inductive Loops (hostport : Bytes) (args : Option Bytes) (cb : StatsCallback)
    (array : List memcached_stat_st) : Nat → Option WalkExit × Walking → Prop
  | nothing : Loops hostport args cb array 0 (none, ⟨(Heap.empty.alloc array).2, []⟩)
  | one {stat : memcached_stat_st} (harray : array = [stat])
      (hempty : EmptyThroughout cb [] (figureCalls hostport args stat memcached_stat_keys)) :
      Loops hostport args cb array 1 (none, ⟨(Heap.empty.alloc array).2.release (some 0) id,
        figureCalls hostport args stat memcached_stat_keys⟩)
  | died {n : Nat} {stat : memcached_stat_st} {stats : List memcached_stat_st}
      (calls : List StatsCall) (harray : array = stat :: stats)
      (hnot : ¬ EmptyThroughout cb [] (figureCalls hostport args stat memcached_stat_keys)) :
      Loops hostport args cb array (n + 1) (some .died, ⟨(Heap.empty.alloc array).2, calls⟩)
  | again (n : Nat) (walking : Walking) :
      Loops hostport args cb array (n + 2) (some .undefined, walking)

theorem walkServers_spec (hostport : Bytes) (args : Option Bytes) (cb : StatsCallback)
    {array : List memcached_stat_st} {n : Nat} (hlength : array.length = n) :
    Loops hostport args cb array n
      (walkServers 0 hostport args cb n ⟨(Heap.empty.alloc array).2, []⟩) := by
  have hcontents : (Heap.empty.alloc array).2.contents 0 = some array :=
    (Heap.alloc_new Heap.empty array).1
  have hlive : (Heap.empty.alloc array).2.Live 0 := (Heap.alloc_new Heap.empty array).2
  rcases n with _ | n
  · exact .nothing
  · obtain ⟨stat, stats, rfl⟩ := List.exists_cons_of_length_eq_add_one hlength
    simp only [walkServers]
    rcases walkKeys_spec hostport args cb memcached_stat_keys
      ⟨(Heap.empty.alloc (stat :: stats)).2, []⟩ hlive hcontents
      with ⟨hempty, hwalk⟩ | ⟨hnot, calls, hwalk⟩
    · rw [List.nil_append] at hwalk
      rw [hwalk]
      rcases n with _ | n
      · simp only [List.length_cons, Nat.add_right_cancel_iff, List.length_eq_zero_iff] at hlength
        subst hlength
        exact .one rfl hempty
      · have hdead : ¬ ((Heap.empty.alloc (stat :: stats)).2.release (some 0) id).Live 0 := by
          unfold Heap.Live
          rw [Heap.release_dead hlive]
          simp
        simp only
        rw [walkServers_released hdead]
        exact .again n _
    · rw [hwalk]
      exact .died calls rfl hnot

/-- A walk over two hosts or more never returns, and leaves the clone. -/
theorem walk_stats_two {memory : Bool} {world : StatsWorld} {stray : Bytes × UInt16} {ptr : StatsSt}
    {states : Heap memcached_return_t} {stats_args : Option Raw} {cb : StatsCallback}
    (h : 2 ≤ ptr.servers.length) :
    (∀ rc, (walk_stats memory world stray ptr states stats_args cb).exit ≠ .returned rc) ∧
      (walk_stats memory world stray ptr states stats_args cb).sts.releases 0 = some 0 := by
  by_cases hfetched : ∃ array, FiguresFetched memory world ptr stats_args array
  · obtain ⟨array, hfetched⟩ := hfetched
    have hlength : array.length = ptr.servers.length := by
      rw [(fetchFigures_code hfetched.2).2]
      exact List.length_map _
    have hclone : (Heap.empty.alloc (statsClone ptr)).2.Live 0 :=
      (Heap.alloc_new Heap.empty (statsClone ptr)).2
    rw [walk_stats_fetched hfetched]
    have hloops := walkServers_spec (hostPort stray.1 stray.2)
      (stats_args.map fun s => cString s.bytes) cb hlength
    generalize ptr.servers.length = n at h hloops ⊢
    generalize walkServers 0 (hostPort stray.1 stray.2) (stats_args.map fun s => cString s.bytes) cb
      n ⟨(Heap.empty.alloc array).2, []⟩ = out at hloops
    cases hloops with
    | nothing | one => omega
    | died | again => exact ⟨fun rc hrc => (nomatch hrc), hclone⟩
  · simp only [not_exists] at hfetched
    refine ⟨fun rc hrc => ?_, (walk_stats_failed hfetched).2.2⟩
    rw [(walk_stats_failed hfetched).1] at hrc
    cases hrc

/-- On every exit the array and the clone are released exactly once exactly
when there is one host, its figures are fetched, and the callback returns an
empty list in each of its calls. -/
theorem a_walk_releases_all_iff_it_walks_one_host (memory : Bool) (world : StatsWorld)
    (stray : Bytes × UInt16) (ptr : StatsSt) (states : Heap memcached_return_t)
    (stats_args : Option Raw) (cb : StatsCallback) :
    ReleasesAll (walk_stats memory world stray ptr states stats_args cb) ↔
      ptr.servers.length = 1 ∧ ∃ stat, FiguresFetched memory world ptr stats_args [stat] ∧
        EmptyThroughout cb [] (figureCalls (hostPort stray.1 stray.2)
          (stats_args.map fun s => cString s.bytes) stat memcached_stat_keys) := by
  by_cases hfetched : ∃ array, FiguresFetched memory world ptr stats_args array
  · obtain ⟨array, hfetched⟩ := hfetched
    have hlength : array.length = ptr.servers.length := by
      rw [(fetchFigures_code hfetched.2).2]
      exact List.length_map _
    have hsame : ∀ stat, FiguresFetched memory world ptr stats_args [stat] → array = [stat] := by
      rintro stat ⟨-, hstat⟩
      have := hfetched.2.symm.trans hstat
      simp only [Option.some.injEq, Prod.mk.injEq, and_true] at this
      exact this
    have hone : (Heap.empty.alloc array).2.Live 0 := (Heap.alloc_new Heap.empty array).2
    have hclone : (Heap.empty.alloc (statsClone ptr)).2.Live 0 :=
      (Heap.alloc_new Heap.empty (statsClone ptr)).2
    rw [walk_stats_fetched hfetched]
    have hloops := walkServers_spec (hostPort stray.1 stray.2)
      (stats_args.map fun s => cString s.bytes) cb hlength
    generalize ptr.servers.length = n at hlength hloops ⊢
    generalize walkServers 0 (hostPort stray.1 stray.2) (stats_args.map fun s => cString s.bytes) cb
      n ⟨(Heap.empty.alloc array).2, []⟩ = out at hloops
    cases hloops with
    | nothing =>
      constructor
      · intro hreleases
        cases hreleases.stats 0 0 hone
      · rintro ⟨hlength, -⟩
        omega
    | one harray hempty =>
      refine iff_of_true ⟨?_, ?_, Heap.release_dead hclone id⟩ ⟨by omega, _, harray ▸ hfetched, hempty⟩
      · intro i c hi
        have hlt := Heap.releases_lt hi
        simp only [Heap.length_release, Heap.length_alloc, Heap.empty, List.length_nil] at hlt
        obtain rfl : i = 0 := by omega
        exact Option.some.inj (hi.symm.trans (Heap.release_dead hone id))
      · exact Heap.wild_release_live hone id
    | died calls harray hnot =>
      constructor
      · intro hreleases
        cases hreleases.stats 0 0 hone
      · rintro ⟨-, stat, hstat, hempty⟩
        have := harray.symm.trans (hsame stat hstat)
        simp only [List.cons.injEq] at this
        rw [this.1] at hnot
        exact absurd hempty hnot
    | again n walking =>
      constructor
      · intro hreleases
        cases hclone.symm.trans hreleases.clone
      · rintro ⟨hlength, -⟩
        omega
  · simp only [not_exists] at hfetched
    constructor
    · intro hreleases
      have hclone := hreleases.clone
      rw [(walk_stats_failed hfetched).2.2] at hclone
      cases hclone
    · rintro ⟨-, stat, hstat, -⟩
      exact absurd hstat (hfetched [stat])

/-! ## Hosts that answer -/

/-- A host, and the figures that it sends. -/
structure StatsServer where
  addr : ServerAddr
  pairs : List StatPair
  chunks : List Chunk
  whole : bytesOf chunks = statsText pairs
  fault : Fault

def StatsServer.net (server : StatsServer) : Network 1 where
  connect _ := SUCCESS
  connect_code _ := Or.inl rfl
  accepts _ _ := true
  answer _ _ := (server.chunks, server.fault)
  poll _ fds := fds

def nobody : Network 1 where
  connect _ := HOST_LOOKUP_FAILURE
  connect_code _ := Or.inr rfl
  accepts _ _ := false
  answer _ _ := ([], .closed)
  poll _ _ := []

/-- Each host can be reached at its own address only. -/
def serving (servers : List StatsServer) : StatsWorld := fun i addr =>
  match servers[i]? with
  | some server => if addr = server.addr then server.net else nobody
  | none => nobody

theorem fetch_nobody (args : Option Bytes) (stat stat' : memcached_stat_st) :
    memcached_stat_st.ascii_stats_fetch nobody args stat ≠ some (stat', SUCCESS) := by
  unfold memcached_stat_st.ascii_stats_fetch
  split_ifs
  · simp
  · simp [memcached_vdo, memcached_connect, nobody, memcached_server_st.init]

theorem length_statsText (pairs : List StatPair) : pairs.length < (statsText pairs).length := by
  induction pairs with
  | nil => decide
  | cons p pairs ih =>
    have hline : p.line.length ≠ 0 := by
      unfold StatPair.line
      simp
    rw [statsText_cons, List.length_append, List.length_cons]
    omega

def StatsServer.host (server : StatsServer) (args : Option Bytes) : memcached_server_st :=
  ⟨true, 1, Input.empty.feed server.chunks, server.fault, [], [statsCommand args]⟩

theorem fetch_server (server : StatsServer) (args : Option Bytes) (stat : memcached_stat_st) :
    memcached_stat_st.ascii_stats_fetch server.net args stat =
      if MEMCACHED_DEFAULT_COMMAND_SIZE ≤ (statsCommand args).length then some (stat, WRITE_FAILURE)
      else memcached_stat_st.readLines ((server.host args).input.bytes.length + 1)
        (server.host args) memcached_result_create stat := by
  have hcommand : statsCommand args ≠ [] := by
    cases args <;> simp [statsCommand]
  unfold memcached_stat_st.ascii_stats_fetch
  split_ifs
  · rfl
  · simp [memcached_vdo, memcached_connect, memcached_io_write, StatsServer.net,
      memcached_server_st.init, hcommand, memcached_server_st.response_increment, UINT32_MAX,
      StatsServer.host]

/-- The figures of one host are fetched exactly when the request and all
lines fit, and each value can be stored. -/
theorem fetch_server_iff (server : StatsServer) (args : Option Bytes)
    (stat stat' : memcached_stat_st) :
    memcached_stat_st.ascii_stats_fetch server.net args stat = some (stat', SUCCESS) ↔
      (statsCommand args).length < MEMCACHED_DEFAULT_COMMAND_SIZE ∧
        (∀ p ∈ server.pairs, p.Fits) ∧ storePairs stat server.pairs = some stat' := by
  have hbytes : (server.host args).input.bytes = statsText server.pairs := by
    simp [StatsServer.host, server.whole]
  have hfuel : server.pairs.length < (server.host args).input.bytes.length + 1 := by
    have := length_statsText server.pairs
    rw [hbytes]
    omega
  rw [fetch_server]
  by_cases hlong : MEMCACHED_DEFAULT_COMMAND_SIZE ≤ (statsCommand args).length
  · simp [hlong, Nat.not_lt.mpr hlong]
  · simp only [hlong, if_false, Nat.not_le.mp hlong, true_and]
    constructor
    · intro hread
      have hfits := fits_of_readLines _ rfl hbytes hfuel hread
      rw [readLines_pairs hfits _ _ _ rfl hbytes hfuel] at hread
      obtain ⟨stat₁, hstat, heq⟩ := Option.map_eq_some_iff.mp hread
      cases heq
      exact ⟨hfits, hstat⟩
    · rintro ⟨hfits, hstat⟩
      rw [readLines_pairs hfits _ _ _ rfl hbytes hfuel, hstat]
      rfl

/-! ## What the callback is told -/

/-- `walk_stats` returns true, after one call for each figure of each host, in
the order of the hosts. -/
structure Reports (servers : List StatsServer) (stats_args : Raw) (w : Walked) : Prop where
  exit : ∃ rc, w.exit = .returned rc ∧ LMC_RETURN_OK rc = true
  calls : w.calls.map (fun call => (call.key, call.value, call.hostport)) =
    servers.flatMap fun server => server.pairs.map fun p =>
      (p.key, p.value, hostPort server.addr.hostname server.addr.port)
  args : ∀ call ∈ w.calls, ∃ args, call.args = some args ∧ Raw.Eq ⟨args, false⟩ stats_args

/-- One TCP host is walked over, it sends the known figures in their order,
each is printed as it was sent, the arguments fit the request and are a C
string of bytes, and the stray host is this one. -/
structure Reportable (stray : Bytes × UInt16) (stats_args : Raw) (server : StatsServer) :
    Prop where
  tcp : server.addr.type = .tcp ∧ server.addr.port ≠ 0
  fits : (statsCommand (some (cString stats_args.bytes))).length < MEMCACHED_DEFAULT_COMMAND_SIZE
  plain : Raw.Eq ⟨cString stats_args.bytes, false⟩ stats_args
  keys : server.pairs.map (·.key) = memcached_stat_keys.map (·.name)
  values : ∀ kp ∈ memcached_stat_keys.zip server.pairs, PrintsBack kp.1 kp.2.value
  stray : hostPort stray.1 stray.2 = hostPort server.addr.hostname server.addr.port

theorem add_self_iff (addr : ServerAddr) :
    ServerAddr.add addr.hostname addr.port = addr ↔ addr.type = .tcp ∧ addr.port ≠ 0 := by
  obtain ⟨hostname, port, type⟩ := addr
  unfold ServerAddr.add
  simp only [ServerAddr.mk.injEq, true_and]
  constructor
  · rintro ⟨hport, rfl⟩
    refine ⟨rfl, ?_⟩
    rintro rfl
    exact absurd hport (by decide)
  · rintro ⟨rfl, hport⟩
    exact ⟨if_neg hport, rfl⟩

theorem keys_nodup : memcached_stat_keys.Nodup := by decide

theorem figures_eq_iff {hostport hostport' : Bytes} (printed : StatKey → Bytes)
    (ks : List StatKey) (pairs : List StatPair) :
    ks.map (fun k => (k.name, printed k, hostport)) =
        pairs.map (fun p => (p.key, p.value, hostport')) ↔
      pairs.map (·.key) = ks.map (·.name) ∧ (∀ kp ∈ ks.zip pairs, printed kp.1 = kp.2.value) ∧
        (ks = [] ∨ hostport = hostport') := by
  induction ks generalizing pairs with
  | nil => cases pairs <;> simp
  | cons k ks ih =>
    rcases pairs with _ | ⟨p, pairs⟩
    · simp
    · simp only [List.map_cons, List.cons.injEq, Prod.mk.injEq, ih, List.zip_cons_cons,
        List.forall_mem_cons, reduceCtorEq, false_or]
      constructor
      · rintro ⟨⟨hkey, hvalue, hhost⟩, hkeys, hvalues, -⟩
        exact ⟨⟨hkey.symm, hkeys⟩, ⟨hvalue, hvalues⟩, hhost⟩
      · rintro ⟨⟨hkey, hkeys⟩, ⟨hvalue, hvalues⟩, hhost⟩
        exact ⟨⟨hkey.symm, hvalue, hhost⟩, hkeys, hvalues, Or.inr hhost⟩

theorem figureCalls_eq_iff {hostport hostport' : Bytes} {args : Option Bytes}
    {stat : memcached_stat_st} {pairs : List StatPair}
    (hstore : storePairs zeroedStat pairs = some stat) :
    (figureCalls hostport args stat memcached_stat_keys).map
        (fun call => (call.key, call.value, call.hostport)) =
      pairs.map (fun p => (p.key, p.value, hostport')) ↔
    pairs.map (·.key) = memcached_stat_keys.map (·.name) ∧
      (∀ kp ∈ memcached_stat_keys.zip pairs, PrintsBack kp.1 kp.2.value) ∧ hostport = hostport' := by
  unfold figureCalls
  rw [List.map_map]
  refine (figures_eq_iff (fun k => printField (stat k)) memcached_stat_keys pairs).trans ?_
  apply and_congr_right
  intro hkeys
  obtain ⟨hfields, -⟩ := (storePairs_iff keys_nodup hkeys zeroedStat stat).mp hstore
  have hvalue : ∀ kp ∈ memcached_stat_keys.zip pairs,
      (printField (stat kp.1) = kp.2.value ↔ PrintsBack kp.1 kp.2.value) := by
    intro kp hkp
    rw [← prints_back_iff, hfields kp hkp]
    simp
  refine and_congr (forall₂_congr hvalue) ?_
  simp [memcached_stat_keys]

def silent : StatsCallback := fun _ _ => .empty

theorem silent_throughout (seen calls : List StatsCall) : EmptyThroughout silent seen calls := by
  induction calls generalizing seen with
  | nil => trivial
  | cons call calls ih => exact ⟨rfl, ih _⟩

theorem fetchFigures_one {world : StatsWorld} {args : Option Bytes} {i : Nat} {addr : ServerAddr}
    {array : List memcached_stat_st} :
    fetchFigures world args i [addr] = some (array, SUCCESS) ↔
      ∃ stat, array = [stat] ∧
        memcached_stat_st.ascii_stats_fetch (world i addr) args zeroedStat = some (stat, SUCCESS) := by
  simp only [fetchFigures]
  rcases memcached_stat_st.ascii_stats_fetch (world i addr) args zeroedStat with _ | ⟨stat, rc⟩
  · simp
  · simp only [Option.some.injEq, Prod.mk.injEq, ite_eq_left_iff, reduceCtorEq, imp_false, not_not]
    constructor
    · rintro ⟨rfl, rfl⟩
      exact ⟨stat, rfl, rfl, rfl⟩
    · rintro ⟨stat', rfl, rfl, rfl⟩
      exact ⟨rfl, rfl⟩

theorem figures_of_one {server : StatsServer} {ptr : StatsSt} (hptr : ptr.servers = [server.addr])
    {stats_args : Raw} {array : List memcached_stat_st} :
    FiguresFetched true (serving [server]) ptr (some stats_args) array ↔
      (server.addr.type = .tcp ∧ server.addr.port ≠ 0) ∧
        (statsCommand (some (cString stats_args.bytes))).length < MEMCACHED_DEFAULT_COMMAND_SIZE ∧
        (∀ p ∈ server.pairs, p.Fits) ∧
        ∃ stat, array = [stat] ∧ storePairs zeroedStat server.pairs = some stat := by
  have hadded : addedServers ptr = [ServerAddr.add server.addr.hostname server.addr.port] := by
    unfold addedServers
    rw [hptr]
    rfl
  unfold FiguresFetched
  rw [hadded, fetchFigures_one, ← add_self_iff]
  simp only [true_and, Option.map_some]
  by_cases hself : ServerAddr.add server.addr.hostname server.addr.port = server.addr
  · have hnet : serving [server] 0 (ServerAddr.add server.addr.hostname server.addr.port) =
        server.net := by
      unfold serving
      simp [hself]
    rw [hnet]
    simp only [fetch_server_iff, hself, true_and]
    constructor
    · rintro ⟨stat, harray, hcommand, hfits, hstat⟩
      exact ⟨hcommand, hfits, stat, harray, hstat⟩
    · rintro ⟨hcommand, hfits, stat, harray, hstat⟩
      exact ⟨stat, harray, hcommand, hfits, hstat⟩
  · have hnet : serving [server] 0 (ServerAddr.add server.addr.hostname server.addr.port) =
        nobody := by
      unfold serving
      simp [hself]
    rw [hnet]
    constructor
    · rintro ⟨stat, -, hstat⟩
      exact absurd hstat (fetch_nobody _ _ _)
    · rintro ⟨hyes, -⟩
      exact absurd hyes hself

theorem walk_stats_one {memory : Bool} {world : StatsWorld} (stray : Bytes × UInt16) {ptr : StatsSt}
    (states : Heap memcached_return_t) {stats_args : Option Raw} {stat : memcached_stat_st}
    (hptr : ptr.servers.length = 1) (h : FiguresFetched memory world ptr stats_args [stat]) :
    (walk_stats memory world stray ptr states stats_args silent).exit = .returned SUCCESS ∧
      (walk_stats memory world stray ptr states stats_args silent).calls =
        figureCalls (hostPort stray.1 stray.2) (stats_args.map fun s => cString s.bytes) stat
          memcached_stat_keys := by
  rw [walk_stats_fetched h, hptr]
  have hone : [stat].length = 1 := rfl
  have hloops := walkServers_spec (hostPort stray.1 stray.2)
    (stats_args.map fun s => cString s.bytes) silent hone
  generalize walkServers 0 (hostPort stray.1 stray.2) (stats_args.map fun s => cString s.bytes)
    silent _ ⟨(Heap.empty.alloc [stat]).2, []⟩ = out at hloops
  cases hloops with
  | one harray hempty =>
    cases harray
    exact ⟨rfl, rfl⟩
  | died calls harray hnot => exact absurd (silent_throughout _ _) hnot

/-- With a callback that returns an empty list, `walk_stats` reports the
figures of one or more hosts exactly when there is one host, and it is
reportable. -/
theorem a_walk_reports_the_figures_iff_one_host_is_reportable (stray : Bytes × UInt16)
    (ptr : StatsSt) (states : Heap memcached_return_t) (stats_args : Raw) (server : StatsServer)
    (servers : List StatsServer) :
    Reports (server :: servers) stats_args
        (walk_stats true (serving (server :: servers)) stray
          { ptr with servers := (server :: servers).map (·.addr) } states (some stats_args) silent) ↔
      servers = [] ∧ Reportable stray stats_args server := by
  rcases servers with _ | ⟨second, servers⟩
  · have hptr : ({ ptr with servers := [server].map (·.addr) } : StatsSt).servers = [server.addr] :=
      rfl
    generalize ({ ptr with servers := [server].map (·.addr) } : StatsSt) = ptr at hptr ⊢
    have hlength : ptr.servers.length = 1 := by
      rw [hptr]
      rfl
    simp only [true_and]
    constructor
    · rintro ⟨⟨rc, hexit, -⟩, hcalls, hargs⟩
      by_cases hfetched : ∃ array, FiguresFetched true (serving [server]) ptr (some stats_args) array
      · obtain ⟨array, hfetched⟩ := hfetched
        obtain ⟨htcp, hcommand, hfits, stat, rfl, hstore⟩ := (figures_of_one hptr).mp hfetched
        obtain ⟨-, hmade⟩ := walk_stats_one stray states hlength hfetched
        rw [hmade] at hcalls hargs
        rw [List.flatMap_singleton] at hcalls
        obtain ⟨hkeys, hvalues, hstray⟩ := (figureCalls_eq_iff hstore).mp hcalls
        obtain ⟨args, hsome, hplain⟩ := hargs _ (List.mem_cons_self ..)
        cases hsome
        exact ⟨htcp, hcommand, hplain, hkeys, hvalues, hstray⟩
      · simp only [not_exists] at hfetched
        rw [(walk_stats_failed hfetched).1] at hexit
        cases hexit
    · rintro ⟨htcp, hcommand, hplain, hkeys, hvalues, hstray⟩
      obtain ⟨stat, hstore⟩ := storePairs_some hkeys zeroedStat hvalues
      have hfits := fits_of_prints_back hkeys hvalues
      obtain ⟨hexit, hmade⟩ := walk_stats_one stray states hlength
        ((figures_of_one hptr).mpr ⟨htcp, hcommand, hfits, stat, rfl, hstore⟩)
      refine ⟨⟨SUCCESS, hexit, rfl⟩, ?_, ?_⟩
      · rw [hmade, List.flatMap_singleton]
        exact (figureCalls_eq_iff hstore).mpr ⟨hkeys, hvalues, hstray⟩
      · rw [hmade]
        intro call hcall
        obtain ⟨k, -, rfl⟩ := List.mem_map.mp hcall
        exact ⟨_, rfl, hplain⟩
  · have htwo : 2 ≤ ({ ptr with servers := (server :: second :: servers).map (·.addr) } :
        StatsSt).servers.length := by
      simp
    constructor
    · rintro ⟨⟨rc, hexit, -⟩, -, -⟩
      exact absurd hexit ((walk_stats_two htwo).1 rc)
    · rintro ⟨hnil, -⟩
      cases hnil

/-- A host on a port that sends nothing but the end of its figures. -/
def emptyServer (port : UInt16) : StatsServer where
  addr := ⟨ascii ['h'], port, .tcp⟩
  pairs := []
  chunks := Chunks.whole endText
  whole := by simp [statsText]
  fault := .timeout

/-- Two hosts are not walked over: the array is released after the first. -/
theorem two_hosts_are_not_reported :
    ¬ Reports [emptyServer 1, emptyServer 2] ⟨[], false⟩
      (walk_stats true (serving [emptyServer 1, emptyServer 2]) (ascii ['h'], 1) twoHostsSt oneState
        (some ⟨[], false⟩) silent) := by
  intro hreports
  obtain ⟨rc, hexit, -⟩ := hreports.exit
  have htwo : 2 ≤ twoHostsSt.servers.length := Nat.le_refl 2
  exact (walk_stats_two htwo).1 rc hexit

/-- Their clone is not released, and the array is read after its release. -/
theorem a_walk_over_two_hosts_reads_a_released_array :
    ¬ ReleasesAll (walk_stats true (serving [emptyServer 1, emptyServer 2]) (ascii ['h'], 1)
      twoHostsSt oneState (some ⟨[], false⟩) silent) := by
  intro hreleases
  have htwo : 2 ≤ twoHostsSt.servers.length := Nat.le_refl 2
  cases (walk_stats_two htwo).2.symm.trans hreleases.clone

end Libmemcached
