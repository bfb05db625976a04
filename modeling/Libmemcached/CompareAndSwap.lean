-- Clients that fetch the cas of an item and store with it later. The cas leaves
-- as an integer scalar and comes back as a floating-point number.
import Libmemcached.CasHosts
import Libmemcached.HashFetch
import Libmemcached.Lib.Rounding

open Chunks Decimal Queues Rounding

namespace Libmemcached

open memcached_return_t memcached_storage_action_t

variable {n : Nat}

/-! ## The cas on its way -/

/-- T_NV on an integer scalar: `SvNV` rounds it to 53 significant bits, and the
cast makes a `uint64_t` of that. The cast of 2^64 is not defined; `overflow`
is what it gives. -/
def casOfSV (overflow : UInt64) (sv : UInt64) : UInt64 :=
  let nv := roundTo 53 sv.toNat
  if nv < UInt64.size then UInt64.ofNat nv else overflow

theorem casOfSV_of_representable (overflow : UInt64) {sv : UInt64}
    (h : Representable 53 sv.toNat) : casOfSV overflow sv = sv := by
  unfold casOfSV
  simp only [roundTo_of_representable h]
  rw [if_pos sv.toNat_lt_size]
  exact UInt64.ofNat_toNat

/-! ## The runs -/

/-- What stays the same in a run: the key, its host, what the hosts hold
beside the item, and the cast that is not defined. -/
structure Sharing (n : Nat) where
  key : Bytes
  valid : ValidKey key
  host : Fin n
  stores : Fin n → Store
  overflow : UInt64

/-- The counter of the host, the item, how often it was modified, the clients,
and for each client the scalar that it captured, with the number of
modifications then. -/
structure World (Client : Type) (n : Nat) where
  counter : UInt64
  item : Item
  modified : Nat
  clients : Client → lmc_state_st n
  captured : Client → Option (UInt64 × Nat)

inductive Action (Client : Type)
  | get (client : Client) (flags : UInt32)
  | cas (client : Client) (value : Bytes) (fits : value.length + 2 < 2 ^ 31)
      (expiration flags : UInt64)

/-- The cas of the last call of the get callback between two states. -/
def newCas (state out : lmc_state_st n) : Option UInt64 :=
  (out.cb_context.calls.drop state.cb_context.calls.length).getLast?.bind Invocation.cas

variable {Client : Type}

def World.init (item : Item) (clients : Client → lmc_state_st n) : World Client n :=
  ⟨item.cas, item, 0, clients, fun _ => none⟩

/-- The hosts, as the connection of a client sees them. -/
def Sharing.network (sharing : Sharing n) (world : World Client n) (client : Client) : Network n :=
  casHosts (world.clients client).ptr.protocol
    (Function.update sharing.stores sharing.host
      ((sharing.stores sharing.host).put sharing.key sharing.valid world.item))
    sharing.key world.item

/-- What the host of the item makes of a request. -/
def World.execute (key : Bytes) (p : Protocol) (world : World Client n) (request : Bytes) :
    World Client n :=
  match executeCas p key world.item (world.counter + 1) request with
  | some item =>
    { world with counter := world.counter + 1, item, modified := world.modified + 1 }
  | none => world

variable [DecidableEq Client]

/-- One call of one client, and what the host makes of what it is sent. A cas
carries what was captured, and a client that captured nothing makes none. -/
def World.step (sharing : Sharing n) (world : World Client n) : Action Client → World Client n
  | .get client flags =>
    let state := world.clients client
    let out := (xs_memcached_get (sharing.network world client) state (some sharing.key)
      flags).state
    let world := { world with clients := Function.update world.clients client out }
    match newCas state out with
    | some cas =>
      { world with
        captured := Function.update world.captured client (some (cas, world.modified)) }
    | none => world
  | .cas client value _ expiration flags =>
    match world.captured client with
    | none => world
    | some (sv, _) =>
      let state := world.clients client
      let out := (xs_memcached_cas (sharing.network world client) state (some sharing.key)
        (some value) expiration flags (casOfSV sharing.overflow sv)).state
      let world := { world with clients := Function.update world.clients client out }
      (requestsSince state.ptr out.ptr sharing.host).foldl
        (World.execute sharing.key state.ptr.protocol) world

def EveryStep (sharing : Sharing n) (P : World Client n → Action Client → Prop) :
    World Client n → List (Action Client) → Prop
  | _, [] => True
  | world, action :: actions =>
    P world action ∧ EveryStep sharing P (world.step sharing action) actions

/-- A get captures the cas of the item. A cas stores exactly when the item was
not modified since the get, and leaves it alone otherwise. -/
def StoresUnmodified (sharing : Sharing n) (world : World Client n) : Action Client → Prop
  | .get client flags =>
    (world.step sharing (.get client flags)).captured client =
      some (world.item.cas, world.modified)
  | .cas client value fits expiration flags =>
    ∀ sv version, world.captured client = some (sv, version) →
      let world' := world.step sharing (.cas client value fits expiration flags)
      (version = world.modified → world'.modified = world.modified + 1 ∧
        world'.item = ⟨flagsOfUV flags, world.counter + 1, value, fits⟩) ∧
      (version ≠ world.modified → world'.modified = world.modified ∧ world'.item = world.item)

/-- The step sends a cas that survives the way: it has no more than 53
significant bits, is not 0 in the text protocol, and 64 bits can tell it from
the cas that the item has by now. -/
def CasSurvives (world : World Client n) : Action Client → Prop
  | .get _ _ => True
  | .cas client _ _ _ _ => ∀ sv version, world.captured client = some (sv, version) →
      Representable 53 sv.toNat ∧ ((world.clients client).ptr.protocol = .text → sv ≠ 0) ∧
        world.modified - version < UInt64.size

/-! ## One step -/

/-- Between two steps: every client is as it was, and every cas counts the
modifications from the start. -/
structure CountsFrom (sharing : Sharing n) (start : UInt64) (world : World Client n) : Prop where
  clients : ∀ client, CasClient sharing.key sharing.host (world.clients client)
  counter : world.counter = start + UInt64.ofNat world.modified
  item : world.item.cas = start + UInt64.ofNat world.modified
  captured : ∀ client sv version, world.captured client = some (sv, version) →
    sv = start + UInt64.ofNat version ∧ version ≤ world.modified

omit [DecidableEq Client] in
theorem countsFrom_init {sharing : Sharing n} (item : Item) {clients : Client → lmc_state_st n}
    (h : ∀ client, CasClient sharing.key sharing.host (clients client)) :
    CountsFrom sharing item.cas (World.init item clients) where
  clients := h
  counter := by simp [World.init]
  item := by simp [World.init]
  captured := by simp [World.init]

theorem casClient_update {key : Bytes} {s : Fin n} {clients : Client → lmc_state_st n}
    (h : ∀ client, CasClient key s (clients client)) {client : Client} {out : lmc_state_st n}
    (hout : CasClient key s out) :
    ∀ other, CasClient key s (Function.update clients client out other) := by
  intro other
  by_cases ho : other = client
  · subst ho
    rw [Function.update_self]
    exact hout
  · rw [Function.update_of_ne ho]
    exact h other

section step

variable (sharing : Sharing n) (world : World Client n)

theorem step_get {client : Client}
    (h : CasClient sharing.key sharing.host (world.clients client)) (flags : UInt32) :
    ∃ out, CasClient sharing.key sharing.host out ∧
      world.step sharing (.get client flags) = { world with
        clients := Function.update world.clients client out
        captured := Function.update world.captured client
          (some (world.item.cas, world.modified)) } := by
  obtain ⟨out, got, hget, hout, -, invocation, hcalls, hcas⟩ := h.get sharing.valid
    (show (Function.update sharing.stores sharing.host ((sharing.stores sharing.host).put
      sharing.key sharing.valid world.item) sharing.host).get sharing.key = some world.item by
        rw [Function.update_self, Store.put_get]) flags
  have hnew : newCas (world.clients client) out = some world.item.cas := by
    unfold newCas
    rw [hcalls, List.drop_left]
    exact hcas
  refine ⟨out, hout, ?_⟩
  unfold World.step Sharing.network
  simp only [hget, XS.state, hnew]

/-- A cas stores when what is left of the scalar on its way is the cas of the
item. -/
theorem step_cas {client : Client}
    (h : CasClient sharing.key sharing.host (world.clients client)) {sv : UInt64} {version : Nat}
    (hcaptured : world.captured client = some (sv, version)) {value : Bytes}
    (fits : value.length + 2 < 2 ^ 31) (expiration flags : UInt64) :
    ∃ out, CasClient sharing.key sharing.host out ∧
      world.step sharing (.cas client value fits expiration flags) =
        if ¬ ((world.clients client).ptr.protocol = .text ∧ casOfSV sharing.overflow sv = 0) ∧
            casOfSV sharing.overflow sv = world.item.cas then
          { world with
            counter := world.counter + 1
            item := ⟨flagsOfUV flags, world.counter + 1, value, fits⟩
            modified := world.modified + 1
            clients := Function.update world.clients client out }
        else { world with clients := Function.update world.clients client out } := by
  obtain ⟨out, rc, pad, hcall, hout, -, hhands⟩ := h.cas sharing.valid
    (Function.update sharing.stores sharing.host
      ((sharing.stores sharing.host).put sharing.key sharing.valid world.item)) world.item fits
    expiration flags (casOfSV sharing.overflow sv)
  refine ⟨out, hout, ?_⟩
  unfold World.step Sharing.network
  simp only [hcaptured, hcall, XS.state, hhands.requestsSince_host, List.foldl_cons,
    List.foldl_nil]
  unfold World.execute
  dsimp only
  rw [executeCas_storageBytes _ sharing.valid fits]
  split_ifs <;> rfl

variable {sharing world} {start : UInt64}

theorem countsFrom_step (h : CountsFrom sharing start world) (action : Action Client) :
    CountsFrom sharing start (world.step sharing action) := by
  cases action with
  | get client flags =>
    obtain ⟨out, hout, hstep⟩ := step_get sharing world (h.clients client) flags
    rw [hstep]
    refine ⟨casClient_update h.clients hout, h.counter, h.item, ?_⟩
    intro other sv version hsv
    by_cases ho : other = client
    · subst ho
      simp only [Function.update_self, Option.some.injEq, Prod.mk.injEq] at hsv
      obtain ⟨rfl, rfl⟩ := hsv
      exact ⟨h.item, Nat.le_refl _⟩
    · simp only [Function.update_of_ne ho] at hsv
      exact h.captured other sv version hsv
  | cas client value fits expiration flags =>
    rcases hcaptured : world.captured client with _ | ⟨sv, version⟩
    · have hstep : world.step sharing (.cas client value fits expiration flags) = world := by
        simp only [World.step, hcaptured]
      rw [hstep]
      exact h
    · obtain ⟨out, hout, hstep⟩ :=
        step_cas sharing world (h.clients client) hcaptured fits expiration flags
      have hclients : ∀ other, CasClient sharing.key sharing.host
          (Function.update world.clients client out other) := casClient_update h.clients hout
      rw [hstep]
      split_ifs
      · -- the item gets the next value of the counter
        have hnext : world.counter + 1 = start + UInt64.ofNat (world.modified + 1) := by
          rw [h.counter, UInt64.ofNat_add, UInt64.add_assoc]
          rfl
        refine ⟨hclients, hnext, hnext, ?_⟩
        intro other sv version hsv
        obtain ⟨hsv, hle⟩ := h.captured other sv version hsv
        exact ⟨hsv, Nat.le_succ_of_le hle⟩
      · exact ⟨hclients, h.counter, h.item, h.captured⟩

theorem modified_step (h : CountsFrom sharing start world) (action : Action Client) :
    (world.step sharing action).modified ≤ world.modified + 1 := by
  cases action with
  | get client flags =>
    obtain ⟨out, -, hstep⟩ := step_get sharing world (h.clients client) flags
    rw [hstep]
    exact Nat.le_succ _
  | cas client value fits expiration flags =>
    rcases hcaptured : world.captured client with _ | ⟨sv, version⟩
    · simp only [World.step, hcaptured]
      exact Nat.le_succ _
    · obtain ⟨out, -, hstep⟩ :=
        step_cas sharing world (h.clients client) hcaptured fits expiration flags
      rw [hstep]
      split_ifs
      · exact Nat.le_refl _
      · exact Nat.le_succ _

end step

theorem version_of_cas {start : UInt64} {version modified : Nat} (hle : version ≤ modified)
    (hclose : modified - version < UInt64.size)
    (h : start + UInt64.ofNat version = start + UInt64.ofNat modified) : version = modified := by
  have hsame : UInt64.ofNat version = UInt64.ofNat modified := UInt64.add_right_inj start |>.mp h
  have hmod := congrArg UInt64.toNat hsame
  simp only [UInt64.toNat_ofNat'] at hmod
  simp only [UInt64.size] at hclose
  omega

theorem storesUnmodified_of_survives {sharing : Sharing n} {start : UInt64}
    {world : World Client n} (h : CountsFrom sharing start world) {action : Action Client}
    (hsurvives : CasSurvives world action) : StoresUnmodified sharing world action := by
  cases action with
  | get client flags =>
    obtain ⟨out, -, hstep⟩ := step_get sharing world (h.clients client) flags
    have hcaptured : (world.step sharing (.get client flags)).captured client =
        some (world.item.cas, world.modified) := by
      rw [hstep]
      exact Function.update_self ..
    exact hcaptured
  | cas client value fits expiration flags =>
    intro sv version hsv
    obtain ⟨hbits, hzero, hclose⟩ := hsurvives sv version hsv
    obtain ⟨hcas, hle⟩ := h.captured client sv version hsv
    have hsent : ¬ ((world.clients client).ptr.protocol = .text ∧ sv = 0) :=
      fun hlost => hzero hlost.1 hlost.2
    have hsame : sv = world.item.cas ↔ version = world.modified := by
      rw [hcas, h.item]
      constructor
      · exact version_of_cas hle hclose
      · rintro rfl
        rfl
    obtain ⟨out, -, hstep⟩ := step_cas sharing world (h.clients client) hsv fits expiration flags
    rw [casOfSV_of_representable sharing.overflow hbits] at hstep
    rw [hstep]
    constructor
    · intro hunmodified
      rw [if_pos ⟨hsent, hsame.mpr hunmodified⟩]
      exact ⟨rfl, rfl⟩
    · intro hmodified
      rw [if_neg fun hand => hmodified (hsame.mp hand.2)]
      exact ⟨rfl, rfl⟩

/-! ## The law -/

/-- In every run of clients in which each cas that is sent survives the way,
`memcached_cas` stores exactly when the item was not modified since the get
whose cas it carries. -/
theorem a_surviving_cas_stores_exactly_the_unmodified_item (sharing : Sharing n) (item : Item)
    (clients : Client → lmc_state_st n)
    (hclients : ∀ client, CasClient sharing.key sharing.host (clients client))
    (actions : List (Action Client))
    (h : EveryStep sharing CasSurvives (World.init item clients) actions) :
    EveryStep sharing (StoresUnmodified sharing) (World.init item clients) actions := by
  have hrun : ∀ (actions : List (Action Client)) (world : World Client n),
      CountsFrom sharing item.cas world →
      EveryStep sharing CasSurvives world actions →
      EveryStep sharing (StoresUnmodified sharing) world actions := by
    intro actions
    induction actions with
    | nil => intros; trivial
    | cons action actions ih =>
      rintro world hcounts ⟨hsurvives, hrest⟩
      constructor
      · exact storesUnmodified_of_survives hcounts hsurvives
      · exact ih _ (countsFrom_step hcounts action) hrest
  exact hrun actions _ (countsFrom_init item hclients) h

/-- A new client whose get callback returns an empty list. -/
def casClient (p : Protocol) : lmc_state_st 2 :=
  xs_set_callback_coderefs
    (lmc_state_new { memcached_st.create pairRouting p with support_cas := true }) none
    (some fun _ invocation => .empty invocation.value invocation.flags)

theorem casClient_new (p : Protocol) : CasClient keyA 0 (casClient p) where
  synced _ := ⟨rfl, rfl, rfl⟩
  support_cas := rfl
  tested := by
    rintro ⟨hverify, -⟩
    cases hverify
  unset := rfl
  captures := ⟨_, rfl, fun _ _ => ⟨_, _, rfl⟩⟩
  routed _ := rfl

def casSharing : Sharing 2 := ⟨keyA, keyA_valid, ⟨0, Nat.zero_lt_two⟩, pairStores, 0⟩

def casPair (client : Bool) : lmc_state_st 2 := casClient (if client then .binary else .text)

theorem ascii_fits (c : Char) : (ascii [c]).length + 2 < 2 ^ 31 := by simp [ascii]

/-- A value that was stored with the counter at `start`. -/
def casItem (start : UInt64) : Item := ⟨0, start, ascii ['v'], ascii_fits 'v'⟩

def casOfLetter (client : Bool) (c : Char) : Action Bool :=
  .cas client (ascii [c]) (ascii_fits c) 0 0

/-- Both clients get, and then both store: the second one is too late. -/
def race : List (Action Bool) :=
  [.get false 0, .get true 0, casOfLetter false 'x', casOfLetter true 'y']

/-- The theorem at this race, with a counter that starts at 1. -/
theorem a_race_from_a_small_cas_is_safe :
    EveryStep casSharing (StoresUnmodified casSharing)
      (World.init (casItem 1) casPair) race := by
  have hclients : ∀ client, CasClient casSharing.key casSharing.host (casPair client) :=
    fun client => casClient_new _
  apply a_surviving_cas_stores_exactly_the_unmodified_item casSharing _ casPair hclients
  -- every cas of so short a run is small
  have hsmall : ∀ world : World Bool 2, CountsFrom casSharing (casItem 1).cas world →
      world.modified ≤ 3 → ∀ action, CasSurvives world action := by
    intro world hcounts hle action
    cases action with
    | get client flags => trivial
    | cas client value fits expiration flags =>
      intro sv version hsv
      obtain ⟨rfl, hversion⟩ := hcounts.captured client sv version hsv
      have hfew : version ≤ 3 := hversion.trans hle
      refine ⟨?_, fun _ => ?_, ?_⟩
      · interval_cases version <;> decide
      · interval_cases version <;> decide
      · simp only [UInt64.size]
        omega
  have hall : ∀ actions : List (Action Bool), ∀ world : World Bool 2,
      CountsFrom casSharing (casItem 1).cas world → world.modified + actions.length ≤ 4 →
      EveryStep casSharing CasSurvives world actions := by
    intro actions
    induction actions with
    | nil => intros; trivial
    | cons action actions ih =>
      intro world hcounts hle
      rw [List.length_cons] at hle
      have hstep := modified_step hcounts action
      exact ⟨hsmall world hcounts (by omega) action,
        ih _ (countsFrom_step hcounts action) (by omega)⟩
  exact hall race _ (countsFrom_init _ hclients) (by decide)

/-- From 2^53 + 1 the cas of a fresh get comes back as 2^53, and nothing is
stored although nobody modified the item. -/
theorem a_large_cas_does_not_store_the_unmodified_item :
    ¬ EveryStep casSharing (StoresUnmodified casSharing)
        (World.init (casItem 9007199254740993) casPair)
        [.get false 0, casOfLetter false 'x'] := by
  rintro ⟨hcaptured, hcas, -⟩
  have hclients : ∀ client, CasClient casSharing.key casSharing.host (casPair client) :=
    fun client => casClient_new _
  obtain ⟨start, hstart⟩ : ∃ start, start = casItem 9007199254740993 := ⟨_, rfl⟩
  rw [← hstart] at hcaptured hcas
  have hcounts : CountsFrom casSharing start.cas
      ((World.init start casPair).step casSharing (.get false 0)) :=
    countsFrom_step (countsFrom_init start hclients) _
  obtain ⟨out, -, hget⟩ := step_get casSharing (World.init start casPair) (hclients false) 0
  have hmodified : 0 = ((World.init start casPair).step casSharing (.get false 0)).modified := by
    rw [hget]
    rfl
  have hitem : ((World.init start casPair).step casSharing (.get false 0)).item = start := by
    rw [hget]
    rfl
  obtain ⟨out', -, hstep⟩ :=
    step_cas casSharing _ (hcounts.clients false) hcaptured (ascii_fits 'x') 0 0
  -- the cast leaves another number
  have hlost : casOfSV casSharing.overflow start.cas ≠ start.cas := by
    rw [hstart]
    decide +kernel
  rw [hitem, if_neg fun hand => hlost hand.2] at hstep
  have hstored := ((hcas _ _ hcaptured).1 hmodified).1
  rw [hstep] at hstored
  dsimp only at hstored
  rw [← hmodified] at hstored
  cases hstored

end Libmemcached
