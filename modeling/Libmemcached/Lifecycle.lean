-- Who owns a memcached_st: what create, clone, free, errstr and the destructor
-- do to it, to the lmc_state behind a handle, and to the two pointers between
-- them (libmemcached.xs, typemap, memcached.c).
import Libmemcached.Constants
import Libmemcached.Lib.Heaps

open Heaps

namespace Libmemcached

open memcached_return_t

/-! ## Structures and handles -/

/-- `memcached_st`, as far as its owner goes. -/
structure OwnedSt where
  user_data : Option Nat

/-- `lmc_state_st`, as far as its owner goes. -/
structure OwnedState where
  ptr : Option Nat
  last_return : memcached_return_t

/-- The class of a handle: the module or one derived from it, or the class
`REF`, which has no destructor. -/
inductive PerlClass
  | module
  | REF
deriving DecidableEq

/-- A handle: its class, its magic, the structure it was made for, and whether
the program still has it. -/
structure MemcHandle where
  cls : PerlClass
  state : Nat
  st : Nat
  inScope : Bool

/-- The memory of a program, and the handles in the order they were made. -/
structure Program where
  sts : Heap OwnedSt
  states : Heap OwnedState
  handles : List MemcHandle

def Program.empty : Program := ⟨.empty, .empty, []⟩

/-- An argument: undef, a string that may be the name of a derived class, or a
handle. An argument that is left out counts as undef. -/
inductive Arg
  | undefined
  | string (derived : Bool)
  | handle (k : Nat)

/-- How an allocation goes: there is no memory, or what follows fails, or it
succeeds. -/
inductive Allocation
  | noMemory
  | failed
  | ok
deriving DecidableEq

/-- What the allocator leaves in a structure that was released. -/
structure Residue where
  st : OwnedSt → OwnedSt
  state : OwnedState → OwnedState

/-! ## Pointer chasing -/

/-- `LMC_STATE_FROM_PTR`. -/
def LMC_STATE_FROM_PTR (p : Program) (ptr : Nat) : Option Nat × Program :=
  ((p.sts.contents ptr).bind (·.user_data), { p with sts := p.sts.access (some ptr) })

/-- `LMC_TRACE_LEVEL_FROM_PTR`: the level is 0, but it is read. -/
def LMC_TRACE_LEVEL_FROM_PTR (p : Program) : Option Nat → Program
  | none => p
  | some ptr =>
    let (lmc_state, p) := LMC_STATE_FROM_PTR p ptr
    { p with states := p.states.access lmc_state }

/-- `LMC_PTR_FROM_SV`, for the magic of a handle. -/
def LMC_PTR_FROM_SV (p : Program) (h : MemcHandle) : Option Nat × Program :=
  ((p.states.contents h.state).bind (·.ptr),
    { p with states := p.states.access (some h.state) })

/-- T_MEMCACHED, input. It croaks on what is not derived from the module. -/
def T_MEMCACHED_input (p : Program) : Arg → Option (Option Nat × Program)
  | .undefined => some (none, p)
  | .string derived => if derived then some (none, p) else none
  | .handle k =>
    match p.handles[k]? with
    | none => none
    | some h =>
      if h.cls = .module then
        let (ptr, p) := LMC_PTR_FROM_SV p h
        some (ptr, LMC_TRACE_LEVEL_FROM_PTR p ptr)
      else none

/-- The class for a new handle. `sv_reftype` of an object is that of the
reference. -/
def classFrom : Arg → PerlClass
  | .handle _ => .REF
  | .undefined | .string _ => .module

/-- T_MEMCACHED, output. -/
def T_MEMCACHED_output (p : Program) (class_sv : Arg) : Option Nat → Program
  | none => p
  | some ptr =>
    let (lmc_state, states) := p.states.alloc ⟨some ptr, SUCCESS⟩
    let sts := p.sts.write (some ptr) fun st => { st with user_data := some lmc_state }
    LMC_TRACE_LEVEL_FROM_PTR
      ⟨sts, states, p.handles ++ [⟨classFrom class_sv, lmc_state, ptr, true⟩]⟩ (some ptr)

/-! ## The calls -/

section

variable (residue : Residue)

/-- `memcached_free` of libmemcached. -/
def memcached_free (p : Program) (ptr : Nat) : Program :=
  { p with sts := p.sts.release (some ptr) residue.st }

/-- `memcached_create` of libmemcached, with NULL. -/
def memcached_create (p : Program) : Allocation → Option Nat × Program
  | .noMemory => (none, p)
  | .failed =>
    let (ptr, sts) := p.sts.alloc ⟨none⟩
    (none, memcached_free residue { p with sts } ptr)
  | .ok =>
    let (ptr, sts) := p.sts.alloc ⟨none⟩
    (some ptr, { p with sts })

/-- `memcached_clone` of libmemcached, into NULL. The clone shares the
`user_data` of its source. -/
def memcached_clone (p : Program) (source : Option Nat) (outcome : Allocation) :
    Option Nat × Program :=
  match source with
  | none => memcached_create residue p outcome
  | some source =>
    match memcached_create residue p (if outcome = .noMemory then .noMemory else .ok) with
    | (none, p) => (none, p)
    | (some ptr, p) =>
      let user_data := (p.sts.contents source).bind (·.user_data)
      let sts := (p.sts.access (some source)).write (some ptr) fun st => { st with user_data }
      if outcome = .failed then (none, memcached_free residue { p with sts } ptr)
      else (some ptr, { p with sts })

/-- `memcached_create` of the module, and `new`. -/
def xs_memcached_create (p : Program) (class_sv : Arg) (outcome : Allocation) : Program :=
  match T_MEMCACHED_input p class_sv with
  | none => p
  | some (_, p) =>
    let (ptr, p) := memcached_create residue p outcome
    T_MEMCACHED_output p class_sv ptr

/-- `memcached_clone` of the module. -/
def xs_memcached_clone (p : Program) (clone source : Arg) (outcome : Allocation) : Program :=
  match T_MEMCACHED_input p clone with
  | none => p
  | some (_, p) =>
    match T_MEMCACHED_input p source with
    | none => p
    | some (source, p) =>
      let (ptr, p) := memcached_clone residue p source outcome
      T_MEMCACHED_output p clone ptr

/-- `memcached_free` of the module. The state is looked up in the structure
that was released. -/
def xs_memcached_free (p : Program) (arg : Arg) : Program :=
  match T_MEMCACHED_input p arg with
  | none => p
  | some (none, p) => p
  | some (some ptr, p) =>
    let (lmc_state, p) := LMC_STATE_FROM_PTR (memcached_free residue p ptr) ptr
    { p with states := p.states.write lmc_state fun state => { state with ptr := none } }

/-- `errstr`: the code of the last call, or undef. -/
def xs_errstr (p : Program) (arg : Arg) : Option memcached_return_t × Program :=
  match T_MEMCACHED_input p arg with
  | none => (none, p)
  | some (none, p) => (none, p)
  | some (some ptr, p) =>
    let (lmc_state, p) := LMC_STATE_FROM_PTR p ptr
    (lmc_state.bind fun i => (p.states.contents i).map (·.last_return),
      { p with states := p.states.access lmc_state })

/-- `DESTROY`. -/
def xs_DESTROY (p : Program) (h : MemcHandle) : Program :=
  let (ptr, p) := LMC_PTR_FROM_SV p h
  let p := match ptr with
    | none => p
    | some ptr => memcached_free residue p ptr
  { p with states := (p.states.access (some h.state)).release (some h.state) residue.state }

/-- The handles without one of them. -/
def Program.without (p : Program) (k : Nat) (h : MemcHandle) : List MemcHandle :=
  p.handles.set k { h with inScope := false }

/-- The last reference to a handle goes: its destructor runs, if its class has
one. -/
def scopeExit (p : Program) (k : Nat) : Program :=
  match p.handles[k]? with
  | none => p
  | some h =>
    let p := { p with handles := p.without k h }
    if h.cls = .module then xs_DESTROY residue p h else p

/-! ## Runs -/

/-- One call, or the end of a handle. -/
inductive LifecycleOp
  | memcached_create (class_sv : Arg) (outcome : Allocation)
  | memcached_clone (clone source : Arg) (outcome : Allocation)
  | memcached_free (arg : Arg)
  | errstr (arg : Arg)
  | scopeExit (k : Nat)

/-- The handles that a step names. -/
def LifecycleOp.names : LifecycleOp → List Arg
  | .memcached_create class_sv _ => [class_sv]
  | .memcached_clone clone source _ => [clone, source]
  | .memcached_free arg => [arg]
  | .errstr arg => [arg]
  | .scopeExit k => [.handle k]

/-- A program can name a handle as long as it has it. -/
def Program.has (p : Program) : Arg → Bool
  | .undefined | .string _ => true
  | .handle k => (p.handles[k]?.map (·.inScope)).getD false

def Program.step (p : Program) (op : LifecycleOp) : Program :=
  if op.names.all p.has then
    match op with
    | .memcached_create class_sv outcome => xs_memcached_create residue p class_sv outcome
    | .memcached_clone clone source outcome => xs_memcached_clone residue p clone source outcome
    | .memcached_free arg => xs_memcached_free residue p arg
    | .errstr arg => (xs_errstr p arg).2
    | .scopeExit k => scopeExit residue p k
  else p

/-- The states that a run reaches after each of its steps. -/
def Program.reached (p : Program) : List LifecycleOp → List Program
  | [] => []
  | op :: ops => p.step residue op :: (p.step residue op).reached ops

end

/-! ## What the lifecycle promises -/

/-- Every structure is released at most once, and by the time its handle is
gone; `ptr` is NULL exactly when it was released; and nothing was touched
after its release. -/
structure Sound (p : Program) : Prop where
  once : ∀ i c, p.sts.releases i = some c → c ≤ 1
  kept : ∀ i, p.sts.Live i → ∃ h ∈ p.handles, h.inScope ∧ h.st = i
  null_iff : ∀ h ∈ p.handles, h.inScope →
    ((p.states.contents h.state).bind (·.ptr) = none ↔ ∃ c, p.sts.releases h.st = some (c + 1))
  sts_tame : p.sts.wild = 0
  states_tame : p.states.wild = 0

/-- The structure of a handle is there for `memcached_free` to release. -/
def Program.Unfreed (p : Program) (arg : Arg) : Prop :=
  ∃ k h ptr, arg = .handle k ∧ p.handles[k]? = some h ∧ h.inScope ∧ h.cls = .module ∧
    (p.states.contents h.state).bind (·.ptr) = some ptr

/-- A handle of a class without a destructor. -/
def Program.Stray (p : Program) (k : Nat) : Prop :=
  ∃ h, p.handles[k]? = some h ∧ h.inScope ∧ h.cls = .REF

/-- The steps that the lifecycle stands: no structure is released explicitly,
and no handle that was made with an object as its class is given up. -/
def Proper (p : Program) : LifecycleOp → Prop
  | .memcached_free arg => ¬ p.Unfreed arg
  | .scopeExit k => ¬ p.Stray k
  | .memcached_create .. | .memcached_clone .. | .errstr _ => True

/-- Each step of a run is proper when it is taken. -/
def ProperRun (residue : Residue) (p : Program) : List LifecycleOp → Prop
  | [] => True
  | op :: ops => Proper p op ∧ ProperRun residue (p.step residue op) ops

/-! ## The invariant -/

/-- A handle and its structure point at each other. -/
structure Holding (p : Program) (h : MemcHandle) : Prop where
  ptr : (p.states.contents h.state).bind (·.ptr) = some h.st
  live : p.sts.Live h.st
  back : (p.sts.contents h.st).bind (·.user_data) = some h.state

/-- A handle whose structure was released. -/
structure Emptied (p : Program) (h : MemcHandle) : Prop where
  cls : h.cls = .module
  ptr : (p.states.contents h.state).bind (·.ptr) = none
  released : p.sts.releases h.st = some 1

/-- What a handle owns. -/
structure Owner (p : Program) (h : MemcHandle) : Prop where
  state : p.states.Live h.state
  st : Holding p h ∨ Emptied p h

/-- The handles own their structures, each its own, and nothing else is
live. -/
structure Owned (p : Program) : Prop where
  owner : ∀ (k : Nat) h, p.handles[k]? = some h → h.inScope → Owner p h
  apart : ∀ (k l : Nat) g h, p.handles[k]? = some g → p.handles[l]? = some h → g.inScope → h.inScope →
    k ≠ l → g.state ≠ h.state ∧ g.st ≠ h.st
  once : ∀ i c, p.sts.releases i = some c → c ≤ 1
  kept : ∀ i, p.sts.Live i → ∃ h ∈ p.handles, h.inScope ∧ h.st = i

/-- Nothing was touched after its release. -/
structure Tame (p : Program) : Prop where
  sts : p.sts.wild = 0
  states : p.states.wild = 0

/-- A step that keeps the invariant and touches nothing that was released. -/
structure Kept (p q : Program) : Prop where
  owned : Owned q
  sts : q.sts.wild = p.sts.wild
  states : q.states.wild = p.states.wild

theorem Owned.sound {p : Program} (h : Owned p) (ht : Tame p) : Sound p where
  once := h.once
  kept := h.kept
  null_iff g hg hscope := by
    obtain ⟨k, hk⟩ := List.mem_iff_getElem?.mp hg
    rcases (h.owner k g hk hscope).st with hhold | hempty
    · have hlive : p.sts.releases g.st = some 0 := hhold.live
      simp [hhold.ptr, hlive]
    · simp [hempty.ptr, hempty.released]
  sts_tame := ht.sts
  states_tame := ht.states

theorem owned_empty : Owned .empty where
  owner k h hk := by simp [Program.empty] at hk
  apart k l g h hk := by simp [Program.empty] at hk
  once i c hi := by simp [Program.empty, Heap.empty, Heap.releases] at hi
  kept i hi := by simp [Program.empty, Heap.empty, Heap.Live, Heap.releases] at hi

/-- What a handle owns does not change while the two lookups behind it stay. -/
theorem Owner.frame {p q : Program} {h : MemcHandle} (ho : Owner p h)
    (hstate : q.states.contents h.state = p.states.contents h.state)
    (hstates : q.states.releases h.state = p.states.releases h.state)
    (hst : q.sts.contents h.st = p.sts.contents h.st)
    (hsts : q.sts.releases h.st = p.sts.releases h.st) : Owner q h where
  state := hstates.trans ho.state
  st := by
    rcases ho.st with hhold | hempty
    · exact Or.inl ⟨by rw [hstate]; exact hhold.ptr, hsts.trans hhold.live,
        by rw [hst]; exact hhold.back⟩
    · exact Or.inr ⟨hempty.cls, by rw [hstate]; exact hempty.ptr, hsts.trans hempty.released⟩

/-! ## Reading -/

theorem trace_level_of_holding {p : Program} {h : MemcHandle} (ho : Owner p h)
    (hhold : Holding p h) : LMC_TRACE_LEVEL_FROM_PTR p (some h.st) = p := by
  simp only [LMC_TRACE_LEVEL_FROM_PTR, LMC_STATE_FROM_PTR, hhold.back,
    Heap.access_live hhold.live, Heap.access_live ho.state]

/-- How the typemap reads an argument: no handle, a handle that was freed, or
one that holds its structure. It changes nothing. -/
inductive TypemapInput (p : Program) : Arg → Option (Option Nat × Program) → Prop
  | croak {arg : Arg} (hfree : ¬ p.Unfreed arg) : TypemapInput p arg none
  | null {arg : Arg} (hfree : ¬ p.Unfreed arg) : TypemapInput p arg (some (none, p))
  | held {k : Nat} {h : MemcHandle} (hk : p.handles[k]? = some h) (hscope : h.inScope)
      (hcls : h.cls = .module) (hhold : Holding p h) : TypemapInput p (.handle k) (some (some h.st, p))

theorem T_MEMCACHED_input_spec {p : Program} (hp : Owned p) {arg : Arg} (hhas : p.has arg) :
    TypemapInput p arg (T_MEMCACHED_input p arg) := by
  cases arg with
  | undefined =>
    apply TypemapInput.null
    rintro ⟨k, h, ptr, hk, -⟩
    cases hk
  | string derived =>
    have hfree : ¬ p.Unfreed (.string derived) := by
      rintro ⟨k, h, ptr, hk, -⟩
      cases hk
    cases derived with
    | true => exact .null hfree
    | false => exact .croak hfree
  | handle k =>
    simp only [Program.has] at hhas
    rcases hk : p.handles[k]? with _ | h
    · rw [hk] at hhas
      cases hhas
    · rw [hk] at hhas
      have hscope : h.inScope := hhas
      have ho := hp.owner k h hk hscope
      simp only [T_MEMCACHED_input, hk, LMC_PTR_FROM_SV, Heap.access_live ho.state]
      by_cases hcls : h.cls = .module
      · simp only [hcls, if_true]
        rcases ho.st with hhold | hempty
        · rw [hhold.ptr, trace_level_of_holding ho hhold]
          exact .held hk hscope hcls hhold
        · rw [hempty.ptr]
          apply TypemapInput.null
          rintro ⟨l, g, ptr, hl, hg, -, -, hptr⟩
          cases hl
          rw [hk, Option.some.injEq] at hg
          subst hg
          rw [hempty.ptr] at hptr
          cases hptr
      · simp only [hcls, if_false]
        apply TypemapInput.croak
        rintro ⟨l, g, ptr, hl, hg, -, hmodule, -⟩
        cases hl
        rw [hk, Option.some.injEq] at hg
        subst hg
        exact hcls hmodule

theorem xs_errstr_spec {p : Program} (hp : Owned p) {arg : Arg} (hhas : p.has arg) :
    (xs_errstr p arg).2 = p := by
  have hinput := T_MEMCACHED_input_spec hp hhas
  unfold xs_errstr
  generalize T_MEMCACHED_input p arg = out at hinput
  cases hinput with
  | croak | null => rfl
  | held hk hscope hcls hhold =>
    have ho := hp.owner _ _ hk hscope
    simp only [LMC_STATE_FROM_PTR, hhold.back, Heap.access_live hhold.live,
      Heap.access_live ho.state]

/-! ## Making a structure -/

/-- One structure more, or none: what was there stays, and a structure that is
not returned was released. -/
structure Created (p q : Program) (ptr : Option Nat) : Prop where
  states : q.states = p.states
  handles : q.handles = p.handles
  wild : q.sts.wild = p.sts.wild
  old : ∀ j < p.sts.blocks.length,
    q.sts.contents j = p.sts.contents j ∧ q.sts.releases j = p.sts.releases j
  new : ∀ j c, p.sts.blocks.length ≤ j → q.sts.releases j = some c →
    (ptr = some j ∧ c = 0) ∨ (ptr ≠ some j ∧ c = 1)
  fresh : ∀ i ∈ ptr, p.sts.blocks.length ≤ i ∧ q.sts.Live i

theorem created_nothing (p : Program) : Created p p none where
  states := rfl
  handles := rfl
  wild := rfl
  old _ _ := ⟨rfl, rfl⟩
  new _ _ hj hc := absurd (Heap.releases_lt hc) (Nat.not_lt.mpr hj)
  fresh i hi := by cases hi

theorem created_one {p : Program} {sts : Heap OwnedSt} {ptr : Option Nat}
    (hlength : sts.blocks.length = p.sts.blocks.length + 1) (hwild : sts.wild = p.sts.wild)
    (hold : ∀ j < p.sts.blocks.length,
      sts.contents j = p.sts.contents j ∧ sts.releases j = p.sts.releases j)
    (hnew : (ptr = some p.sts.blocks.length ∧ sts.Live p.sts.blocks.length) ∨
      (ptr = none ∧ sts.releases p.sts.blocks.length = some 1)) :
    Created p { p with sts } ptr where
  states := rfl
  handles := rfl
  wild := hwild
  old := hold
  new j c hj hc := by
    have hlt := Heap.releases_lt hc
    dsimp only at hlt hc
    obtain rfl : j = p.sts.blocks.length := by omega
    rcases hnew with ⟨rfl, hlive⟩ | ⟨rfl, hreleased⟩
    · exact Or.inl ⟨rfl, Option.some.inj (hc.symm.trans hlive)⟩
    · exact Or.inr ⟨by simp, Option.some.inj (hc.symm.trans hreleased)⟩
  fresh i hi := by
    rcases hnew with ⟨rfl, hlive⟩ | ⟨rfl, -⟩
    · cases hi
      exact ⟨Nat.le_refl _, hlive⟩
    · cases hi

theorem memcached_create_created (residue : Residue) (p : Program) (outcome : Allocation) :
    Created p (memcached_create residue p outcome).2 (memcached_create residue p outcome).1 := by
  have hnew := Heap.alloc_new p.sts ⟨none⟩
  have hold := fun j => Heap.alloc_old (i := j) p.sts ⟨none⟩
  cases outcome with
  | noMemory => exact created_nothing p
  | ok =>
    exact created_one (Heap.length_alloc _ _) rfl hold (Or.inl ⟨rfl, hnew.2⟩)
  | failed =>
    simp only [memcached_create, memcached_free]
    refine created_one (by simp) (Heap.wild_release_live hnew.2 _) (fun j hj => ?_)
      (Or.inr ⟨rfl, Heap.release_dead hnew.2 _⟩)
    have hne : some (p.sts.alloc ⟨none⟩).1 ≠ some j := by
      simp only [Heap.alloc, ne_eq, Option.some.injEq]
      omega
    have hother := Heap.release_other (p.sts.alloc ⟨none⟩).2 residue.st hne
    exact ⟨hother.1.trans (hold j hj).1, hother.2.trans (hold j hj).2⟩

theorem memcached_clone_created (residue : Residue) {p : Program} {source : Option Nat}
    (hsource : ∀ i ∈ source, p.sts.Live i) (outcome : Allocation) :
    Created p (memcached_clone residue p source outcome).2
      (memcached_clone residue p source outcome).1 := by
  cases source with
  | none => exact memcached_create_created residue p outcome
  | some i =>
    have hnew := Heap.alloc_new p.sts ⟨none⟩
    have hold := fun j => Heap.alloc_old (i := j) p.sts ⟨none⟩
    have hlive : (p.sts.alloc ⟨none⟩).2.Live i := by
      have hi := hsource i rfl
      unfold Heap.Live
      rw [(hold i (Heap.releases_lt hi)).2]
      exact hi
    have hne : ∀ j < p.sts.blocks.length, some (p.sts.alloc ⟨none⟩).1 ≠ some j := by
      intro j hj
      simp only [Heap.alloc, ne_eq, Option.some.injEq]
      omega
    -- the copy of `user_data`
    let sts := (p.sts.alloc ⟨none⟩).2.write (some (p.sts.alloc ⟨none⟩).1) fun st =>
      { st with user_data := ((p.sts.alloc ⟨none⟩).2.contents i).bind (·.user_data) }
    have hcopy : ∀ j < p.sts.blocks.length,
        sts.contents j = p.sts.contents j ∧ sts.releases j = p.sts.releases j := by
      intro j hj
      exact ⟨(Heap.contents_write_other _ _ (hne j hj)).trans (hold j hj).1,
        (Heap.releases_write _ _ _ _).trans (hold j hj).2⟩
    have hcopied : sts.Live (p.sts.alloc ⟨none⟩).1 := (Heap.releases_write _ _ _ _).trans hnew.2
    have hwild : sts.wild = p.sts.wild := Heap.wild_write_live hnew.2 _
    have hlength : sts.blocks.length = p.sts.blocks.length + 1 := by simp [sts]
    cases outcome with
    | noMemory => exact created_nothing p
    | ok =>
      simp only [memcached_clone, memcached_create, reduceCtorEq, if_false, Heap.access_live hlive]
      exact created_one hlength hwild hcopy (Or.inl ⟨rfl, hcopied⟩)
    | failed =>
      simp only [memcached_clone, memcached_create, reduceCtorEq, if_false, if_true,
        Heap.access_live hlive, memcached_free]
      refine created_one (by simp) ((Heap.wild_release_live hcopied _).trans hwild)
        (fun j hj => ?_) (Or.inr ⟨rfl, Heap.release_dead hcopied _⟩)
      have hother := Heap.release_other sts residue.st (hne j hj)
      exact ⟨hother.1.trans (hcopy j hj).1, hother.2.trans (hcopy j hj).2⟩

theorem Owner.state_lt {p : Program} {h : MemcHandle} (ho : Owner p h) :
    h.state < p.states.blocks.length := Heap.releases_lt ho.state

theorem Owner.st_lt {p : Program} {h : MemcHandle} (ho : Owner p h) :
    h.st < p.sts.blocks.length := by
  rcases ho.st with hhold | hempty
  · exact Heap.releases_lt hhold.live
  · exact Heap.releases_lt hempty.released

theorem Created.once {p q : Program} {ptr : Option Nat} (hq : Created p q ptr)
    (hp : ∀ i c, p.sts.releases i = some c → c ≤ 1) {i c : Nat} (hi : q.sts.releases i = some c) :
    c ≤ 1 := by
  rcases Nat.lt_or_ge i p.sts.blocks.length with hlt | hge
  · rw [(hq.old i hlt).2] at hi
    exact hp i c hi
  · rcases hq.new i c hge hi with ⟨-, rfl⟩ | ⟨-, rfl⟩ <;> omega

/-- A structure that was there is still that of its handle. -/
theorem Created.owner {p q : Program} {ptr : Option Nat} (hq : Created p q ptr) {h : MemcHandle}
    (ho : Owner p h) : Owner q h := by
  obtain ⟨hst, hsts⟩ := hq.old h.st ho.st_lt
  exact ho.frame (by rw [hq.states]) (by rw [hq.states]) hst hsts

theorem Created.owned_none {p q : Program} (hq : Created p q none) (hp : Owned p) : Owned q where
  owner k h hk hscope := hq.owner (hp.owner k h (hq.handles ▸ hk) hscope)
  apart := by
    rw [hq.handles]
    exact hp.apart
  once i c hi := hq.once hp.once hi
  kept i hi := by
    rcases Nat.lt_or_ge i p.sts.blocks.length with hlt | hge
    · rw [hq.handles]
      exact hp.kept i ((hq.old i hlt).2.symm.trans hi)
    · rcases hq.new i 0 hge hi with ⟨hnone, -⟩ | ⟨-, hzero⟩
      · cases hnone
      · cases hzero

/-- The new handle, its state and the structure, before the trace level is
looked at. -/
def withHandle (q : Program) (cls : PerlClass) (ptr : Nat) : Program :=
  ⟨q.sts.write (some ptr) fun st => { st with user_data := some q.states.blocks.length },
    (q.states.alloc ⟨some ptr, SUCCESS⟩).2, q.handles ++ [⟨cls, q.states.blocks.length, ptr, true⟩]⟩

theorem holding_withHandle {q : Program} {ptr : Nat} (hlive : q.sts.Live ptr) (cls : PerlClass) :
    (withHandle q cls ptr).states.Live q.states.blocks.length ∧
      Holding (withHandle q cls ptr) ⟨cls, q.states.blocks.length, ptr, true⟩ := by
  obtain ⟨hcontents, hstate⟩ := Heap.alloc_new q.states ⟨some ptr, SUCCESS⟩
  refine ⟨hstate, ?_, (Heap.releases_write _ _ _ _).trans hlive, ?_⟩
  · simp only [withHandle]
    rw [show q.states.blocks.length = (q.states.alloc ⟨some ptr, SUCCESS⟩).1 from rfl, hcontents]
    rfl
  · simp only [withHandle]
    rw [Heap.contents_write_self]
    unfold Heap.Live Heap.releases at hlive
    obtain ⟨b, hb, -⟩ := Option.map_eq_some_iff.mp hlive
    simp [Heap.contents, hb]

theorem T_MEMCACHED_output_some {q : Program} {ptr : Nat} (hlive : q.sts.Live ptr)
    (class_sv : Arg) :
    T_MEMCACHED_output q class_sv (some ptr) = withHandle q (classFrom class_sv) ptr := by
  obtain ⟨hstate, hhold⟩ := holding_withHandle hlive (classFrom class_sv)
  exact trace_level_of_holding ⟨hstate, Or.inl hhold⟩ hhold

theorem Created.owned_some {p q : Program} {ptr : Nat} (hq : Created p q (some ptr)) (hp : Owned p)
    (cls : PerlClass) : Owned (withHandle q cls ptr) := by
  obtain ⟨hfresh, hlive⟩ := hq.fresh ptr rfl
  obtain ⟨hstate, hhold⟩ := holding_withHandle hlive cls
  -- what the old handles own is not touched
  have hold : ∀ h, Owner p h → Owner (withHandle q cls ptr) h := by
    intro h ho
    have hne : some ptr ≠ some h.st := by
      have := ho.st_lt
      simp only [ne_eq, Option.some.injEq]
      omega
    have holds := Heap.alloc_old q.states ⟨some ptr, SUCCESS⟩ (hq.owner ho).state_lt
    exact (hq.owner ho).frame holds.1 holds.2 (Heap.contents_write_other _ _ hne)
      (Heap.releases_write _ _ _ _)
  have hget : ∀ (k : Nat) h, (withHandle q cls ptr).handles[k]? = some h →
      p.handles[k]? = some h ∨
        (k = p.handles.length ∧ h = ⟨cls, q.states.blocks.length, ptr, true⟩) := by
    intro k h hk
    simp only [withHandle, hq.handles] at hk
    rcases Nat.lt_trichotomy k p.handles.length with hlt | rfl | hgt
    · rw [List.getElem?_append_left hlt] at hk
      exact Or.inl hk
    · simp only [List.getElem?_concat_length, Option.some.injEq] at hk
      exact Or.inr ⟨rfl, hk.symm⟩
    · rw [List.getElem?_eq_none (by simp; omega)] at hk
      cases hk
  have hbelow : ∀ (k : Nat) h, p.handles[k]? = some h → h.inScope →
      h.state < q.states.blocks.length ∧ h.st < ptr := by
    intro k h hk hscope
    have ho := hp.owner k h hk hscope
    have hst := ho.st_lt
    have hstates := ho.state_lt
    rw [hq.states]
    exact ⟨hstates, by omega⟩
  constructor
  · intro k h hk hscope
    rcases hget k h hk with hk | ⟨-, rfl⟩
    · exact hold h (hp.owner k h hk hscope)
    · exact ⟨hstate, Or.inl hhold⟩
  · intro k l g h hk hl hg hh hkl
    rcases hget k g hk with hk | ⟨rfl, rfl⟩ <;> rcases hget l h hl with hl | ⟨rfl, rfl⟩
    · exact hp.apart k l g h hk hl hg hh hkl
    · have := hbelow k g hk hg
      exact ⟨Nat.ne_of_lt this.1, Nat.ne_of_lt this.2⟩
    · have := hbelow l h hl hh
      exact ⟨Nat.ne_of_gt this.1, Nat.ne_of_gt this.2⟩
    · exact absurd rfl hkl
  · intro i c hi
    exact hq.once hp.once ((Heap.releases_write _ _ _ _).symm.trans hi)
  · intro i hi
    have hi : q.sts.Live i := (Heap.releases_write _ _ _ _).symm.trans hi
    rcases Nat.lt_or_ge i p.sts.blocks.length with hlt | hge
    · obtain ⟨h, hh, hscope, rfl⟩ := hp.kept i ((hq.old i hlt).2.symm.trans hi)
      exact ⟨h, List.mem_append_left _ (hq.handles ▸ hh), hscope, rfl⟩
    · rcases hq.new i 0 hge hi with ⟨hsome, -⟩ | ⟨-, hzero⟩
      · cases hsome
        exact ⟨_, List.mem_append_right _ (List.mem_singleton_self _), rfl, rfl⟩
      · cases hzero

/-- A new handle owns its structure. -/
theorem T_MEMCACHED_output_spec {p q : Program} {ptr : Option Nat} (hq : Created p q ptr)
    (hp : Owned p) (class_sv : Arg) : Kept p (T_MEMCACHED_output q class_sv ptr) := by
  cases ptr with
  | none =>
    refine ⟨hq.owned_none hp, hq.wild, ?_⟩
    simp only [T_MEMCACHED_output, hq.states]
  | some ptr =>
    obtain ⟨-, hlive⟩ := hq.fresh ptr rfl
    rw [T_MEMCACHED_output_some hlive]
    refine ⟨hq.owned_some hp _, (Heap.wild_write_live hlive _).trans hq.wild, ?_⟩
    simp only [withHandle, Heap.wild_alloc, hq.states]

/-! ## Releasing a structure -/

/-- The allocator leaves `user_data` in place. -/
def Residue.Keeps (residue : Residue) : Prop := ∀ st, (residue.st st).user_data = st.user_data

theorem xs_memcached_free_of_not_unfreed (residue : Residue) {p : Program} (hp : Owned p)
    {arg : Arg} (hhas : p.has arg) (hfree : ¬ p.Unfreed arg) :
    xs_memcached_free residue p arg = p := by
  have hinput := T_MEMCACHED_input_spec hp hhas
  unfold xs_memcached_free
  generalize T_MEMCACHED_input p arg = out at hinput
  cases hinput with
  | croak | null => rfl
  | @held k h hk hscope hcls hhold =>
    exact absurd ⟨k, h, h.st, rfl, hk, hscope, hcls, hhold.ptr⟩ hfree

/-- The structure after its release, read once more. -/
def readAfterRelease (residue : Residue) (p : Program) (ptr : Nat) : Heap OwnedSt :=
  (p.sts.release (some ptr) residue.st).access (some ptr)

theorem wild_readAfterRelease (residue : Residue) {p : Program} {ptr : Nat}
    (hlive : p.sts.Live ptr) : (readAfterRelease residue p ptr).wild = p.sts.wild + 1 := by
  have hdead : ¬ (p.sts.release (some ptr) residue.st).Points (some ptr) := by
    rw [Heap.points_some]
    unfold Heap.Live
    rw [Heap.release_dead hlive]
    simp
  unfold readAfterRelease
  rw [Heap.wild_access_dead hdead, Heap.wild_release_live hlive]

/-- The explicit release of a structure: `memcached_free` reads it once more. -/
theorem xs_memcached_free_of_unfreed (residue : Residue) {p : Program} (hp : Owned p) {arg : Arg}
    (hfree : p.Unfreed arg) : ∃ (k : Nat) (h : MemcHandle), p.handles[k]? = some h ∧ h.inScope ∧ h.cls = .module ∧
      Holding p h ∧ xs_memcached_free residue p arg =
        ⟨readAfterRelease residue p h.st, p.states.write
          (((p.sts.contents h.st).map residue.st).bind (·.user_data))
          fun state => { state with ptr := none }, p.handles⟩ := by
  obtain ⟨k, h, ptr, rfl, hk, hscope, hcls, hptr⟩ := hfree
  have hhas : p.has (.handle k) := by simp [Program.has, hk, hscope]
  have hinput := T_MEMCACHED_input_spec hp hhas
  refine ⟨k, h, hk, hscope, hcls, ?_⟩
  unfold xs_memcached_free
  generalize hout : T_MEMCACHED_input p (.handle k) = out at hinput
  cases hinput with
  | croak hnot | null hnot => exact absurd ⟨k, h, ptr, rfl, hk, hscope, hcls, hptr⟩ hnot
  | @held _ g hg _ _ hhold =>
    rw [hk, Option.some.injEq] at hg
    subst hg
    refine ⟨hhold, ?_⟩
    simp only [memcached_free, LMC_STATE_FROM_PTR, Heap.contents_release_self]
    rfl

theorem wild_xs_memcached_free (residue : Residue) {p : Program} (hp : Owned p) {arg : Arg}
    (hfree : p.Unfreed arg) : (xs_memcached_free residue p arg).sts.wild = p.sts.wild + 1 := by
  obtain ⟨k, h, -, -, -, hhold, heq⟩ := xs_memcached_free_of_unfreed residue hp hfree
  rw [heq]
  exact wild_readAfterRelease residue hhold.live

/-- Where the read still finds the handle, everything else is as it should
be. -/
theorem xs_memcached_free_owned {residue : Residue} (hkeeps : residue.Keeps) {p : Program}
    (hp : Owned p) {arg : Arg} (hfree : p.Unfreed arg) :
    Owned (xs_memcached_free residue p arg) ∧
      (xs_memcached_free residue p arg).states.wild = p.states.wild := by
  obtain ⟨k, h, hk, hscope, hcls, hhold, heq⟩ := xs_memcached_free_of_unfreed residue hp hfree
  have ho := hp.owner k h hk hscope
  have hback : ((p.sts.contents h.st).map residue.st).bind (·.user_data) = some h.state := by
    have hback := hhold.back
    obtain ⟨st, hst, hdata⟩ := Option.bind_eq_some_iff.mp hback
    rw [hst]
    exact (hkeeps st).trans hdata
  rw [heq, hback]
  have hreleased := Heap.release_dead hhold.live residue.st
  have hrest : ∀ j, h.st ≠ j → (readAfterRelease residue p h.st).contents j = p.sts.contents j ∧
      (readAfterRelease residue p h.st).releases j = p.sts.releases j := by
    intro j hj
    exact Heap.release_other p.sts residue.st fun he => hj (Option.some.inj he)
  refine ⟨⟨?_, hp.apart, ?_, ?_⟩, Heap.wild_write_live ho.state _⟩
  · intro l g hl hg
    by_cases hkl : k = l
    · subst hkl
      rw [hk, Option.some.injEq] at hl
      subst hl
      refine ⟨(Heap.releases_write _ _ _ _).trans ho.state, Or.inr ⟨hcls, ?_, hreleased⟩⟩
      simp only [Heap.contents_write_self]
      cases p.states.contents h.state <;> rfl
    · obtain ⟨hstate, hst⟩ := hp.apart k l h g hk hl hscope hg hkl
      have hother := hrest g.st hst
      apply (hp.owner l g hl hg).frame
      · exact Heap.contents_write_other _ _ fun he => hstate (Option.some.inj he)
      · exact Heap.releases_write _ _ _ _
      · exact hother.1
      · exact hother.2
  · intro i c hi
    by_cases hst : h.st = i
    · subst hst
      exact Nat.le_of_eq (Option.some.inj (hi.symm.trans hreleased))
    · exact hp.once i c ((hrest i hst).2.symm.trans hi)
  · intro i hi
    have hst : h.st ≠ i := by
      rintro rfl
      cases hi.symm.trans hreleased
    exact hp.kept i ((hrest i hst).2.symm.trans hi)

/-! ## The end of a handle -/

theorem getElem?_without {p : Program} {k l : Nat} {h g : MemcHandle}
    (hl : (p.without k h)[l]? = some g) (hg : g.inScope) : k ≠ l ∧ p.handles[l]? = some g := by
  unfold Program.without at hl
  by_cases hkl : k = l
  · subst hkl
    rw [List.getElem?_set_self'] at hl
    obtain ⟨_, -, rfl⟩ := Option.map_eq_some_iff.mp hl
    cases hg
  · rw [List.getElem?_set_ne hkl] at hl
    exact ⟨hkl, hl⟩

/-- What is left of the invariant once a handle is gone, its state with it,
and its structure at the latest now. -/
theorem Owned.without {p : Program} (hp : Owned p) {k : Nat} {h : MemcHandle}
    (hk : p.handles[k]? = some h) (hscope : h.inScope) {sts : Heap OwnedSt}
    (states : OwnedState → OwnedState) (hreleased : sts.releases h.st = some 1)
    (hrest : ∀ j, h.st ≠ j →
      sts.contents j = p.sts.contents j ∧ sts.releases j = p.sts.releases j) :
    Owned ⟨sts, p.states.release (some h.state) states, p.without k h⟩ where
  owner l g hl hg := by
    obtain ⟨hkl, hl⟩ := getElem?_without hl hg
    obtain ⟨hstate, hst⟩ := hp.apart k l h g hk hl hscope hg hkl
    have hother := Heap.release_other p.states states (p := some h.state) (j := g.state)
      fun he => hstate (Option.some.inj he)
    have hsts := hrest g.st hst
    exact (hp.owner l g hl hg).frame hother.1 hother.2 hsts.1 hsts.2
  apart l m f g hl hm hf hg hlm := by
    obtain ⟨-, hl⟩ := getElem?_without hl hf
    obtain ⟨-, hm⟩ := getElem?_without hm hg
    exact hp.apart l m f g hl hm hf hg hlm
  once i c hi := by
    by_cases hst : h.st = i
    · subst hst
      exact Nat.le_of_eq (Option.some.inj (hi.symm.trans hreleased))
    · exact hp.once i c ((hrest i hst).2.symm.trans hi)
  kept i hi := by
    have hst : h.st ≠ i := by
      rintro rfl
      cases hi.symm.trans hreleased
    obtain ⟨g, hg, hgscope, rfl⟩ := hp.kept i ((hrest i hst).2.symm.trans hi)
    obtain ⟨l, hl⟩ := List.mem_iff_getElem?.mp hg
    have hkl : k ≠ l := by
      rintro rfl
      rw [hk, Option.some.injEq] at hl
      exact hst (congrArg _ hl)
    have hmem : (p.without k h)[l]? = some g := by
      unfold Program.without
      rw [List.getElem?_set_ne hkl, hl]
    exact ⟨g, List.mem_of_getElem? hmem, hgscope, rfl⟩

theorem scopeExit_kept (residue : Residue) {p : Program} (hp : Owned p) {k : Nat}
    (hstray : ¬ p.Stray k) (hhas : p.has (.handle k)) : Kept p (scopeExit residue p k) := by
  simp only [Program.has] at hhas
  rcases hk : p.handles[k]? with _ | h
  · rw [hk] at hhas
    cases hhas
  · rw [hk] at hhas
    have hscope : h.inScope := hhas
    have ho := hp.owner k h hk hscope
    have hcls : h.cls = .module := by
      cases hcls : h.cls with
      | module => rfl
      | REF => exact absurd ⟨h, hk, hscope, hcls⟩ hstray
    simp only [scopeExit, hk, hcls, if_true, xs_DESTROY, LMC_PTR_FROM_SV,
      Heap.access_live ho.state]
    rcases ho.st with hhold | hempty
    · rw [hhold.ptr]
      have hrest := fun (j : Nat) (hj : h.st ≠ j) =>
        Heap.release_other p.sts residue.st (p := some h.st) (j := j)
          fun he => hj (Option.some.inj he)
      simp only [memcached_free, Heap.access_live ho.state]
      exact ⟨hp.without hk hscope residue.state (Heap.release_dead hhold.live _) hrest,
        Heap.wild_release_live hhold.live _, Heap.wild_release_live ho.state _⟩
    · rw [hempty.ptr]
      simp only [Heap.access_live ho.state]
      exact ⟨hp.without hk hscope residue.state hempty.released fun _ _ => ⟨rfl, rfl⟩, rfl,
        Heap.wild_release_live ho.state _⟩

/-- A handle without a destructor takes its structure with it. -/
theorem scopeExit_stray (residue : Residue) {p : Program} (hp : Owned p) {k : Nat}
    (hstray : p.Stray k) : ¬ Sound (scopeExit residue p k) := by
  obtain ⟨h, hk, hscope, hcls⟩ := hstray
  intro hsound
  have hlive : p.sts.Live h.st := by
    rcases (hp.owner k h hk hscope).st with hhold | hempty
    · exact hhold.live
    · rw [hempty.cls] at hcls
      cases hcls
  have hexit : scopeExit residue p k = { p with handles := p.without k h } := by
    simp only [scopeExit, hk, hcls, reduceCtorEq, if_false]
  rw [hexit] at hsound
  obtain ⟨g, hg, hgscope, hst⟩ := hsound.kept h.st hlive
  obtain ⟨l, hl⟩ := List.mem_iff_getElem?.mp hg
  obtain ⟨hkl, hl⟩ := getElem?_without hl hgscope
  exact (hp.apart k l h g hk hl hscope hgscope hkl).2 hst.symm

/-! ## Steps and runs -/

theorem xs_memcached_create_kept (residue : Residue) {p : Program} (hp : Owned p) {class_sv : Arg}
    (hhas : p.has class_sv) (outcome : Allocation) :
    Kept p (xs_memcached_create residue p class_sv outcome) := by
  have hinput := T_MEMCACHED_input_spec hp hhas
  have houtput := T_MEMCACHED_output_spec (memcached_create_created residue p outcome) hp class_sv
  unfold xs_memcached_create
  generalize T_MEMCACHED_input p class_sv = out at hinput
  cases hinput with
  | croak => exact ⟨hp, rfl, rfl⟩
  | null | held => exact houtput

theorem xs_memcached_clone_kept (residue : Residue) {p : Program} (hp : Owned p)
    {clone source : Arg} (hclone : p.has clone) (hsource : p.has source) (outcome : Allocation) :
    Kept p (xs_memcached_clone residue p clone source outcome) := by
  have houtput : ∀ ptr : Option Nat, (∀ i ∈ ptr, p.sts.Live i) →
      Kept p (T_MEMCACHED_output (memcached_clone residue p ptr outcome).2 clone
        (memcached_clone residue p ptr outcome).1) := fun ptr hlive =>
    T_MEMCACHED_output_spec (memcached_clone_created residue hlive outcome) hp clone
  -- the argument `clone` is read, and then forgotten
  have hread : Kept p (match T_MEMCACHED_input p source with
      | none => p
      | some (source, p) => T_MEMCACHED_output (memcached_clone residue p source outcome).2 clone
          (memcached_clone residue p source outcome).1) := by
    have hinput := T_MEMCACHED_input_spec hp hsource
    generalize T_MEMCACHED_input p source = out at hinput
    cases hinput with
    | croak => exact ⟨hp, rfl, rfl⟩
    | null => exact houtput none (by simp)
    | @held k h hk hscope hcls hhold =>
      refine houtput (some h.st) fun i hi => ?_
      cases hi
      exact hhold.live
  have hinput := T_MEMCACHED_input_spec hp hclone
  unfold xs_memcached_clone
  generalize T_MEMCACHED_input p clone = out at hinput
  cases hinput with
  | croak => exact ⟨hp, rfl, rfl⟩
  | null | held => exact hread

/-- A proper step keeps everything. -/
theorem Program.step_kept (residue : Residue) {p : Program} (hp : Owned p) {op : LifecycleOp}
    (hproper : Proper p op) : Kept p (p.step residue op) := by
  unfold Program.step
  split_ifs with hhas
  · cases op with
    | memcached_create class_sv outcome =>
      exact xs_memcached_create_kept residue hp (by simpa [LifecycleOp.names] using hhas) outcome
    | memcached_clone clone source outcome =>
      simp only [LifecycleOp.names, List.all_cons, List.all_nil, Bool.and_true,
        Bool.and_eq_true] at hhas
      exact xs_memcached_clone_kept residue hp hhas.1 hhas.2 outcome
    | memcached_free arg =>
      have hsame := xs_memcached_free_of_not_unfreed residue hp
        (by simpa [LifecycleOp.names] using hhas) hproper
      simp only [hsame]
      exact ⟨hp, rfl, rfl⟩
    | errstr arg =>
      have hhas : p.has arg := by simpa [LifecycleOp.names] using hhas
      simp only [xs_errstr_spec hp hhas]
      exact ⟨hp, rfl, rfl⟩
    | scopeExit k =>
      exact scopeExit_kept residue hp hproper (by simpa [LifecycleOp.names] using hhas)
  · exact ⟨hp, rfl, rfl⟩

/-- A step that is not proper breaks the promise at once. -/
theorem Program.step_not_sound (residue : Residue) {p : Program} (hp : Owned p) {op : LifecycleOp}
    (hproper : ¬ Proper p op) : ¬ Sound (p.step residue op) := by
  cases op with
  | memcached_create | memcached_clone | errstr => exact absurd trivial hproper
  | memcached_free arg =>
    have hfree : p.Unfreed arg := not_not.mp hproper
    have hwild := wild_xs_memcached_free residue hp hfree
    obtain ⟨k, h, ptr, rfl, hk, hscope, -⟩ := hfree
    have hhas : (LifecycleOp.memcached_free (.handle k)).names.all p.has = true := by
      simp [LifecycleOp.names, Program.has, hk, hscope]
    intro hsound
    have htame := hsound.sts_tame
    unfold Program.step at htame
    simp only [hhas, if_true] at htame
    omega
  | scopeExit k =>
    have hstray : p.Stray k := not_not.mp hproper
    have hbroken := scopeExit_stray residue hp hstray
    obtain ⟨h, hk, hscope, -⟩ := hstray
    have hhas : (LifecycleOp.scopeExit k).names.all p.has = true := by
      simp [LifecycleOp.names, Program.has, hk, hscope]
    unfold Program.step
    simp only [hhas, if_true]
    exact hbroken

theorem reached_sound_iff (residue : Residue) (ops : List LifecycleOp) {p : Program} (hp : Owned p)
    (ht : Tame p) : (∀ q ∈ p.reached residue ops, Sound q) ↔ ProperRun residue p ops := by
  induction ops generalizing p with
  | nil => simp [Program.reached, ProperRun]
  | cons op ops ih =>
    simp only [Program.reached, List.forall_mem_cons, ProperRun]
    by_cases hproper : Proper p op
    · have hkept := p.step_kept residue hp hproper
      have htame : Tame (p.step residue op) := ⟨hkept.sts.trans ht.sts, hkept.states.trans ht.states⟩
      rw [ih hkept.owned htame]
      exact and_congr_left fun _ => iff_of_true (hkept.owned.sound htame) hproper
    · constructor
      · rintro ⟨hsound, -⟩
        exact absurd hsound (p.step_not_sound residue hp hproper)
      · rintro ⟨hyes, -⟩
        exact absurd hyes hproper

/-- In every run from nothing, the lifecycle keeps its promise in every state
reached exactly when no structure is released by `memcached_free`, and no
handle is given up that was made with an object as its class. -/
theorem a_lifecycle_is_sound_iff_nothing_is_freed_by_hand (residue : Residue)
    (ops : List LifecycleOp) :
    (∀ p ∈ Program.empty.reached residue ops, Sound p) ↔ ProperRun residue .empty ops :=
  reached_sound_iff residue ops owned_empty ⟨rfl, rfl⟩

/-- An allocator that leaves released memory as it was. -/
def leaveAlone : Residue := ⟨id, id⟩

/-- A handle is made, freed, and freed once more. -/
theorem freeing_by_hand_reads_a_released_structure :
    ¬ ∀ p ∈ Program.empty.reached leaveAlone
      [.memcached_create .undefined .ok, .memcached_free (.handle 0), .memcached_free (.handle 0)],
      Sound p := by
  rw [reached_sound_iff leaveAlone _ owned_empty ⟨rfl, rfl⟩]
  rintro ⟨-, hfree, -⟩
  exact hfree ⟨0, _, 0, rfl, rfl, rfl, rfl, rfl⟩

/-! ## Freeing by hand, where it happens to work -/

/-- The promise, but for the reads of released structures. -/
structure SoundButForReads (p : Program) : Prop where
  once : ∀ i c, p.sts.releases i = some c → c ≤ 1
  kept : ∀ i, p.sts.Live i → ∃ h ∈ p.handles, h.inScope ∧ h.st = i
  null_iff : ∀ h ∈ p.handles, h.inScope →
    ((p.states.contents h.state).bind (·.ptr) = none ↔ ∃ c, p.sts.releases h.st = some (c + 1))
  states_tame : p.states.wild = 0

/-- No step gives up a stray handle. -/
def NoStrays (residue : Residue) (p : Program) : List LifecycleOp → Prop
  | [] => True
  | op :: ops => (∀ k, op = .scopeExit k → ¬ p.Stray k) ∧ NoStrays residue (p.step residue op) ops

theorem Program.step_owned {residue : Residue} (hkeeps : residue.Keeps) {p : Program} (hp : Owned p)
    {op : LifecycleOp} (hstray : ∀ k, op = .scopeExit k → ¬ p.Stray k) :
    Owned (p.step residue op) ∧ (p.step residue op).states.wild = p.states.wild := by
  by_cases hproper : Proper p op
  · have hkept := p.step_kept residue hp hproper
    exact ⟨hkept.owned, hkept.states⟩
  · cases op with
    | memcached_create | memcached_clone | errstr => exact absurd trivial hproper
    | scopeExit k => exact absurd (hstray k rfl) hproper
    | memcached_free arg =>
      unfold Program.step
      split_ifs
      · exact xs_memcached_free_owned hkeeps hp (not_not.mp hproper)
      · exact ⟨hp, rfl⟩

/-- Where released memory still reads as it was, freeing by hand breaks
nothing else, however often it is done. -/
theorem reached_sound_but_for_reads {residue : Residue} (hkeeps : residue.Keeps)
    (ops : List LifecycleOp) {p : Program} (hp : Owned p) (ht : p.states.wild = 0)
    (hstrays : NoStrays residue p ops) : ∀ q ∈ p.reached residue ops, SoundButForReads q := by
  induction ops generalizing p with
  | nil => simp [Program.reached]
  | cons op ops ih =>
    obtain ⟨howned, hwild⟩ := p.step_owned hkeeps hp hstrays.1
    have htame := hwild.trans ht
    simp only [Program.reached, List.forall_mem_cons]
    refine ⟨?_, ih howned htame hstrays.2⟩
    -- the invariant gives the promise for a program whose reads are not counted
    have hsound := Owned.sound (p := { p.step residue op with
      sts := { (p.step residue op).sts with wild := 0 } })
      ⟨fun k h hk hs => (howned.owner k h hk hs).frame rfl rfl rfl rfl, howned.apart, howned.once,
        howned.kept⟩ ⟨rfl, htame⟩
    exact ⟨hsound.once, hsound.kept, hsound.null_iff, hsound.states_tame⟩

end Libmemcached
