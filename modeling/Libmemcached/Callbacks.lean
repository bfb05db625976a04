-- The context that the three fetch callbacks of the wrapper share, and what
-- each of them does with it (libmemcached.xs).
import Libmemcached.FetchExecute
import Libmemcached.Lib.Override

open Chunks Override

namespace Libmemcached

open memcached_return_t

/-! ## Perl values -/

/-- A Perl scalar: undef, or a byte string. -/
abbrev SV := Option Bytes

/-- `SvPV`: undef reads as the empty string. -/
def SvPV (sv : SV) : Bytes := sv.getD []

/-- `sv_setpvn`: a NULL pointer makes the scalar undef. -/
def sv_setpvn (ptr : Option Bytes) : SV := ptr

/-- A plain Perl hash. -/
abbrev HV := Map Bytes SV

/-- `hv_fetch` with lval set: a key that is not there gets an undef element. -/
def hv_fetch_lval (hv : HV) (key : Bytes) : HV :=
  if hv key = none then Function.update hv key (some none) else hv

/-- `SvUV` read into a `lmc_data_flags_t`, which is a `uint32_t`. -/
def flagsOfUV (uv : UInt64) : UInt32 := uv.toUInt32

/-- `newSVuv` of a `lmc_data_flags_t`. -/
def uvOfFlags (flags : UInt32) : UInt64 := flags.toUInt64

/-! ## Perl callbacks -/

/-- What a callback is called with: `$_[0]`, `$_`, `$_[1]` and, with cas
support on a fetch, `$_[2]`. -/
structure Invocation where
  key : Bytes
  value : SV
  flags : UInt64
  cas : Option UInt64
deriving DecidableEq

/-- How a callback ends, with what it leaves in `$_` and in `$_[1]`. -/
inductive Outcome
  | empty (value : SV) (flags : UInt64)
  | items (value : SV) (flags : UInt64)
  | died (value : SV)

/-- A code reference. What it does may depend on the calls it has seen. -/
abbrev Coderef := List Invocation → Invocation → Outcome

/-- Where `dest_sv` points: to a scalar of its own, or to an element of
`dest_hv`. -/
inductive Dest
  | scalar
  | element (key : Bytes)
deriving DecidableEq

/-- `lmc_cb_context_st`. `scalar` is the scalar of a single fetch, `flags` is
what `flags_ptr` points to, and `calls` are the calls of the callbacks so
far. -/
structure lmc_cb_context_st where
  dest_sv : Dest
  scalar : SV
  dest_hv : HV
  flags : UInt32
  result_count : Nat
  get_cb : Option Coderef
  set_cb : Option Coderef
  calls : List Invocation

namespace lmc_cb_context_st

/-- The state after `lmc_state_new`. -/
def new : lmc_cb_context_st where
  dest_sv := .scalar
  scalar := none
  dest_hv _ := none
  flags := 0
  result_count := 0
  get_cb := none
  set_cb := none
  calls := []

/-- The value of the scalar that `dest_sv` points to. -/
def dest (context : lmc_cb_context_st) : SV :=
  match context.dest_sv with
  | .scalar => context.scalar
  | .element key => (context.dest_hv key).getD none

/-- Set the scalar that `dest_sv` points to. -/
def setDest (context : lmc_cb_context_st) (value : SV) : lmc_cb_context_st :=
  match context.dest_sv with
  | .scalar => { context with scalar := value }
  | .element key => { context with dest_hv := Function.update context.dest_hv key (some value) }

@[simp] theorem setDest_dest (context : lmc_cb_context_st) (value : SV) :
    (context.setDest value).dest = value := by
  cases h : context.dest_sv <;> simp [setDest, dest, h]

@[simp] theorem setDest_dest_sv (context : lmc_cb_context_st) (value : SV) :
    (context.setDest value).dest_sv = context.dest_sv := by
  cases h : context.dest_sv <;> simp [setDest, h]

@[simp] theorem setDest_flags (context : lmc_cb_context_st) (value : SV) :
    (context.setDest value).flags = context.flags := by
  cases h : context.dest_sv <;> simp [setDest, h]

@[simp] theorem setDest_result_count (context : lmc_cb_context_st) (value : SV) :
    (context.setDest value).result_count = context.result_count := by
  cases h : context.dest_sv <;> simp [setDest, h]

@[simp] theorem setDest_get_cb (context : lmc_cb_context_st) (value : SV) :
    (context.setDest value).get_cb = context.get_cb := by
  cases h : context.dest_sv <;> simp [setDest, h]

@[simp] theorem setDest_set_cb (context : lmc_cb_context_st) (value : SV) :
    (context.setDest value).set_cb = context.set_cb := by
  cases h : context.dest_sv <;> simp [setDest, h]

@[simp] theorem setDest_calls (context : lmc_cb_context_st) (value : SV) :
    (context.setDest value).calls = context.calls := by
  cases h : context.dest_sv <;> simp [setDest, h]

end lmc_cb_context_st

/-! ## The callbacks of memcached_fetch_execute -/

/-- `_cb_prep_store_into_sv_of_hv`. -/
def cb_prep_store_into_sv_of_hv : Callback lmc_cb_context_st := fun result context =>
  .returned SUCCESS { context with
    dest_hv := hv_fetch_lval context.dest_hv result.item_key
    dest_sv := .element result.item_key }

/-- `_cb_store_into_sv`. -/
def cb_store_into_sv : Callback lmc_cb_context_st := fun result context =>
  .returned SUCCESS ({ context with
    result_count := context.result_count + 1
    flags := result.item_flags }.setDest (sv_setpvn (memcached_string_value result.value)))

/-- `_cb_fire_perl_cb`: the callback is called, and a list that is not empty
is croaked on. -/
def cb_fire_perl_cb (callback : Coderef) (invocation : Invocation) (calls : List Invocation) :
    Outcome :=
  match callback calls invocation with
  | .items value _ => .died value
  | outcome => outcome

/-- `_cb_fire_perl_get_cb`. The key of a result is never empty, so `newSVpv`
takes it by its length. -/
def cb_fire_perl_get_cb (support_cas : Bool) : Callback lmc_cb_context_st := fun result context =>
  match context.get_cb with
  | none => .returned SUCCESS context
  | some callback =>
    let invocation := ⟨result.item_key, context.dest, uvOfFlags context.flags,
      if support_cas then some result.item_cas else none⟩
    let called := { context with calls := context.calls ++ [invocation] }
    match cb_fire_perl_cb callback invocation context.calls with
    | .empty value flags =>
      .returned SUCCESS ({ called with flags := flagsOfUV flags }.setDest value)
    | .items value _ | .died value => .died (called.setDest value)

/-- The callbacks for a single value (`lmc_store_sv_get`). -/
def storeScalar (support_cas : Bool) (get_cb : Option Coderef) :
    List (Callback lmc_cb_context_st) :=
  if get_cb.isSome then [cb_store_into_sv, cb_fire_perl_get_cb support_cas]
  else [cb_store_into_sv]

/-- The callbacks for a hash (`lmc_store_hv_get`). -/
def storeHash (support_cas : Bool) (get_cb : Option Coderef) : List (Callback lmc_cb_context_st) :=
  if get_cb.isSome then
    [cb_prep_store_into_sv_of_hv, cb_store_into_sv, cb_fire_perl_get_cb support_cas]
  else [cb_prep_store_into_sv_of_hv, cb_store_into_sv]

theorem prep_succeeds : SucceedsOrDies cb_prep_store_into_sv_of_hv :=
  fun _ _ => ⟨_, Or.inl rfl⟩

theorem store_succeeds : SucceedsOrDies cb_store_into_sv := fun _ _ => ⟨_, Or.inl rfl⟩

theorem fire_succeeds_or_dies (support_cas : Bool) :
    SucceedsOrDies (cb_fire_perl_get_cb support_cas) := by
  intro result context
  unfold cb_fire_perl_get_cb
  split
  · exact ⟨context, Or.inl rfl⟩
  · simp only
    split
    · exact ⟨_, Or.inl rfl⟩
    · exact ⟨_, Or.inr rfl⟩
    · exact ⟨_, Or.inr rfl⟩

theorem storeScalar_plain (support_cas : Bool) (get_cb : Option Coderef) :
    Plain (storeScalar support_cas get_cb) := by
  apply plain_of_each
  intro callback hcallback
  cases get_cb with
  | none =>
    rcases List.mem_singleton.mp hcallback with rfl
    exact store_succeeds
  | some get_cb =>
    rcases List.mem_pair.mp hcallback with rfl | rfl
    · exact store_succeeds
    · exact fire_succeeds_or_dies support_cas

theorem storeHash_plain (support_cas : Bool) (get_cb : Option Coderef) :
    Plain (storeHash support_cas get_cb) := by
  apply plain_of_each
  intro callback hcallback
  cases get_cb with
  | none =>
    rcases List.mem_pair.mp hcallback with rfl | rfl
    · exact prep_succeeds
    · exact store_succeeds
  | some get_cb =>
    rcases List.mem_cons.mp hcallback with rfl | hcallback
    · exact prep_succeeds
    · rcases List.mem_pair.mp hcallback with rfl | rfl
      · exact store_succeeds
      · exact fire_succeeds_or_dies support_cas

end Libmemcached
