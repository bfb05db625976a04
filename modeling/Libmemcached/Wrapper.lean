-- The calls of the Perl module (libmemcached.xs), with what the typemap does
-- to their arguments and results.
import Libmemcached.Callbacks
import Libmemcached.Storage

open Chunks Override

namespace Libmemcached

open memcached_return_t

variable {n : Nat}

/-- `lmc_state_st`, the state behind a `$memc`. -/
structure lmc_state_st (n : Nat) where
  ptr : memcached_st n
  cb_context : lmc_cb_context_st
  last_return : memcached_return_t

/-- The state after `new`, once the hosts and the behaviours are set. -/
def lmc_state_new (ptr : memcached_st n) : lmc_state_st n := ⟨ptr, .new, SUCCESS⟩

/-- How a call ends: it returns, or an exception leaves it. -/
inductive XS (n : Nat) (α : Type)
  | returned (state : lmc_state_st n) (a : α)
  | croaked (state : lmc_state_st n)

/-- The state that a call leaves. -/
def XS.state {α : Type} : XS n α → lmc_state_st n
  | .returned state _ => state
  | .croaked state => state

/-- The scalar that the output typemap of `memcached_return` sets. -/
inductive ReturnSV
  | yes
  | no
  | undefined
deriving DecidableEq

/-- T_RETURN, output. -/
def returnSV (rc : memcached_return_t) : ReturnSV :=
  if LMC_RETURN_OK rc then .yes else if rc = NOTFOUND then .no else .undefined

/-- T_RETURN, input: the integer value of such a scalar, as a code. -/
def returnOfSV : ReturnSV → memcached_return_t
  | .yes => FAILURE
  | .no | .undefined => SUCCESS

/-- `LMC_RECORD_RETURN_ERR`. -/
def recordReturn (state : lmc_state_st n) (rc : memcached_return_t) : lmc_state_st n :=
  { state with last_return := rc }

/-- `set_callback_coderefs`. -/
def xs_set_callback_coderefs (state : lmc_state_st n) (set_cb get_cb : Option Coderef) :
    lmc_state_st n :=
  { state with cb_context := { state.cb_context with set_cb, get_cb } }

/-! ## Fetching one value -/

/-- What `memcached_get` gives back: the value, and its `$flags` and `$rc`. -/
structure Got where
  value : SV
  flags : UInt32
  error : memcached_return_t

/-- `_fetch_one_sv`. `flags` is what `flags_ptr` points to before the call,
and `error` the code of the request. -/
def fetch_one_sv (net : Network n) (state : lmc_state_st n) (flags : UInt32)
    (error : memcached_return_t) : XS n Got :=
  if error ≠ SUCCESS then .returned state ⟨none, flags, error⟩
  else
    let context := { state.cb_context with dest_sv := .scalar, scalar := none, flags,
                                           result_count := 0 }
    match memcached_fetch_execute net state.ptr
        (storeScalar state.ptr.support_cas context.get_cb) context with
    | .returned ptr context error =>
      let error := if context.result_count = 0 ∧ (error = SUCCESS ∨ error = END) then NOTFOUND
        else if 0 < context.result_count ∧ error = END then SUCCESS
        else error
      .returned { state with ptr, cb_context := context } ⟨context.scalar, context.flags, error⟩
    | .died ptr context => .croaked { state with ptr, cb_context := context }

namespace XS

/-- The code of a `memcached_return` output is recorded. -/
def record (rc : Got → memcached_return_t) : XS n Got → XS n Got
  | .returned state got => .returned (recordReturn state (rc got)) got
  | .croaked state => .croaked state

end XS

/-- `memcached_get`. -/
def xs_memcached_get (net : Network n) (state : lmc_state_st n) (key : SV) (flags : UInt32) :
    XS n Got :=
  let (ptr, error) := memcached_mget_by_key net state.ptr none [SvPV key]
  (fetch_one_sv net { state with ptr } flags error).record (·.error)

/-- `memcached_get_by_key`. -/
def xs_memcached_get_by_key (net : Network n) (state : lmc_state_st n) (master_key key : SV)
    (flags : UInt32) : XS n Got :=
  let (ptr, error) := memcached_mget_by_key net state.ptr (some (SvPV master_key)) [SvPV key]
  (fetch_one_sv net { state with ptr } flags error).record (·.error)

/-- The argument of the `get` method: a key, or an array of a master key and
a key. -/
inductive GetKey
  | key (key : SV)
  | array (master_key key : SV)

/-- The `get` method. It returns the value only, and records nothing. -/
def xs_get (net : Network n) (state : lmc_state_st n) (key : GetKey) : XS n Got :=
  let (ptr, error) := match key with
    | .key key => memcached_mget_by_key net state.ptr none [SvPV key]
    | .array master_key key =>
      memcached_mget_by_key net state.ptr (some (SvPV master_key)) [SvPV key]
  fetch_one_sv net { state with ptr } 0 error

/-! ## Fetching into a hash -/

/-- `_fetch_all_into_hashref`. `rc` is the code of the request. -/
def fetch_all_into_hashref (net : Network n) (state : lmc_state_st n) (rc : memcached_return_t)
    (dest_ref : HV) : XS n (HV × memcached_return_t) :=
  let context := { state.cb_context with dest_hv := dest_ref, result_count := 0 }
  if LMC_RETURN_OK rc = false then
    .returned { state with cb_context := context } (dest_ref, if rc = NOTFOUND then SUCCESS else rc)
  else
    match memcached_fetch_execute net state.ptr
        (storeHash state.ptr.support_cas context.get_cb) context with
    | .returned ptr context rc =>
      .returned { state with ptr, cb_context := context }
        (context.dest_hv, if rc = NOTFOUND ∨ rc = SUCCESS then SUCCESS else rc)
    | .died ptr context => .croaked { state with ptr, cb_context := context }

/-- `mget_into_hashref`, for the keys that `_prep_keys_lengths` takes from its
argument. -/
def xs_mget_into_hashref (net : Network n) (state : lmc_state_st n) (keys : List Bytes)
    (dest_ref : HV) : XS n (HV × memcached_return_t) :=
  let (ptr, rc) := memcached_mget net state.ptr keys
  match fetch_all_into_hashref net { state with ptr } rc dest_ref with
  | .returned state (hv, rc) => .returned (recordReturn state rc) (hv, rc)
  | .croaked state => .croaked state

/-- `get_multi`, into a hash of its own. It drops the code. -/
def xs_get_multi (net : Network n) (state : lmc_state_st n) (keys : List Bytes) : XS n HV :=
  let (ptr, rc) := memcached_mget net state.ptr keys
  match fetch_all_into_hashref net { state with ptr } rc (fun _ => none) with
  | .returned state (hv, _) => .returned state hv
  | .croaked state => .croaked state

/-! ## Requests and results apart -/

/-- `memcached_mget_by_key` and, without a master key, `memcached_mget`. -/
def xs_memcached_mget (net : Network n) (state : lmc_state_st n) (master_key : Option SV)
    (keys : List Bytes) : lmc_state_st n × memcached_return_t :=
  let (ptr, rc) := memcached_mget_by_key net state.ptr (master_key.map SvPV) keys
  (recordReturn { state with ptr } rc, rc)

/-- `memcached_string_c_copy`: an empty string gives NULL. -/
def memcached_string_c_copy (string : memcached_string_st) : Option Bytes :=
  if string.bytes.length = 0 then none else some string.bytes

/-- What `memcached_fetch` gives back: the value, NULL when there is none, the
bytes of `key` up to its length, and the flags and the code. -/
structure Fetched where
  value : Option Bytes
  key : Bytes
  flags : UInt32
  error : memcached_return_t

/-- `memcached_fetch` of libmemcached, with USE_UDP off
(`Numbered.memcached_fetch` has that branch). The key goes through `strncpy`. -/
def memcached_fetch (net : Network n) (ptr : memcached_st n) (flags : UInt32)
    (error : memcached_return_t) : memcached_st n × Fetched :=
  match memcached_fetch_result net ptr error with
  | (false, ptr, error) => (ptr, ⟨none, [], flags, error⟩)
  | (true, ptr, error) =>
    if error ≠ SUCCESS then (ptr, ⟨none, [], flags, error⟩)
    else if MEMCACHED_MAX_KEY < ptr.result.item_key.length then
      (ptr, ⟨none, [], flags, KEY_TOO_BIG⟩)
    else
      (ptr, ⟨memcached_string_c_copy ptr.result.value, strncpy ptr.result.item_key,
        ptr.result.item_flags, error⟩)

/-- `memcached_fetch` of the module: the value, which NULL makes undef, and
the new `$key`, `$flags` and `$rc`. -/
def xs_memcached_fetch (net : Network n) (state : lmc_state_st n) (flags : UInt32)
    (error : ReturnSV) : lmc_state_st n × (SV × Bytes × UInt32 × ReturnSV) :=
  let (ptr, fetched) := memcached_fetch net state.ptr flags (returnOfSV error)
  (recordReturn { state with ptr } fetched.error,
    (sv_setpvn fetched.value, fetched.key, fetched.flags, returnSV fetched.error))

/-! ## Storing -/

/-- The scalars that live during a storage call: the caller's own, and behind
them the copies that the set callback is given. -/
structure Pad where
  strings : List SV
  numbers : List UInt64
deriving DecidableEq

/-- The caller's `$key`, `$value` and `$flags`. -/
def callerPad (key value : SV) (flags : UInt64) : Pad := ⟨[key, value], [flags]⟩

/-- What T_VALUE:pre_call ends with: the pad, and the value and the flags to
send. -/
inductive PreCall (n : Nat)
  | ready (state : lmc_state_st n) (pad : Pad) (value : Bytes) (flags : UInt32)
  | croaked (state : lmc_state_st n)

/-- T_VALUE:pre_call, with the set callback fired on copies. -/
def pre_call (state : lmc_state_st n) (pad : Pad) : PreCall n :=
  let key := SvPV (pad.strings.getD 0 none)
  let flags := flagsOfUV (pad.numbers.getD 0 0)
  match state.cb_context.set_cb with
  | none => .ready state pad (SvPV (pad.strings.getD 1 none)) flags
  | some callback =>
    let value_sv := pad.strings.length + 1
    let flags_sv := pad.numbers.length
    let pad : Pad :=
      ⟨pad.strings ++ [some key, pad.strings.getD 1 none], pad.numbers ++ [uvOfFlags flags]⟩
    let invocation := ⟨key, pad.strings.getD value_sv none, pad.numbers.getD flags_sv 0, none⟩
    let calls := state.cb_context.calls
    let state := { state with cb_context.calls := calls ++ [invocation] }
    match cb_fire_perl_cb callback invocation calls with
    | .empty value flags =>
      let pad : Pad := ⟨pad.strings.set value_sv value, pad.numbers.set flags_sv flags⟩
      .ready state pad (SvPV (pad.strings.getD value_sv none))
        (flagsOfUV (pad.numbers.getD flags_sv 0))
    | .items _ _ | .died _ => .croaked state

/-- A storage call of the module, around the call of libmemcached. -/
def xs_store (state : lmc_state_st n)
    (send : memcached_st n → Bytes → Bytes → UInt64 → UInt32 → memcached_st n × memcached_return_t)
    (key value : SV) (expiration flags : UInt64) : XS n (memcached_return_t × Pad) :=
  match pre_call state (callerPad key value flags) with
  | .croaked state => .croaked state
  | .ready state pad value flags =>
    let (ptr, rc) := send state.ptr (SvPV key) value expiration flags
    .returned (recordReturn { state with ptr } rc) (rc, pad)

def xs_memcached_set (net : Network n) (state : lmc_state_st n) (key value : SV)
    (expiration flags : UInt64) : XS n (memcached_return_t × Pad) :=
  xs_store state (memcached_set net) key value expiration flags

def xs_memcached_set_by_key (net : Network n) (state : lmc_state_st n) (master_key key value : SV)
    (expiration flags : UInt64) : XS n (memcached_return_t × Pad) :=
  xs_store state (memcached_set_by_key net · (SvPV master_key)) key value expiration flags

def xs_memcached_add (net : Network n) (state : lmc_state_st n) (key value : SV)
    (expiration flags : UInt64) : XS n (memcached_return_t × Pad) :=
  xs_store state (memcached_add net) key value expiration flags

def xs_memcached_add_by_key (net : Network n) (state : lmc_state_st n) (master_key key value : SV)
    (expiration flags : UInt64) : XS n (memcached_return_t × Pad) :=
  xs_store state (memcached_add_by_key net · (SvPV master_key)) key value expiration flags

def xs_memcached_replace (net : Network n) (state : lmc_state_st n) (key value : SV)
    (expiration flags : UInt64) : XS n (memcached_return_t × Pad) :=
  xs_store state (memcached_replace net) key value expiration flags

def xs_memcached_replace_by_key (net : Network n) (state : lmc_state_st n) (master_key key value : SV)
    (expiration flags : UInt64) : XS n (memcached_return_t × Pad) :=
  xs_store state (memcached_replace_by_key net · (SvPV master_key)) key value expiration flags

def xs_memcached_prepend (net : Network n) (state : lmc_state_st n) (key value : SV)
    (expiration flags : UInt64) : XS n (memcached_return_t × Pad) :=
  xs_store state (memcached_prepend net) key value expiration flags

def xs_memcached_prepend_by_key (net : Network n) (state : lmc_state_st n) (master_key key value : SV)
    (expiration flags : UInt64) : XS n (memcached_return_t × Pad) :=
  xs_store state (memcached_prepend_by_key net · (SvPV master_key)) key value expiration flags

def xs_memcached_append (net : Network n) (state : lmc_state_st n) (key value : SV)
    (expiration flags : UInt64) : XS n (memcached_return_t × Pad) :=
  xs_store state (memcached_append net) key value expiration flags

def xs_memcached_append_by_key (net : Network n) (state : lmc_state_st n) (master_key key value : SV)
    (expiration flags : UInt64) : XS n (memcached_return_t × Pad) :=
  xs_store state (memcached_append_by_key net · (SvPV master_key)) key value expiration flags

def xs_memcached_cas (net : Network n) (state : lmc_state_st n) (key value : SV)
    (expiration flags cas : UInt64) : XS n (memcached_return_t × Pad) :=
  xs_store state (memcached_cas net · · · · · cas) key value expiration flags

def xs_memcached_cas_by_key (net : Network n) (state : lmc_state_st n) (master_key key value : SV)
    (expiration flags cas : UInt64) : XS n (memcached_return_t × Pad) :=
  xs_store state (memcached_cas_by_key net · (SvPV master_key) · · · · cas) key value expiration
    flags

/-- `memcached_delete` and, with a master key, `memcached_delete_by_key`. -/
def xs_memcached_delete (net : Network n) (state : lmc_state_st n) (master_key : Option SV)
    (key : SV) (expiration : UInt64) : lmc_state_st n × memcached_return_t :=
  let (ptr, rc) := match master_key with
    | none => memcached_delete net state.ptr (SvPV key) expiration
    | some master_key =>
      memcached_delete_by_key net state.ptr (SvPV master_key) (SvPV key) expiration
  (recordReturn { state with ptr } rc, rc)

end Libmemcached
