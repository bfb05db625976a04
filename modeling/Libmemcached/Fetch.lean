-- The fetch side: which host to read next, and the loops over the results
-- (io.c, fetch.c).
import Libmemcached.Handle

open Chunks

namespace Libmemcached

open memcached_return_t memcached_server_st

variable {n : Nat} {σ : Type}

/-- The first loop of `memcached_io_get_readable_server`: a host with buffered
data, or else the hosts to poll. -/
def scanHosts (ptr : memcached_st n) : List (Fin n) → List (Fin n) → Fin n ⊕ List (Fin n)
  | [], fds => .inr fds
  | x :: xs, fds =>
    if fds.length < MAX_SERVERS_TO_POLL then
      if (ptr.servers x).input.buffered ≠ [] then .inl x
      else scanHosts ptr xs (if 0 < (ptr.servers x).cursor_active then fds ++ [x] else fds)
    else .inr fds

/-- `memcached_io_get_readable_server`. Two pending hosts have two different
sockets, so the socket that is readable names its host. -/
def memcached_io_get_readable_server (net : Network n) (ptr : memcached_st n) :
    Option (Fin n) × memcached_st n :=
  match scanHosts ptr (List.finRange n) [] with
  | .inl s => (some s, ptr)
  | .inr fds =>
    if fds.length < 2 then
      ((List.finRange n).find? fun s => 0 < (ptr.servers s).cursor_active, ptr)
    else
      (fds.find? fun s => s ∈ net.poll ptr.polls fds, { ptr with polls := ptr.polls + 1 })

/-- The end of `memcached_fetch_result` without a result. -/
def fetchNothing (ptr : memcached_st n) : memcached_st n :=
  { ptr with result := { ptr.result with value := memcached_string_reset ptr.result.value } }

/-- The loop of `memcached_fetch_result`: whether there is a result, the
handle, and what `error` points to. Each turn that goes on has read a byte. -/
def fetchResultLoop (net : Network n) :
    Nat → memcached_st n → memcached_return_t → Bool × memcached_st n × memcached_return_t
  | 0, ptr, error => (false, fetchNothing ptr, error)
  | fuel + 1, ptr, error =>
    match memcached_io_get_readable_server net ptr with
    | (none, ptr) => (false, fetchNothing ptr, error)
    | (some s, ptr) =>
      let (error, ptr) := readResponse ptr s MEMCACHED_DEFAULT_COMMAND_SIZE
      if error = SUCCESS then (true, ptr, error)
      else if error = END then
        fetchResultLoop net fuel (ptr.setServer s (ptr.servers s).response_reset) error
      else if error ≠ NOTFOUND then (false, fetchNothing ptr, error)
      else fetchResultLoop net fuel ptr error

/-- `memcached_fetch_result`, with USE_UDP off (`Numbered.memcached_fetch_result`
has that branch). -/
def memcached_fetch_result (net : Network n) (ptr : memcached_st n) (error : memcached_return_t) :
    Bool × memcached_st n × memcached_return_t :=
  fetchResultLoop net (ptr.unread + 1) ptr error

/-! ## The callbacks -/

/-- How a callback ends: with a code and the context it leaves, or by an
exception that leaves the fetch. -/
inductive Called (σ : Type)
  | returned (rc : memcached_return_t) (context : σ)
  | died (context : σ)

abbrev Callback (σ : Type) := memcached_result_st → σ → Called σ

/-- The callbacks for one result, until one does not return
MEMCACHED_SUCCESS. -/
def runCallbacks : List (Callback σ) → memcached_result_st → σ → Called σ
  | [], _, context => .returned SUCCESS context
  | callback :: callbacks, result, context =>
    match callback result context with
    | .returned SUCCESS context => runCallbacks callbacks result context
    | other => other

/-- How `memcached_fetch_execute` ends. -/
inductive Executed (n : Nat) (σ : Type)
  | returned (ptr : memcached_st n) (context : σ) (rc : memcached_return_t)
  | died (ptr : memcached_st n) (context : σ)

/-- The handle that a fetch leaves, also when a callback dies. -/
def Executed.ptr : Executed n σ → memcached_st n
  | .returned ptr _ _ => ptr
  | .died ptr _ => ptr

def fetchExecuteLoop (net : Network n) (callbacks : List (Callback σ)) :
    Nat → memcached_st n → σ → memcached_return_t → Executed n σ
  | 0, ptr, context, rc => .returned ptr context rc
  | fuel + 1, ptr, context, rc =>
    match memcached_fetch_result net ptr rc with
    | (false, ptr, rc) => .returned ptr context rc
    | (true, ptr, rc) =>
      if rc = SUCCESS then
        match runCallbacks callbacks ptr.result context with
        | .returned rc context => fetchExecuteLoop net callbacks fuel ptr context rc
        | .died context => .died ptr context
      else fetchExecuteLoop net callbacks fuel ptr context rc

/-- `memcached_fetch_execute`. -/
def memcached_fetch_execute (net : Network n) (ptr : memcached_st n)
    (callbacks : List (Callback σ)) (context : σ) : Executed n σ :=
  fetchExecuteLoop net callbacks (ptr.unread + 1) ptr context FAILURE

end Libmemcached
