-- The return codes of libmemcached and its sizes (constants.h, common.h),
-- and which codes the wrapper counts as a success (libmemcached.xs).
import Mathlib.Tactic.Common

namespace Libmemcached

/-- `memcached_return_t`, in the order of the header. -/
inductive memcached_return_t
  | SUCCESS
  | FAILURE
  | HOST_LOOKUP_FAILURE
  | CONNECTION_FAILURE
  | CONNECTION_BIND_FAILURE
  | WRITE_FAILURE
  | READ_FAILURE
  | UNKNOWN_READ_FAILURE
  | PROTOCOL_ERROR
  | CLIENT_ERROR
  | SERVER_ERROR
  | CONNECTION_SOCKET_CREATE_FAILURE
  | DATA_EXISTS
  | DATA_DOES_NOT_EXIST
  | NOTSTORED
  | STORED
  | NOTFOUND
  | MEMORY_ALLOCATION_FAILURE
  | PARTIAL_READ
  | SOME_ERRORS
  | NO_SERVERS
  | END
  | DELETED
  | VALUE
  | STAT
  | ITEM
  | ERRNO
  | FAIL_UNIX_SOCKET
  | NOT_SUPPORTED
  | NO_KEY_PROVIDED
  | FETCH_NOTFINISHED
  | TIMEOUT
  | BUFFERED
  | BAD_KEY_PROVIDED
  | INVALID_HOST_PROTOCOL
  | SERVER_MARKED_DEAD
  | UNKNOWN_STAT_KEY
  | E2BIG
  | INVALID_ARGUMENTS
  | KEY_TOO_BIG
  | AUTH_PROBLEM
  | AUTH_FAILURE
  | AUTH_CONTINUE
deriving DecidableEq, Repr

open memcached_return_t

/-- `LMC_RETURN_OK`: the codes that the wrapper turns into a true value. -/
def LMC_RETURN_OK : memcached_return_t → Bool
  | SUCCESS | STORED | DELETED | END | BUFFERED => true
  | _ => false

/-- One more than the longest key of the text protocol. -/
def MEMCACHED_MAX_KEY : Nat := 251

/-- The size of the line buffer of a command or a response. -/
def MEMCACHED_DEFAULT_COMMAND_SIZE : Nat := 350

/-- The step in which a string grows. -/
def MEMCACHED_BLOCK_SIZE : Nat := 1024

/-- How many hosts one `poll` watches at most (io.c). -/
def MAX_SERVERS_TO_POLL : Nat := 100

end Libmemcached
