-- Which host a key goes to (hash.c, and the host choice at the head of
-- storage.c, delete.c and get.c). The hash function is any function of the
-- bytes, and the distribution is any but the random one.
import Libmemcached.Constants
import Libmemcached.Lib.Decimal
import Mathlib.Data.Fin.Basic

open Chunks Decimal

namespace Libmemcached

open memcached_return_t

/-- `memcached_continuum_item_st`. -/
structure ContinuumItem (n : Nat) where
  value : UInt32
  index : Fin n

structure Continuum (n : Nat) where
  begin : ContinuumItem n
  rest : List (ContinuumItem n)

def Continuum.points {n : Nat} (c : Continuum n) : List (ContinuumItem n) := c.begin :: c.rest

/-- `memcached_server_distribution_t`, less the random one. A handle with
hosts has built the continuum that its distribution needs. -/
inductive Distribution (n : Nat)
  | MODULA
  | CONSISTENT (continuum : 0 < n → Continuum n)
  | CONSISTENT_KETAMA (continuum : 0 < n → Continuum n)
  | CONSISTENT_KETAMA_SPY (continuum : 0 < n → Continuum n)
  | CONSISTENT_MAX

/-- The fields of `memcached_st` that choose a host. No call of the wrapper
sets a prefix key, so it is empty, here and in every request. -/
structure Routing (n : Nat) where
  distribution : Distribution n
  hashkit : Bytes → UInt32
  hash_with_prefix_key : Bool

variable {n : Nat}

/-- The loop of `dispatch_host`: the first point in `[left, right)` whose value
is not below the hash. The fuel bounds the number of halvings. -/
def searchContinuum (points : List (ContinuumItem n)) (hash : UInt32) : Nat → Nat → Nat → Nat
  | 0, _, right => right
  | fuel + 1, left, right =>
    if left < right then
      let middle := left + (right - left) / 2
      if (points[middle]?.map (·.value)).getD 0 < hash then
        searchContinuum points hash fuel (middle + 1) right
      else searchContinuum points hash fuel left middle
    else right

def continuumHost (c : Continuum n) (hash : UInt32) : Fin n :=
  let num := c.points.length
  (c.points.getD (searchContinuum c.points hash num 0 num) c.begin).index

def dispatch_host (ptr : Routing n) (hn : 0 < n) (hash : UInt32) : Fin n :=
  match ptr.distribution with
  | .CONSISTENT c | .CONSISTENT_KETAMA c | .CONSISTENT_KETAMA_SPY c => continuumHost (c hn) hash
  | .MODULA | .CONSISTENT_MAX => ⟨hash.toNat % n, Nat.mod_lt _ hn⟩

/-- `strncpy(dest, src, length)` for a source of `length` bytes: what follows
the first NUL is filled with NULs. -/
def strncpy (src : Bytes) : Bytes :=
  let text := src.takeWhile (· ≠ 0)
  text ++ List.replicate (src.length - text.length) 0

/-- `_generate_hash_wrapper`. With `hash_with_prefix_key` the key is copied
behind the (empty) prefix first. -/
def generate_hash_wrapper (ptr : Routing n) (key : Bytes) : UInt32 :=
  if n = 1 then 0
  else if ptr.hash_with_prefix_key then
    if MEMCACHED_MAX_KEY - 1 < key.length then 0 else ptr.hashkit (strncpy key)
  else ptr.hashkit key

/-- `memcached_generate_hash_with_redistribution`, for a handle that ejects no
hosts. -/
def memcached_generate_hash_with_redistribution (ptr : Routing n) (hn : 0 < n) (key : Bytes) :
    Fin n :=
  dispatch_host ptr hn (generate_hash_wrapper ptr key)

/-! ## The key checks -/

def memcached_validate_key_length (key_length : Nat) (binary : Bool) : memcached_return_t :=
  if key_length = 0 then BAD_KEY_PROVIDED
  else if binary then
    if 0xffff < key_length then BAD_KEY_PROVIDED else SUCCESS
  else if MEMCACHED_MAX_KEY ≤ key_length then BAD_KEY_PROVIDED
  else SUCCESS

/-- `memcached_key_test`: every key has a length of the text protocol and only
printing characters. -/
def memcached_key_test (keys : List Bytes) : memcached_return_t :=
  if keys.all fun key =>
      memcached_validate_key_length key.length false = SUCCESS && key.all isgraph then
    SUCCESS
  else BAD_KEY_PROVIDED

end Libmemcached
