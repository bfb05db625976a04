-- Hosts that behave: each takes what is written to it and answers a text get
-- at once from what it holds, one chunk for each reply and one for the end.
import Libmemcached.Contents
import Libmemcached.FetchRuns
import Libmemcached.Requests
import Libmemcached.Wrapper

open Chunks Decimal Queues

namespace Libmemcached

open memcached_return_t

variable {n : Nat}

/-- The chunks of a text answer with these replies. -/
def textChunks (withCas : Bool) (replies : List Reply) : List Chunk :=
  (replies.map (renderText withCas) ++ [endText]).flatMap whole

@[simp] theorem bytesOf_flatMap_whole (blocks : List Bytes) :
    bytesOf (blocks.flatMap whole) = blocks.flatten := by
  induction blocks with
  | nil => rfl
  | cons b bs ih => rw [List.flatMap_cons, bytesOf_append, ih, bytesOf_whole, List.flatten_cons]

theorem bytesOf_textChunks (withCas : Bool) (replies : List Reply) :
    bytesOf (textChunks withCas replies) = replies.flatMap (renderText withCas) ++ endText := by
  rw [textChunks, bytesOf_flatMap_whole, List.flatten_append, List.flatMap_def]
  simp

/-- The network of such hosts. Those that are not `up` refuse the connect. -/
def textHosts (stores : Fin n → Store) (withCas : Bool) (up : Fin n → Bool) : Network n where
  connect s := if up s then SUCCESS else CONNECTION_FAILURE
  connect_code s := by cases up s <;> simp [isConnectFailure]
  accepts _ _ := true
  answer s request := (textChunks withCas ((stores s).replies (requestKeys request)), .timeout)
  poll _ fds := fds

theorem textHosts_takes (stores : Fin n → Store) (withCas : Bool) (up : Fin n → Bool) :
    Takes (textHosts stores withCas up) := fun _ _ => rfl

theorem textHosts_prompt (stores : Fin n → Store) (withCas : Bool) (up : Fin n → Bool) :
    Prompt (textHosts stores withCas up) := by
  intro k fds hfds
  obtain ⟨s, hs⟩ := List.exists_mem_of_ne_nil fds hfds
  exact ⟨s, hs, hs⟩

/-- They give the whole answers. -/
theorem textHosts_serves (stores : Fin n → Store) (withCas : Bool) (up : Fin n → Bool) :
    Serves (textHosts stores withCas up) stores withCas .text
      (wholeAnswer stores withCas .text) := by
  intro s keys _
  refine ⟨List.prefix_rfl, fun _ => rfl, endText, ?_, rfl⟩
  exact bytesOf_textChunks withCas _

/-! ## Two hosts

The smallest network in which one host can fail and another one not: the key
`a` goes to the first host, and every other key to the second one. -/

def keyA : Bytes := ascii ['a']

def keyB : Bytes := ascii ['b']

theorem keyA_valid : ValidKey keyA := by decide

theorem keyB_valid : ValidKey keyB := by decide

def pairRouting : Routing 2 where
  distribution := .MODULA
  hashkit key := if key = keyA then 0 else 1
  hash_with_prefix_key := false

/-- Each host holds an item under its key. -/
def pairStores (s : Fin 2) : Store :=
  if s.val = 0 then .single keyA keyA_valid ⟨1, 1, ascii ['x'], by decide⟩
  else .single keyB keyB_valid ⟨2, 2, ascii ['y', 'z'], by decide⟩

/-- A new `$memc` that speaks the text protocol with them. -/
def pairState : lmc_state_st 2 := lmc_state_new (.create pairRouting .text)

end Libmemcached
