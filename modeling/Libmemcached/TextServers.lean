-- Text hosts that also take what `memcached_set` sends: each answers a get
-- from what it holds, and a storage command with STORED.
import Libmemcached.Hosts
import Libmemcached.SentCommands
import Libmemcached.StorageWords
import Libmemcached.WholeFetch

open Chunks Decimal Queues

namespace Libmemcached

open memcached_return_t memcached_storage_action_t

variable {n : Nat}

/-! ## What a command leaves in a store -/

namespace Store

/-- The store with an item under a key. -/
def put (store : Store) (key : Bytes) (h : ValidKey key) (item : Item) : Store where
  get k := if k = key then some item else store.get k
  valid k i hk := by
    split at hk
    · rename_i he
      rw [he]
      exact h
    · exact store.valid k i hk

@[simp] theorem put_get (store : Store) (key : Bytes) (h : ValidKey key) (item : Item) :
    (store.put key h item).get key = some item := if_pos rfl

/-- What a text host does with a set. The number that the item gets is the
host's choice. -/
def executeSet (store : Store) (cas : UInt64) (request : Bytes) : Store :=
  match lineWords request with
  | [verb, key, flags, _, length] =>
    let value := dataBlock request (readDigits 0 length).1
    if h : verb = verbWord SET_OP ∧ ValidKey key ∧ value.length + 2 < 2 ^ 31 then
      store.put key h.2.1 ⟨UInt32.ofNat (readDigits 0 flags).1, cas, value, h.2.2⟩
    else store
  | _ => store

end Store

/-- A host that executes the set of `memcached_set` holds the value under the
bytes of the key. -/
theorem executeSet_storageLine (store : Store) (cas : UInt64) (key : Bytes) (hkey : ValidKey key)
    (flags : UInt32) (expiration : UInt64) (value : Bytes) (hvalue : value.length + 2 < 2 ^ 31) :
    store.executeSet cas
        (storageLine SET_OP key flags expiration value.length 0 ++ value ++ [13, 10]) =
      store.put key hkey ⟨flags, cas, value, hvalue⟩ := by
  have hwords := lineWords_storageLine SET_OP hkey flags expiration value.length 0
    (value ++ [13, 10])
  rw [storageWords_zero, ← List.append_assoc] at hwords
  have hblock := dataBlock_storageLine SET_OP hkey flags expiration value 0
  unfold Store.executeSet
  simp only [hwords, hblock]
  rw [dif_pos ⟨trivial, hkey, hvalue⟩]
  simp only [readDigits_decimal_end, UInt32.ofNat_toNat]

/-! ## The hosts -/

def storedLine : Bytes := ascii ['S', 'T', 'O', 'R', 'E', 'D', '\r', '\n']

/-- The network of such hosts, all of which are up. -/
def textServers (stores : Fin n → Store) (withCas : Bool) : Network n where
  connect _ := SUCCESS
  connect_code := connects_at_once
  accepts _ _ := true
  answer s request :=
    if (lineWords request).head? = some (verbWord SET_OP) then (whole storedLine, .timeout)
    else (textChunks withCas ((stores s).replies (requestKeys request)), .timeout)
  poll _ fds := fds

theorem textServers_takes (stores : Fin n → Store) (withCas : Bool) :
    Takes (textServers stores withCas) := fun _ _ => rfl

theorem textServers_prompt (stores : Fin n → Store) (withCas : Bool) :
    Prompt (textServers stores withCas) := by
  intro k fds hfds
  obtain ⟨s, hs⟩ := List.exists_mem_of_ne_nil fds hfds
  exact ⟨s, hs, hs⟩

theorem textServers_alive (stores : Fin n → Store) (withCas : Bool) (ptr : memcached_st n)
    (s : Fin n) : Alive (textServers stores withCas) ptr s := Or.inr rfl

/-- The first word of a get is not that of a storage command. -/
theorem head_textRequest (stored : memcached_storage_action_t) (withCas : Bool) (keys : List Bytes)
    (hkeys : ∀ k ∈ keys, OneLine k) :
    (lineWords (textRequest withCas keys)).head? ≠ some (verbWord stored) := by
  obtain ⟨verb, hword, hne, hcommand⟩ : ∃ verb, IsWord verb ∧ verb ≠ verbWord stored ∧
      getCommand withCas = verb ++ [32] := by
    cases withCas with
    | false => exact ⟨[103, 101, 116], ⟨by simp, by simp⟩, by cases stored <;> decide, rfl⟩
    | true => exact ⟨[103, 101, 116, 115], ⟨by simp, by simp⟩, by cases stored <;> decide, rfl⟩
  have hline : (textRequest withCas keys).takeWhile (· ≠ 13) =
      verb ++ 32 :: keys.flatMap (· ++ [32]) := by
    have hrequest : textRequest withCas keys =
        (verb ++ 32 :: keys.flatMap (· ++ [32])) ++ 13 :: [10] := by
      unfold textRequest
      rw [hcommand]
      simp
    rw [hrequest]
    apply takeWhile_line
    intro c hc
    rw [List.mem_append, List.mem_cons] at hc
    rcases hc with hc | rfl | hc
    · exact (hword.plain c hc).2
    · decide
    · have htake := takeWhile_keys keys hkeys []
      rw [← htake] at hc
      simpa using List.mem_takeWhile_imp hc
  unfold lineWords
  rw [hline, words_word_append hword, List.head?_cons]
  exact fun h => hne (Option.some.inj h)

/-- They give the whole answers. -/
theorem textServers_serves (stores : Fin n → Store) (withCas : Bool) :
    Serves (textServers stores withCas) stores withCas .text
      (wholeAnswer stores withCas .text) := by
  intro s keys hkeys
  refine ⟨List.prefix_rfl, fun _ => rfl, endText, ?_, rfl⟩
  unfold replyBytes textServers
  dsimp only
  rw [if_neg (head_textRequest SET_OP withCas keys hkeys)]
  exact bytesOf_textChunks withCas _

/-! ## What they hold after a call -/

/-- What a host was sent between two states of a handle. -/
def requestsSince (ptr ptr' : memcached_st n) (s : Fin n) : List Bytes :=
  (ptr'.servers s).sent.drop (ptr.servers s).sent.length

theorem Hands.requestsSince_host {ptr ptr' : memcached_st n} {s : Fin n} {requests : List Bytes}
    (h : Hands ptr ptr' s requests) : requestsSince ptr ptr' s = requests := by
  unfold requestsSince
  rw [h.host]
  exact List.drop_left

/-- What the hosts hold once each has executed what it was sent between two
states of a handle. -/
def storesAfter (stores : Fin n → Store) (cas : UInt64) (ptr ptr' : memcached_st n) (s : Fin n) :
    Store :=
  (requestsSince ptr ptr' s).foldl (fun store request => store.executeSet cas request) (stores s)

/-! ## `memcached_set` on them -/

/-- The checks that a key of the text protocol passes. -/
theorem validate_valid {key : Bytes} (h : ValidKey key) :
    memcached_validate_key_length key.length false = SUCCESS := by
  unfold memcached_validate_key_length
  rw [if_neg (mt List.length_eq_zero_iff.mp h.nonempty), if_neg (by simp),
    if_neg (Nat.not_le.mpr h.short)]

/-- What `memcached_set` sends for a value: one command, to the host of the
key. -/
def setRequest (key value : Bytes) : Bytes :=
  storageLine SET_OP key 0 0 value.length 0 ++ value ++ [13, 10]

/-- STORED, as a response line. -/
def storedResponse : ResponseLine where
  text := ascii ['S', 'T', 'O', 'R', 'E', 'D']
  one_line := by simp [ascii]
  short := by decide
  no_value := by decide

/-- `memcached_set` on hosts that store: the host of the key is sent the
command, the code is a success, and nothing is left to read from the host. -/
theorem memcached_set_stored (stores : Fin n → Store) {ptr : memcached_st n}
    {q : State (Fin n) Reply} (h : Synced ptr q) (hq : AllWhole q) (hn : 0 < n)
    (htext : ptr.protocol = .text) {key : Bytes} (hkey : ValidKey key)
    (htest : ptr.verify_key = true → memcached_key_test [key] = SUCCESS) {value : Bytes}
    (hvalue : value.length + 2 < 2 ^ 31) :
    ∃ ptr', memcached_set (textServers stores ptr.support_cas) ptr key value 0 0 =
        (ptr', SUCCESS) ∧
      Synced ptr' (Function.update q (storageHost ptr hn key) none) ∧ SameConfig ptr ptr' ∧
      Hands ptr ptr' (storageHost ptr hn key) [setRequest key value] := by
  have hpass : ¬ (ptr.verify_key = true ∧ memcached_key_test [key] = BAD_KEY_PROVIDED) := by
    rintro ⟨hverify, hbad⟩
    rw [htest hverify] at hbad
    cases hbad
  have hsize : value.length < UInt64.size := by
    simp only [UInt64.size]
    omega
  have hfits : ¬ MEMCACHED_DEFAULT_COMMAND_SIZE ≤
      (storageLine SET_OP key 0 0 value.length 0).length :=
    Nat.not_le.mpr (length_storageLine (validate_valid hkey) SET_OP 0 0 0 hsize)
  have hlength : memcached_validate_key_length key.length (ptr.protocol = .binary) = SUCCESS := by
    rw [htext]
    exact validate_valid hkey
  have hwrites : storageWrites ptr key key value 0 0 0 SET_OP =
      some (storageHost ptr hn key, setRequest key value) := by
    rw [storageWrites_accepted hn hlength hpass hsize, htext]
    rfl
  have hhands := (send_carries (textServers stores ptr.support_cas) h hwrites).up
    ⟨rfl, textServers_takes _ _ _⟩
  obtain ⟨s, hs⟩ : ∃ s, s = storageHost ptr hn key := ⟨_, rfl⟩
  obtain ⟨command, hcommand⟩ : ∃ command, command = setRequest key value := ⟨_, rfl⟩
  have hne : command ≠ [] := by
    rw [hcommand]
    simp [setRequest]
  have hanswer : bytesOf ((textServers stores ptr.support_cas).answer s command).1 =
      storedResponse.bytes := by
    have hhead := head_storageLine SET_OP hkey 0 0 value.length 0 (value ++ [13, 10])
    rw [← List.append_assoc, ← setRequest, ← hcommand] at hhead
    unfold textServers
    dsimp only
    rw [if_pos hhead]
    exact bytesOf_whole storedLine
  have hfinal : storedResponse.Final := by
    constructor
    · decide
    · decide
  have hresp : Responds (textServers stores ptr.support_cas) s command (q s) := by
    have hreplied : Replied (bytesOf ((textServers stores ptr.support_cas).answer s command).1) :=
      .line storedResponse hfinal hanswer
    rcases hqs : q s with _ | ⟨rs, _ | _⟩
    · exact hreplied
    · exact absurd (hq s _ hqs) (by simp)
    · exact hreplied
  obtain ⟨hsynced, hconfig, hcode⟩ := exchange_text h htext s command hne
    MEMCACHED_DEFAULT_COMMAND_SIZE hresp
  have hstored := hcode storedResponse hfinal hanswer (hq s) (textServers_alive _ _ _ _)
    (textServers_takes _ _)
  have hrc : storedResponse.code = STORED := by decide
  have hset : memcached_set (textServers stores ptr.support_cas) ptr key value 0 0 =
      ((exchange (textServers stores ptr.support_cas) ptr s command
        MEMCACHED_DEFAULT_COMMAND_SIZE).1, SUCCESS) := by
    unfold memcached_set memcached_send memcached_send_text
    simp only [htext, reduceCtorEq, decide_false, validate_valid hkey, ne_eq, not_true, if_false,
      hn, dif_pos, hpass]
    rw [if_neg hfits, ← setRequest, ← hs, ← hcommand]
    simp only [hstored, hrc, if_true, reduceCtorEq, if_false]
  refine ⟨_, hset, ?_, hconfig, ?_⟩
  · rw [← hs]
    exact hsynced
  · rw [← memcached_set, hset] at hhands
    exact hhands

/-- The host of the key then holds the value under the bytes of the key. -/
theorem storesAfter_get (stores : Fin n → Store) (cas : UInt64) {ptr ptr' : memcached_st n}
    {s : Fin n} {key : Bytes} (hkey : ValidKey key) {value : Bytes}
    (hvalue : value.length + 2 < 2 ^ 31) (h : Hands ptr ptr' s [setRequest key value]) :
    (storesAfter stores cas ptr ptr' s).get key = some ⟨0, cas, value, hvalue⟩ := by
  unfold storesAfter
  rw [h.requestsSince_host, List.foldl_cons, List.foldl_nil, setRequest,
    executeSet_storageLine _ _ _ hkey _ _ _ hvalue]
  exact Store.put_get _ _ _ _

end Libmemcached
