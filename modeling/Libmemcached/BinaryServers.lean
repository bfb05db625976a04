-- Hosts of the binary protocol that are all up: each answers a get with one
-- packet for each key that it holds, and every other command with a success.
import Mathlib.Data.List.TakeWhile
import Libmemcached.BinaryCommands
import Libmemcached.Hosts

open Chunks Decimal Queues

namespace Libmemcached

open memcached_return_t

variable {n : Nat}

/-! ## The keys of a binary request -/

/-- The keys that a host finds in a request. The first byte of a header may
stand in a key and its second byte may not, so a key ends one byte before the
first control character behind its header. -/
def packetKeys : Nat → Bytes → List Bytes
  | 0, _ => []
  | fuel + 1, request =>
    let body := request.drop 24
    let run := body.takeWhile fun c => !iscntrl c
    match body.drop run.length with
    | [] => [run]
    | c :: rest => run.dropLast :: packetKeys fuel (0x80 :: c :: rest)

theorem length_requestHeader (opcode keylen extlen bodylen cas : Nat) :
    (requestHeader opcode keylen extlen bodylen cas).length = 24 := by simp [requestHeader]

theorem binaryRequest_cons (key : Bytes) (keys : List Bytes) :
    binaryRequest (key :: keys) =
      requestHeader PROTOCOL_BINARY_CMD_GETKQ key.length 0 key.length 0 ++
        (key ++ binaryRequest keys) := by
  simp [binaryRequest]

/-- A request goes on with a byte that is none of the control characters, and
one that is. -/
theorem binaryRequest_head (key : Bytes) (keys : List Bytes) :
    ∃ rest, binaryRequest (key :: keys) = 0x80 :: 0x0d :: rest := by
  rw [binaryRequest_cons]
  exact ⟨_, rfl⟩

theorem takeWhile_all_printing {key : Bytes} (h : OneLine key) :
    key.takeWhile (fun c => !iscntrl c) = key := by
  apply List.takeWhile_eq_self_iff.mpr
  intro c hc
  rw [h c hc]
  rfl

theorem packetKeys_binaryRequest {keys : List Bytes} (hkeys : ∀ key ∈ keys, OneLine key)
    (hne : keys ≠ []) (fuel : Nat) (hfuel : keys.length ≤ fuel) :
    packetKeys fuel (binaryRequest keys) = keys := by
  induction keys generalizing fuel with
  | nil => exact absurd rfl hne
  | cons key keys ih =>
    obtain ⟨fuel, rfl⟩ : ∃ k, fuel = k + 1 := ⟨fuel - 1, by simp at hfuel; omega⟩
    have hkey : OneLine key := hkeys key (List.mem_cons_self ..)
    have hbody : (binaryRequest (key :: keys)).drop 24 = key ++ binaryRequest keys := by
      rw [binaryRequest_cons, ← length_requestHeader PROTOCOL_BINARY_CMD_GETKQ key.length 0 key.length 0,
        List.drop_left]
    rw [packetKeys, hbody]
    rcases keys with _ | ⟨next, keys⟩
    · have hrun : (key ++ binaryRequest []).takeWhile (fun c => !iscntrl c) = key := by
        rw [binaryRequest, List.flatMap_nil, List.append_nil]
        exact takeWhile_all_printing hkey
      rw [hrun]
      simp [binaryRequest]
    · obtain ⟨rest, hrest⟩ := binaryRequest_head next keys
      have hrun : (key ++ binaryRequest (next :: keys)).takeWhile (fun c => !iscntrl c) =
          key ++ [0x80] := by
        rw [hrest]
        have hsplit : key ++ 0x80 :: 0x0d :: rest = (key ++ [0x80]) ++ 0x0d :: rest := by simp
        rw [hsplit]
        apply takeWhile_append_stop
        · intro c hc
          rcases List.mem_append.mp hc with hc | hc
          · rw [hkey c hc]
            rfl
          · rw [List.mem_singleton.mp hc]
            decide
        · decide
      have hdrop : (key ++ binaryRequest (next :: keys)).drop (key ++ [0x80]).length =
          0x0d :: rest := by
        rw [hrest]
        simp
      rw [hrun, hdrop]
      dsimp only
      rw [List.dropLast_concat, ← hrest, ih (fun k hk => hkeys k (List.mem_cons_of_mem _ hk))
        (by simp) fuel (by simpa using hfuel)]

theorem length_le_binaryRequest (keys : List Bytes) : keys.length ≤ (binaryRequest keys).length := by
  induction keys with
  | nil => exact Nat.zero_le _
  | cons key keys ih =>
    rw [binaryRequest_cons, List.length_append, List.length_append, length_requestHeader,
      List.length_cons]
    omega

/-! ## The hosts -/

/-- The answer to a change of a number. -/
def changedPacket (opcode : Nat) : Bytes := renderHeader opcode 0 0 8 0 ++ bigEndian 8 0

/-- The answer by the opcode of the first header. -/
def binaryAnswer (store : Store) (request : Bytes) : List Chunk :=
  match request with
  | _ :: opcode :: _ =>
    if opcode.toNat = PROTOCOL_BINARY_CMD_GETKQ then
      ((store.replies (packetKeys request.length request)).map renderBinary).flatMap whole
    else if opcode.toNat = PROTOCOL_BINARY_CMD_INCREMENT ∨
        opcode.toNat = PROTOCOL_BINARY_CMD_DECREMENT then whole (changedPacket opcode.toNat)
    else whole (renderHeader opcode.toNat 0 0 0 0)
  | _ => []

/-- The network of such hosts. -/
def binaryHosts (stores : Fin n → Store) : Network n where
  connect _ := SUCCESS
  connect_code := connects_at_once
  accepts _ _ := true
  answer s request := (binaryAnswer (stores s) request, .timeout)
  poll _ fds := fds

theorem binaryHosts_serves (stores : Fin n → Store) (withCas : Bool) :
    Serves (binaryHosts stores) stores withCas .binary (wholeAnswer stores withCas .binary) := by
  intro s keys hkeys
  refine ⟨List.prefix_rfl, fun _ => rfl, endBinary, ?_, rfl⟩
  have hend : bytesOf ((binaryHosts stores).answer s noopRequest).1 = endBinary := by
    rw [← bytesOf_whole endBinary]
    rfl
  have hreplies : bytesOf ((binaryHosts stores).answer s (binaryRequest keys)).1 =
      ((stores s).replies keys).flatMap renderBinary := by
    rcases keys with _ | ⟨key, keys⟩
    · rfl
    · have hparsed := packetKeys_binaryRequest hkeys (by simp) _
        (length_le_binaryRequest (key :: keys))
      obtain ⟨rest, hrest⟩ := binaryRequest_head key keys
      have hanswer : (binaryHosts stores).answer s (binaryRequest (key :: keys)) =
          (((((stores s).replies (packetKeys (binaryRequest (key :: keys)).length
            (binaryRequest (key :: keys)))).map renderBinary).flatMap whole), .timeout) := by
        rw [hrest]
        rfl
      rw [hanswer, hparsed, bytesOf_flatMap_whole, List.flatMap_def]
  have hbytes : replyBytes (binaryHosts stores) withCas .binary s keys =
      bytesOf ((binaryHosts stores).answer s (binaryRequest keys)).1 ++
        bytesOf ((binaryHosts stores).answer s noopRequest).1 := rfl
  rw [hbytes, hend, hreplies]
  rfl

theorem binaryHosts_prompt (stores : Fin n → Store) : Prompt (binaryHosts stores) := by
  intro k fds hfds
  obtain ⟨s, hs⟩ := List.exists_mem_of_ne_nil fds hfds
  exact ⟨s, hs, hs⟩

/-- A success, as a response to a command with a status. -/
def successPacket (opcode : Nat) (known : opcode ∈ statusOpcodes) : StatusPacket where
  opcode := opcode
  status := 0
  cas := 0
  body := []
  known := known
  status_fits := Nat.two_pow_pos 16
  settled := by decide
  cas_fits := Nat.two_pow_pos 64
  body_fits := Nat.two_pow_pos 32
  bare _ := rfl

theorem successPacket_bytes {opcode : Nat} (known : opcode ∈ statusOpcodes) :
    (successPacket opcode known).bytes = renderHeader opcode 0 0 0 0 :=
  List.append_nil _

theorem number_fits : (bigEndian 8 0).length < 2 ^ 32 := by decide

/-- The number 0, as a response to a change of a number. -/
def zeroPacket (opcode : Nat)
    (known : opcode = PROTOCOL_BINARY_CMD_INCREMENT ∨ opcode = PROTOCOL_BINARY_CMD_DECREMENT) :
    NumberPacket where
  opcode := opcode
  status := 0
  cas := 0
  body := bigEndian 8 0
  known := known
  status_fits := Nat.two_pow_pos 16
  settled := by decide
  cas_fits := Nat.two_pow_pos 64
  body_fits := number_fits
  number _ := rfl

theorem binaryAnswer_header (store : Store) {opcode : Nat} (h : opcode < 256)
    (hget : opcode ≠ PROTOCOL_BINARY_CMD_GETKQ) (keylen extlen bodylen cas : Nat) (rest : Bytes) :
    bytesOf (binaryAnswer store (requestHeader opcode keylen extlen bodylen cas ++ rest)) =
      if opcode = PROTOCOL_BINARY_CMD_INCREMENT ∨ opcode = PROTOCOL_BINARY_CMD_DECREMENT then
        changedPacket opcode
      else renderHeader opcode 0 0 0 0 := by
  have hbyte : (UInt8.ofNat (opcode % 256)).toNat = opcode := by
    rw [UInt8.toNat_ofNat']
    omega
  obtain ⟨rest', hhead⟩ : ∃ rest', requestHeader opcode keylen extlen bodylen cas ++ rest =
      0x80 :: UInt8.ofNat (opcode % 256) :: rest' := ⟨_, rfl⟩
  rw [hhead]
  simp only [binaryAnswer, hbyte, if_neg hget]
  split_ifs <;> exact bytesOf_whole _

theorem binaryHosts_replied (stores : Fin n → Store) (s : Fin n) {opcode : Nat}
    (hopcode : opcode ∈ commandOpcodes) (keylen extlen bodylen cas : Nat) (rest : Bytes) :
    BinaryReplied (bytesOf ((binaryHosts stores).answer s
      (requestHeader opcode keylen extlen bodylen cas ++ rest)).1) := by
  have hcommand : ∀ opcode ∈ commandOpcodes, opcode < 256 ∧ opcode ≠ PROTOCOL_BINARY_CMD_GETKQ ∧
      (opcode ∈ statusOpcodes ∨ opcode = PROTOCOL_BINARY_CMD_INCREMENT ∨
        opcode = PROTOCOL_BINARY_CMD_DECREMENT) := by decide
  obtain ⟨hbyte, hget, hknown⟩ := hcommand opcode hopcode
  have hanswer := binaryAnswer_header (stores s) hbyte hget keylen extlen bodylen cas rest
  have hnetwork : ((binaryHosts stores).answer s
      (requestHeader opcode keylen extlen bodylen cas ++ rest)).1 =
      binaryAnswer (stores s) (requestHeader opcode keylen extlen bodylen cas ++ rest) := rfl
  rw [hnetwork, hanswer]
  by_cases hnumber : opcode = PROTOCOL_BINARY_CMD_INCREMENT ∨ opcode = PROTOCOL_BINARY_CMD_DECREMENT
  · rw [if_pos hnumber]
    exact .number (zeroPacket opcode hnumber)
  · rw [if_neg hnumber]
    rw [← successPacket_bytes (hknown.resolve_right hnumber)]
    exact .status _

theorem binaryHosts_answering (stores : Fin n → Store) :
    AnsweringBinary (binaryHosts stores) stores where
  gets := binaryHosts_serves stores false
  commands s opcode keylen extlen bodylen cas rest hopcode :=
    binaryHosts_replied stores s hopcode keylen extlen bodylen cas rest
  stats s := by
    have hanswer := binaryAnswer_header (stores s) (show PROTOCOL_BINARY_CMD_STAT < 256 by decide)
      (by decide) 0 0 0 0 []
    rw [List.append_nil, if_neg (by decide)] at hanswer
    have hlast := StatPackets.last
    rw [← hanswer] at hlast
    exact hlast

end Libmemcached
