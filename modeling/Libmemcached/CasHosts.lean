-- One client of a host that keeps an item with its cas: what the get callback
-- is given, and what `memcached_cas` sends.
import Libmemcached.BinaryServers
import Libmemcached.Healthy
import Libmemcached.TextServers

open Chunks Decimal Queues

namespace Libmemcached

open memcached_return_t memcached_storage_action_t

variable {n : Nat}

/-! ## The cas in a command -/

/-- A cas as a host reads it. -/
structure CasCommand where
  key : Bytes
  flags : UInt32
  value : Bytes
  unique : UInt64

/-- What a host reads in a request, when it is a cas: the words of the line and
the data block behind it, or the fields of the packet. A cas and a replace are
one binary command. -/
def readCas (p : Protocol) (request : Bytes) : Option CasCommand :=
  match p with
  | .text =>
    match lineWords request with
    | [verb, key, flags, _, length, unique] =>
      if verb = verbWord CAS_OP then
        some ⟨key, UInt32.ofNat (readDigits 0 flags).1,
          dataBlock request (readDigits 0 length).1, UInt64.ofNat (readDigits 0 unique).1⟩
      else none
    | _ => none
  | .binary =>
    let header := parseHeader request
    let body := (request.drop 24).take header.bodylen
    if header.opcode = PROTOCOL_BINARY_CMD_REPLACE then
      some ⟨(body.drop header.extlen).take header.keylen, UInt32.ofNat (ofBigEndian (body.take 4)),
        body.drop (header.extlen + header.keylen), UInt64.ofNat header.cas⟩
    else none

/-- The text protocol does not send a cas of 0. -/
theorem readCas_storageLine {key : Bytes} (hkey : ValidKey key) (value : Bytes) (flags : UInt32)
    (expiration cas : UInt64) :
    readCas .text (storageLine CAS_OP key flags expiration value.length cas ++ value ++ [13, 10]) =
      if cas = 0 then none else some ⟨key, flags, value, cas⟩ := by
  have hwords := lineWords_storageLine CAS_OP hkey flags expiration value.length cas
    (value ++ [13, 10])
  rw [← List.append_assoc] at hwords
  have hblock := dataBlock_storageLine CAS_OP hkey flags expiration value cas
  unfold readCas
  dsimp only
  rw [hwords]
  by_cases hcas : cas = 0
  · subst hcas
    rw [storageWords_zero]
    rfl
  · have hsix : storageWords CAS_OP key flags expiration value.length cas = [verbWord CAS_OP, key,
        decimal flags.toNat, decimal expiration.toNat, decimal value.length,
        decimal cas.toNat] := by
      unfold storageWords
      rw [if_pos hcas]
      rfl
    rw [hsix, if_neg hcas]
    dsimp only
    rw [if_pos rfl, hblock, readDigits_decimal_end, readDigits_decimal_end]
    simp

/-- The header of a request, as a host reads it. -/
theorem parseHeader_requestHeader (opcode keylen extlen bodylen cas : Nat) (rest : Bytes)
    (ho : opcode < 256) (hk : keylen < 2 ^ 16) (he : extlen < 256) (hb : bodylen < 2 ^ 32)
    (hc : cas < 2 ^ 64) :
    parseHeader (requestHeader opcode keylen extlen bodylen cas ++ rest) =
      ⟨0x80, opcode, keylen, extlen, 0, bodylen, cas⟩ := by
  have field : ∀ w m : Nat, m < 256 ^ w → ofBigEndian (bigEndian w m) = m := ofBigEndian_bigEndian
  have hop : ofBigEndian (bigEndian 1 opcode) = opcode := field 1 _ (by omega)
  have hkl : ofBigEndian (bigEndian 2 keylen) = keylen := field 2 _ (by omega)
  have hel : ofBigEndian (bigEndian 1 extlen) = extlen := field 1 _ (by omega)
  have hbl : ofBigEndian (bigEndian 4 bodylen) = bodylen := field 4 _ (by omega)
  have hcl : ofBigEndian (bigEndian 8 cas) = cas := field 8 _ (by omega)
  calc parseHeader (requestHeader opcode keylen extlen bodylen cas ++ rest)
      = ⟨0x80, ofBigEndian (bigEndian 1 opcode), ofBigEndian (bigEndian 2 keylen),
          ofBigEndian (bigEndian 1 extlen), 0, ofBigEndian (bigEndian 4 bodylen),
          ofBigEndian (bigEndian 8 cas)⟩ := rfl
    _ = _ := by rw [hop, hkl, hel, hbl, hcl]

theorem readCas_storagePacket {key : Bytes} (hkey : ValidKey key) {value : Bytes}
    (hvalue : value.length + 2 < 2 ^ 31) (flags : UInt32) (expiration cas : UInt64) :
    readCas .binary (storagePacket CAS_OP key value flags expiration cas) =
      some ⟨key, flags, value, cas⟩ := by
  have hshort : key.length < 251 := hkey.short
  let extras : Bytes := bigEndian 4 flags.toNat ++ bigEndian 4 expiration.toNat
  have hextras : extras.length = 8 := by simp [extras]
  have hpacket : storagePacket CAS_OP key value flags expiration cas =
      requestHeader PROTOCOL_BINARY_CMD_REPLACE key.length 8 (key.length + value.length + 8)
        cas.toNat ++ (extras ++ key ++ value) := by
    unfold storagePacket
    rw [if_neg (by decide), List.append_assoc, List.append_assoc]
    rw [show (bigEndian 4 flags.toNat ++ bigEndian 4 expiration.toNat).length = 8 from hextras]
    simp only [extras, List.append_assoc]
    rfl
  have hheader := parseHeader_requestHeader PROTOCOL_BINARY_CMD_REPLACE key.length 8
    (key.length + value.length + 8) cas.toNat (extras ++ key ++ value) (by decide) (by omega)
    (by decide) (by omega) cas.toNat_lt_size
  have hbody : ((storagePacket CAS_OP key value flags expiration cas).drop 24).take
      (key.length + value.length + 8) = extras ++ key ++ value := by
    rw [hpacket, List.drop_left' (length_requestHeader ..)]
    apply List.take_of_length_le
    simp only [List.length_append, hextras]
    omega
  have hflags : ofBigEndian ((extras ++ key ++ value).take 4) = flags.toNat := by
    rw [show (extras ++ key ++ value).take 4 = bigEndian 4 flags.toNat by
      simp only [extras, List.append_assoc]
      exact List.take_left' (length_bigEndian 4 _)]
    exact ofBigEndian_bigEndian 4 _ flags.toNat_lt_size
  have hname : ((extras ++ key ++ value).drop 8).take key.length = key := by
    rw [List.append_assoc, List.drop_left' hextras, List.take_left]
  have hrest : (extras ++ key ++ value).drop (8 + key.length) = value := by
    apply List.drop_left'
    simp [hextras]
  unfold readCas
  dsimp only
  rw [hpacket, hheader]
  dsimp only
  rw [← hpacket, hbody, if_pos rfl, hflags, hname, hrest]
  simp

/-! ## The hosts -/

/-- The item under the key after a request: a cas that carries the cas of the
item modifies it, and gives it the next value of the counter. -/
def executeCas (p : Protocol) (key : Bytes) (item : Item) (next : UInt64) (request : Bytes) :
    Option Item :=
  match readCas p request with
  | some command =>
    if h : command.key = key ∧ command.unique = item.cas ∧ command.value.length + 2 < 2 ^ 31 then
      some ⟨command.flags, next, command.value, h.2.2⟩
    else none
  | none => none

theorem readCas_storageBytes (p : Protocol) {key : Bytes} (hkey : ValidKey key) {value : Bytes}
    (hvalue : value.length + 2 < 2 ^ 31) (flags : UInt32) (expiration cas : UInt64) :
    readCas p (storageBytes p CAS_OP key value flags expiration cas) =
      if p = .text ∧ cas = 0 then none else some ⟨key, flags, value, cas⟩ := by
  cases p with
  | text =>
    rw [storageBytes, readCas_storageLine hkey]
    simp
  | binary => exact readCas_storagePacket hkey hvalue flags expiration cas

/-- The item is modified when the cas that was sent is its own, and reaches the
host. -/
theorem executeCas_storageBytes (p : Protocol) {key : Bytes} (hkey : ValidKey key) {value : Bytes}
    (hvalue : value.length + 2 < 2 ^ 31) (flags : UInt32) (expiration cas : UInt64) (item : Item)
    (next : UInt64) :
    executeCas p key item next (storageBytes p CAS_OP key value flags expiration cas) =
      if ¬ (p = .text ∧ cas = 0) ∧ cas = item.cas then some ⟨flags, next, value, hvalue⟩
      else none := by
  unfold executeCas
  rw [readCas_storageBytes p hkey hvalue]
  by_cases hlost : p = .text ∧ cas = 0
  · rw [if_pos hlost, if_neg fun hand => hand.1 hlost]
  · rw [if_neg hlost]
    dsimp only
    by_cases hcas : cas = item.cas
    · rw [dif_pos ⟨rfl, hcas, hvalue⟩, if_pos ⟨hlost, hcas⟩]
    · rw [dif_neg fun hand => hcas hand.2.1, if_neg fun hand => hcas hand.2]

def existsLine : Bytes := ascii ['E', 'X', 'I', 'S', 'T', 'S', '\r', '\n']

/-- EXISTS, as a response line. -/
def existsResponse : ResponseLine where
  text := ascii ['E', 'X', 'I', 'S', 'T', 'S']
  one_line := by simp [ascii]
  short := by decide
  no_value := by decide

/-- The status of a binary cas. -/
def casStatus (stored : Bool) : Nat := if stored then 0 else 2

theorem casStatus_fits (stored : Bool) : casStatus stored < 2 ^ 16 := by cases stored <;> decide

theorem casStatus_settled (stored : Bool) :
    casStatus stored ≠ PROTOCOL_BINARY_RESPONSE_AUTH_CONTINUE := by cases stored <;> decide

theorem replace_known : PROTOCOL_BINARY_CMD_REPLACE ∈ statusOpcodes := by decide

def casPacket (stored : Bool) : StatusPacket :=
  { successPacket PROTOCOL_BINARY_CMD_REPLACE replace_known with
    status := casStatus stored
    status_fits := casStatus_fits stored
    settled := casStatus_settled stored
    bare := fun _ => rfl }

/-- The answer to a get, or to a cas: that is a success when the item is
modified. -/
def casAnswer (p : Protocol) (store : Store) (key : Bytes) (item : Item) (request : Bytes) :
    List Chunk :=
  let stored := (executeCas p key item 0 request).isSome
  match p with
  | .text =>
    if (lineWords request).head? = some (verbWord CAS_OP) then
      whole (if stored then storedLine else existsLine)
    else textChunks true (store.replies (requestKeys request))
  | .binary =>
    match request with
    | first :: opcode :: rest =>
      if opcode.toNat = PROTOCOL_BINARY_CMD_REPLACE then whole (casPacket stored).bytes
      else binaryAnswer store (first :: opcode :: rest)
    | _ => []

/-- The network of such hosts, all of which are up. -/
def casHosts (p : Protocol) (stores : Fin n → Store) (key : Bytes) (item : Item) : Network n where
  connect _ := SUCCESS
  connect_code := connects_at_once
  accepts _ _ := true
  answer s request := (casAnswer p (stores s) key item request, .timeout)
  poll _ fds := fds

section hosts

variable (p : Protocol) (stores : Fin n → Store) (key : Bytes) (item : Item)

theorem casHosts_takes : Takes (casHosts p stores key item) := fun _ _ => rfl

theorem casHosts_up (s : Fin n) : Up (casHosts p stores key item) s :=
  ⟨rfl, casHosts_takes p stores key item s⟩

theorem casHosts_prompt : Prompt (casHosts p stores key item) := by
  intro k fds hfds
  obtain ⟨s, hs⟩ := List.exists_mem_of_ne_nil fds hfds
  exact ⟨s, hs, hs⟩

/-- They give the whole answers to gets. -/
theorem casHosts_serves : Serves (casHosts p stores key item) stores true p
    (wholeAnswer stores true p) := by
  cases p with
  | text =>
    intro s keys hkeys
    refine ⟨List.prefix_rfl, fun _ => rfl, endText, ?_, rfl⟩
    unfold replyBytes casHosts casAnswer
    dsimp only
    rw [if_neg (head_textRequest CAS_OP true keys hkeys)]
    exact bytesOf_textChunks true _
  | binary =>
    -- neither request of a get is a cas
    have hsame : ∀ s keys, replyBytes (casHosts .binary stores key item) true .binary s keys =
        replyBytes (binaryHosts stores) true .binary s keys := by
      intro s keys
      have hkeys : casAnswer .binary (stores s) key item (binaryRequest keys) =
          binaryAnswer (stores s) (binaryRequest keys) := by
        rcases keys with _ | ⟨first, keys⟩
        · rfl
        · obtain ⟨rest, hrest⟩ := binaryRequest_head first keys
          rw [hrest]
          rfl
      have hnoop : casAnswer .binary (stores s) key item noopRequest =
          binaryAnswer (stores s) noopRequest := rfl
      unfold replyBytes casHosts binaryHosts
      dsimp only
      rw [hkeys, hnoop]
    intro s keys hkeys
    rw [hsame]
    exact binaryHosts_serves stores true s keys hkeys

end hosts

/-- A text host answers a cas with one line. -/
theorem casAnswer_text (store : Store) (item : Item) {key : Bytes} (hkey : ValidKey key)
    (value : Bytes) (flags : UInt32) (expiration cas : UInt64) :
    Replied (bytesOf (casAnswer .text store key item
      (storageBytes .text CAS_OP key value flags expiration cas))) := by
  have hhead := head_storageLine CAS_OP hkey flags expiration value.length cas (value ++ [13, 10])
  rw [← List.append_assoc] at hhead
  unfold casAnswer storageBytes
  dsimp only
  rw [if_pos hhead, bytesOf_whole]
  split_ifs
  · exact .line storedResponse ⟨by decide, by decide⟩ rfl
  · exact .line existsResponse ⟨by decide, by decide⟩ rfl

/-- A binary host answers it with one packet. -/
theorem casAnswer_binary (store : Store) (item : Item) (key value : Bytes) (flags : UInt32)
    (expiration cas : UInt64) :
    BinaryReplied (bytesOf (casAnswer .binary store key item
      (storageBytes .binary CAS_OP key value flags expiration cas))) := by
  obtain ⟨rest, hhead⟩ : ∃ rest, storageBytes .binary CAS_OP key value flags expiration cas =
      0x80 :: 0x03 :: rest := ⟨_, rfl⟩
  unfold casAnswer
  dsimp only
  rw [hhead]
  dsimp only
  rw [if_pos (by decide), bytesOf_whole]
  exact .status _

/-! ## A storage command on hosts with nothing pending -/

section quiet

variable {net : Network n} {ptr : memcached_st n} (h : Synced ptr fun _ => none)

include h

theorem synced_setServer_quiet (s : Fin n) {host : memcached_server_st} (hquiet : Quiet host) :
    Synced (ptr.setServer s host) fun _ => none := by
  have hset := h.setServer s host none hquiet
  rwa [Function.update_eq_self] at hset

theorem send_text_quiet (htext : ptr.protocol = .text) (s : Fin n) (key value : Bytes)
    (expiration : UInt64) (flags : UInt32) (cas : UInt64) (verb : memcached_storage_action_t)
    (hreplied : Replied (bytesOf
      (net.answer s (storageBytes .text verb key value flags expiration cas)).1)) :
    Synced (memcached_send_text net ptr s key value expiration flags cas verb).1 (fun _ => none) ∧
      SameConfig ptr (memcached_send_text net ptr s key value expiration flags cas verb).1 := by
  obtain ⟨hsynced, hconfig, -⟩ := exchange_text h htext s
    (storageBytes .text verb key value flags expiration cas) (by simp [storageBytes])
    MEMCACHED_DEFAULT_COMMAND_SIZE hreplied
  rw [Function.update_eq_self] at hsynced
  refine memcached_send_text_keeps (P := fun ptr' => Synced ptr' (fun _ => none) ∧
    SameConfig ptr ptr') ⟨h, .refl ptr⟩ ?_ ⟨hsynced, hconfig⟩
  -- a connection that is closed owes nothing either
  rintro ptr' ⟨hsynced', hconfig'⟩
  exact ⟨synced_setServer_quiet hsynced' s (quiet_quit _), hconfig'.trans ⟨rfl, rfl, rfl, rfl⟩⟩

theorem send_binary_quiet (hbinary : ptr.protocol = .binary) (s : Fin n) (key value : Bytes)
    (expiration : UInt64) (flags : UInt32) (cas : UInt64) (verb : memcached_storage_action_t)
    (hreplied : BinaryReplied (bytesOf
      (net.answer s (storageBytes .binary verb key value flags expiration cas)).1)) :
    Synced (memcached_send_binary net ptr s key value expiration flags cas verb).1 (fun _ => none) ∧
      SameConfig ptr (memcached_send_binary net ptr s key value expiration flags cas verb).1 := by
  have hquiet : Quiet (ptr.servers s) := h s
  have hne : storagePacket verb key value flags expiration cas ≠ [] := by
    simp [storagePacket, requestHeader]
  unfold memcached_send_binary
  rcases vdo_quiet net s hquiet hne with
    ⟨rc, host', hvdo, hrc⟩ | ⟨host', hvdo, hcount, hwritten, hinput⟩
  · have hreset := synced_setServer_quiet h s (quiet_quit host')
    rw [hvdo]
    cases rc <;> first | exact ⟨hreset, ⟨rfl, rfl, rfl, rfl⟩⟩ | exact absurd rfl hrc
  · obtain ⟨rc, host'', hr, hquiet'⟩ := hreplied.read 0 ptr.result hcount hwritten hinput
    rw [hvdo]
    dsimp only
    rw [readResponse_binary hbinary s hr]
    exact ⟨synced_setServer_quiet h s hquiet', ⟨rfl, rfl, rfl, rfl⟩⟩

end quiet

/-! ## One client -/

/-- A callback that returns an empty list, whatever it is called with. -/
def Returns (callback : Coderef) : Prop :=
  ∀ calls invocation, ∃ value flags, callback calls invocation = .empty value flags

/-- A client between two of its calls on a key: cas support is on, a get
callback takes notes of what it is called with, and the key goes to one host. -/
structure CasClient (key : Bytes) (s : Fin n) (state : lmc_state_st n) : Prop where
  synced : Synced state.ptr fun _ => none
  support_cas : state.ptr.support_cas = true
  tested : ¬ (state.ptr.verify_key = true ∧ memcached_key_test [key] = BAD_KEY_PROVIDED)
  unset : state.cb_context.set_cb = none
  captures : ∃ get_cb, state.cb_context.get_cb = some get_cb ∧ Returns get_cb
  routed : ∀ hn, state.ptr.hostOf hn key = s

/-- The cas of an item reaches the result in either protocol. -/
theorem invocationOf_cas (p : Protocol) (result : memcached_result_st) (r : Reply) :
    (invocationOf true (storeReply true p result r)).cas = some r.item.cas := by
  cases p <;> rfl

theorem validate_key {key : Bytes} (hkey : ValidKey key) (binary : Bool) :
    memcached_validate_key_length key.length binary = SUCCESS := by
  cases binary with
  | false => exact validate_valid hkey
  | true =>
    have hshort : key.length < 251 := hkey.short
    unfold memcached_validate_key_length
    rw [if_neg (mt List.length_eq_zero_iff.mp hkey.nonempty), if_pos rfl, if_neg (by omega)]

section client

variable {key : Bytes} {s : Fin n} {state : lmc_state_st n} (h : CasClient key s state)

include h

/-- The next calls of the client find it as it was. -/
theorem CasClient.follows {out : lmc_state_st n} (hsynced : Synced out.ptr fun _ => none)
    (hconfig : SameConfig state.ptr out.ptr) (hset : out.cb_context.set_cb = state.cb_context.set_cb)
    (hget : out.cb_context.get_cb = state.cb_context.get_cb) : CasClient key s out where
  synced := hsynced
  support_cas := hconfig.support_cas.trans h.support_cas
  tested := by
    rw [hconfig.verify_key]
    exact h.tested
  unset := hset.trans h.unset
  captures := by
    rw [hget]
    exact h.captures
  routed hn := by
    rw [← h.routed hn]
    unfold memcached_st.hostOf
    rw [hconfig.routing]

variable (hkey : ValidKey key)

include hkey

/-- A get calls the callback once, with the cas of the item. -/
theorem CasClient.get {stores : Fin n → Store} {item : Item} (hitem : (stores s).get key = some item)
    (flags : UInt32) :
    ∃ out got, xs_memcached_get (casHosts state.ptr.protocol stores key item) state (some key)
        flags = .returned out got ∧
      CasClient key s out ∧ SameConfig state.ptr out.ptr ∧
      ∃ invocation, out.cb_context.calls = state.cb_context.calls ++ [invocation] ∧
        invocation.cas = some item.cas := by
  have hn : 0 < n := s.pos
  obtain ⟨get_cb, hget, hreturns⟩ := h.captures
  have hone : ∀ k ∈ [key], k = key := fun k hk => List.mem_singleton.mp hk
  have hf := fetchHost_none hn (List.cons_ne_nil key []) h.tested
  have hserves := casHosts_serves state.ptr.protocol stores key item
  rw [← h.support_cas] at hserves
  obtain ⟨ptr₁, hrequest, hsynced, hconfig, -⟩ := mget_by_key_up (fun _ => rfl)
    (casHosts_takes state.ptr.protocol stores key item) h.synced hserves
    (fun k hk => by rw [hone k hk]; exact Clean.oneLine hkey.clean)
    (fun _ k hk => by rw [hone k hk]; exact validate_key hkey true) hf
  obtain ⟨howes, honly⟩ := owedFor_one stores state.ptr.support_cas state.ptr.protocol
    (state.ptr.hostOf hn) hkey
  have hreply : (stores (state.ptr.hostOf hn key)).reply key = some ⟨key, item⟩ := by
    rw [h.routed hn, Store.reply, hitem]
    rfl
  rw [hreply] at howes
  -- the callbacks take the one reply
  obtain ⟨value, flags', hcall⟩ := hreturns state.cb_context.calls
    (invocationOf ptr₁.support_cas
      (storeReply ptr₁.support_cas ptr₁.protocol ptr₁.result ⟨key, item⟩))
  have hrun := runCallbacks_storeScalar ptr₁.support_cas
    (storeReply ptr₁.support_cas ptr₁.protocol ptr₁.result ⟨key, item⟩)
    (show (singleContext state.cb_context flags).dest_sv = .scalar from rfl) hget hcall
  obtain ⟨ptr₂, rc, hexec, -, hsynced₂, hconfig₂⟩ := fetch_execute_one
    (casHosts_prompt state.ptr.protocol stores key item) hsynced howes honly
    (storeScalar_plain ptr₁.support_cas (some get_cb)) hrun
  have hall := hconfig.trans hconfig₂
  unfold singleContext at hexec
  unfold xs_memcached_get
  simp only [SvPV, Option.getD_some, hrequest]
  unfold fetch_one_sv
  rw [if_neg (by simp)]
  dsimp only at hexec ⊢
  rw [hget] at hexec ⊢
  rw [hexec]
  refine ⟨_, _, rfl, h.follows hsynced₂ hall rfl hget.symm, hall, _, rfl, ?_⟩
  rw [hconfig.support_cas, h.support_cas]
  exact invocationOf_cas _ _ _

/-- A cas sends the value and the cas to the host of the key. -/
theorem CasClient.cas (stores : Fin n → Store) (item : Item) {value : Bytes}
    (hvalue : value.length + 2 < 2 ^ 31) (expiration flags cas : UInt64) :
    ∃ out rc pad, xs_memcached_cas (casHosts state.ptr.protocol stores key item) state (some key)
        (some value) expiration flags cas = .returned out (rc, pad) ∧
      CasClient key s out ∧ SameConfig state.ptr out.ptr ∧
      Hands state.ptr out.ptr s [storageBytes state.ptr.protocol CAS_OP key value (flagsOfUV flags)
        expiration cas] := by
  have hn : 0 < n := s.pos
  let net := casHosts state.ptr.protocol stores key item
  have hsize : value.length < UInt64.size := by
    simp only [UInt64.size]
    omega
  have hcalls : xs_memcached_cas net state (some key) (some value) expiration flags cas =
      .returned (recordReturn { state with
          ptr := (memcached_cas net state.ptr key value expiration (flagsOfUV flags) cas).1 }
        (memcached_cas net state.ptr key value expiration (flagsOfUV flags) cas).2)
        ((memcached_cas net state.ptr key value expiration (flagsOfUV flags) cas).2,
          callerPad (some key) (some value) flags) := by
    unfold xs_memcached_cas xs_store pre_call
    rw [h.unset]
    rfl
  have hwrites := storageWrites_accepted hn (validate_key hkey _) h.tested hsize key expiration
    (flagsOfUV flags) cas CAS_OP
  rw [h.routed hn] at hwrites
  have hhands := (send_carries net h.synced hwrites).up (casHosts_up _ stores key item s)
  have hsent : Synced (memcached_cas net state.ptr key value expiration (flagsOfUV flags) cas).1
        (fun _ => none) ∧
      SameConfig state.ptr
        (memcached_cas net state.ptr key value expiration (flagsOfUV flags) cas).1 := by
    unfold memcached_cas memcached_send
    dsimp only
    rw [if_neg (not_not.mpr (validate_key hkey _)), dif_pos hn, if_neg h.tested]
    cases hp : state.ptr.protocol with
    | text =>
      apply send_text_quiet h.synced hp
      simp only [net, hp]
      exact casAnswer_text _ item hkey value _ expiration cas
    | binary =>
      apply send_binary_quiet h.synced hp
      simp only [net, hp]
      exact casAnswer_binary (stores (storageHost state.ptr hn key)) item key value _ expiration cas
  exact ⟨_, _, _, hcalls, h.follows hsent.1 hsent.2 rfl rfl, hsent.2, hhands⟩

end client

end Libmemcached
