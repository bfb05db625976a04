-- A handle of the text protocol with the default behaviours, over any run of
-- calls: between two calls each host owes at most the rest of one get, and
-- that rest is whole.
import Libmemcached.Exchanges
import Libmemcached.StorageWords
import Libmemcached.Tidy

open Chunks Decimal Queues

namespace Libmemcached

open memcached_return_t memcached_server_st memcached_storage_action_t

variable {n : Nat}

/-! ## What hosts do -/

/-- The commands of the text protocol that are answered with one line. -/
inductive OneLineCommand : Bytes → Prop
  | storage (verb : memcached_storage_action_t) {key : Bytes} (hkey : ValidKey key) (flags : UInt32)
      (expiration : UInt64) (value : Bytes) (cas : UInt64) :
      OneLineCommand (storageLine verb key flags expiration value.length cas ++ value ++ [13, 10])
  | delete {key : Bytes} (hkey : ValidKey key) (expiration : UInt64) :
      OneLineCommand (deleteLine key expiration)
  | incr_decr (op : IncrDecr) {key : Bytes} (hkey : ValidKey key) (offset : UInt64) :
      OneLineCommand (op.verb ++ [32] ++ cString key ++ [32] ++ decimal offset.toNat ++ [13, 10])
  | flush (expiration : UInt64) :
      OneLineCommand (ascii ['f', 'l', 'u', 's', 'h', '_', 'a', 'l', 'l'] ++
        (if expiration ≠ 0 then 32 :: decimal expiration.toNat else []) ++ [13, 10])

/-- The answer to `stats`: STAT lines, and the line that ends them, or a part
of it when the connection breaks. -/
inductive StatsReplied : Bytes → Prop
  | last {bytes : Bytes} (h : Replied bytes) : StatsReplied bytes
  | stat (line : ResponseLine) (hstat : line.code = STAT) {rest : Bytes} (h : StatsReplied rest) :
      StatsReplied (line.bytes ++ rest)

/-- Hosts of the text protocol. They answer a get with one block for each key
that they hold and END, and every other command with its own response. -/
structure Answering (net : Network n) (stores : Fin n → Store) : Prop where
  gets : Serves net stores false .text (wholeAnswer stores false .text)
  lines : ∀ s command, OneLineCommand command → Replied (bytesOf (net.answer s command).1)
  stats : ∀ s, StatsReplied (bytesOf (net.answer s (ascii ['s', 't', 'a', 't', 's'] ++ [13, 10])).1)

/-! ## The handle between two calls -/

/-- The text protocol without cas support, and nothing pending but whole
answers to gets. -/
structure Orderly (ptr : memcached_st n) : Prop where
  text : ptr.protocol = .text
  plain : ptr.support_cas = false
  pending : ∃ q, Synced ptr q ∧ AllWhole q

theorem Orderly.tidy {ptr : memcached_st n} (h : Orderly ptr) : Tidy ptr := h.pending

theorem Orderly.follows {ptr ptr' : memcached_st n} (h : Orderly ptr) (h' : Follows ptr ptr') :
    Orderly ptr' :=
  ⟨h'.config.protocol.trans h.text, h'.config.support_cas.trans h.plain, h'.tidy⟩

section

variable {net : Network n} {stores : Fin n → Store} {ptr : memcached_st n}

theorem Orderly.mget_by_key (h : Orderly ptr) (hnet : Answering net stores)
    (master_key : Option Bytes) {keys : List Bytes} (hkeys : ∀ k ∈ keys, OneLine k) :
    Follows ptr (memcached_mget_by_key net ptr master_key keys).1 := by
  have hserves : Serves net stores ptr.support_cas ptr.protocol (wholeAnswer stores false .text) := by
    rw [h.plain, h.text]
    exact hnet.gets
  apply h.tidy.mget_by_key hserves master_key hkeys
  intro hbinary
  rw [h.text] at hbinary
  cases hbinary

/-! ## Commands -/

/-- A command that is answered with one line leaves nothing of its own. -/
theorem Orderly.exchange (h : Orderly ptr) (s : Fin n) {command : Bytes} (hne : command ≠ [])
    (hreplied : Replied (bytesOf (net.answer s command).1)) (buffer_length : Nat) :
    Follows ptr (Libmemcached.exchange net ptr s command buffer_length).1 := by
  obtain ⟨q, hsynced, hq⟩ := h.pending
  have hresp : Responds net s command (q s) := by
    rcases hqs : q s with _ | ⟨rs, _ | _⟩
    · exact hreplied
    · exact absurd (hq s _ hqs) (by simp)
    · exact hreplied
  obtain ⟨hsynced', hconfig, -⟩ := exchange_text hsynced h.text s command hne buffer_length hresp
  exact ⟨hconfig, _, hsynced', hq.update_none s⟩

/-- The key of a command that is sent is valid. -/
theorem valid_of_validate {key : Bytes} (hclean : Clean key)
    (h : memcached_validate_key_length key.length false = SUCCESS) : ValidKey key := by
  unfold memcached_validate_key_length at h
  rw [if_neg Bool.false_ne_true] at h
  split_ifs at h with hnil hlong
  exact ⟨fun he => hnil (by rw [he]; rfl), Nat.not_le.mp hlong, hclean⟩

theorem Orderly.send_text (h : Orderly ptr) (s : Fin n) (key value : Bytes) (expiration : UInt64)
    (flags : UInt32) (cas : UInt64) (verb : memcached_storage_action_t)
    (hreplied : Replied (bytesOf (net.answer s
      (storageLine verb key flags expiration value.length cas ++ value ++ [13, 10])).1)) :
    Follows ptr (memcached_send_text net ptr s key value expiration flags cas verb).1 := by
  apply memcached_send_text_keeps h.tidy.refl
  · intro ptr' hptr'
    exact hptr'.quiet s (quiet_quit _)
  · exact h.exchange s (by simp) hreplied MEMCACHED_DEFAULT_COMMAND_SIZE

/-- The storage commands. -/
theorem Orderly.send (h : Orderly ptr) (hnet : Answering net stores) (master_key : Bytes)
    {key : Bytes} (hkey : Clean key) (value : Bytes) (expiration : UInt64) (flags : UInt32)
    (cas : UInt64) (verb : memcached_storage_action_t) :
    Follows ptr (memcached_send net ptr master_key key value expiration flags cas verb).1 := by
  unfold memcached_send
  rw [h.text]
  simp only [reduceCtorEq, decide_false]
  split_ifs with hlength hn htest
  · exact h.tidy.refl
  · exact h.tidy.refl
  · have hvalid := valid_of_validate hkey (not_not.mp hlength)
    apply h.send_text
    apply hnet.lines
    exact .storage verb hvalid flags expiration value cas
  · exact h.tidy.refl

theorem Orderly.text_delete (h : Orderly ptr) (s : Fin n) (key : Bytes) (expiration : UInt64)
    (hreplied : Replied (bytesOf (net.answer s (deleteLine key expiration)).1)) :
    Follows ptr (Libmemcached.text_delete net ptr s key expiration).1 := by
  have hopen : Follows ptr (ptr.setServer s (if expiration ≠ 0 then
      memcached_connect net s (ptr.servers s) else (SUCCESS, ptr.servers s)).2) := by
    split_ifs
    · exact h.tidy.connect net s
    · have hsame : ptr.setServer s (ptr.servers s) = ptr := by simp [memcached_st.setServer]
      rw [hsame]
      exact h.tidy.refl
  unfold Libmemcached.text_delete
  generalize (if expiration ≠ 0 then memcached_connect net s (ptr.servers s)
    else (SUCCESS, ptr.servers s)) = opened at hopen
  obtain ⟨rc, host⟩ := opened
  split
  · rename_i host' heq
    cases heq
    dsimp only
    split_ifs
    · exact hopen
    · exact hopen.trans ((h.follows hopen).exchange s (by simp [deleteLine]) hreplied _)
  · rename_i rc' host' hne heq
    cases heq
    exact hopen

theorem Orderly.delete_by_key (h : Orderly ptr) (hnet : Answering net stores) (master_key : Bytes)
    {key : Bytes} (hkey : Clean key) (expiration : UInt64) :
    Follows ptr (memcached_delete_by_key net ptr master_key key expiration).1 := by
  unfold memcached_delete_by_key
  rw [h.text]
  simp only [reduceCtorEq, decide_false]
  by_cases hlength : memcached_validate_key_length key.length false = SUCCESS
  · rw [if_neg (not_not.mpr hlength)]
    by_cases hn : 0 < n
    · rw [dif_pos hn]
      apply h.text_delete
      apply hnet.lines
      exact .delete (valid_of_validate hkey hlength) expiration
    · rw [dif_neg hn]
      exact h.tidy.refl
  · rw [if_pos hlength]
    exact h.tidy.refl

theorem Orderly.incr_decr (h : Orderly ptr) (hnet : Answering net stores) (op : IncrDecr)
    {key : Bytes} (hkey : Clean key) (offset : UInt64) :
    Follows ptr (memcached_incr_decr net ptr op key offset) := by
  unfold memcached_incr_decr
  rw [h.text]
  simp only [reduceCtorEq, decide_false]
  split_ifs with hlength hn htest
  · exact h.tidy.refl
  · exact h.tidy.refl
  · unfold text_incr_decr
    dsimp only
    split_ifs
    · exact h.tidy.refl
    · apply h.exchange
      · simp
      · apply hnet.lines
        exact .incr_decr op (valid_of_validate hkey (not_not.mp hlength)) offset
  · exact h.tidy.refl

/-- Every host is sent a line and answers it. -/
theorem Orderly.flush (h : Orderly ptr) (hnet : Answering net stores) (expiration : UInt64) :
    Follows ptr (memcached_flush_textual net ptr expiration).1 := by
  unfold memcached_flush_textual
  dsimp only
  by_cases hn : n = 0
  · rw [if_pos hn]
    exact h.tidy.refl
  · rw [if_neg hn]
    refine Follows.foldl ?_ _ h.tidy.refl
    intro st s hst
    apply hst.trans
    apply (h.follows hst).exchange
    · simp
    · exact hnet.lines s _ (.flush expiration)

end

/-! ## The figures of the hosts -/

theorem length_statsReplied_line (line : ResponseLine) (rest : Bytes) :
    rest.length < (line.bytes ++ rest).length := by
  unfold ResponseLine.bytes
  simp only [List.length_append, List.length_cons]
  omega

theorem readResponse_on {ptr : memcached_st n} (htext : ptr.protocol = .text) (s : Fin n)
    {host host' : memcached_server_st} {result result' : memcached_result_st}
    {rc : memcached_return_t} {buffer_length : Nat}
    (h : memcached_response .text host buffer_length result = (rc, host', result')) :
    readResponse { ptr.setServer s host with result } s buffer_length =
      (rc, { ptr.setServer s host' with result := result' }) := by
  unfold readResponse
  simp only [memcached_st.setServer_protocol, htext, memcached_st.setServer_self, h]
  simp [memcached_st.setServer, htext]

/-- The STAT lines are read up to the line behind them. -/
theorem statsLoop_quiet {ptr : memcached_st n} (htext : ptr.protocol = .text) (s : Fin n)
    {bytes : Bytes} (hbytes : StatsReplied bytes) (fuel : Nat) (hfuel : bytes.length < fuel)
    (host : memcached_server_st) (result : memcached_result_st) (hcount : host.cursor_active = 1)
    (hwritten : host.write_buffer = []) (hinput : host.input.bytes = bytes) :
    ∃ host' result', (statsLoop s fuel { ptr.setServer s host with result }).1 =
      { ptr.setServer s host' with result := result' } ∧ Quiet host' := by
  induction hbytes generalizing fuel host result with
  | last h =>
    obtain ⟨fuel, rfl⟩ : ∃ k, fuel = k + 1 := ⟨fuel - 1, by omega⟩
    obtain ⟨rc, host', result', hr, hquiet, hstat, -, -⟩ :=
      read_replied MEMCACHED_DEFAULT_COMMAND_SIZE result h hcount hwritten hinput
    refine ⟨host', result', ?_, hquiet⟩
    rw [← memcached_response_one _ _ _ _ hcount] at hr
    rw [statsLoop, readResponse_on htext s hr]
    dsimp only
    rw [if_neg hstat]
  | @stat line hstat rest h ih =>
    obtain ⟨fuel, rfl⟩ : ∃ k, fuel = k + 1 := ⟨fuel - 1, by omega⟩
    obtain ⟨input, hr, hi⟩ := textual_read_line host.response_decrement result line rest
      (by rw [response_decrement_input, hinput])
    -- the response is counted again
    have hstill : stillPending line.code { host.response_decrement with input } =
        { host with input } := by
      rw [hstat, stillPending, if_pos (Or.inl rfl)]
      simp [response_decrement, response_increment, hcount, UINT32_MAX]
    have hone : memcached_response .text host MEMCACHED_DEFAULT_COMMAND_SIZE result =
        (STAT, { host with input }, result) := by
      rw [memcached_response_one _ _ _ _ hcount, memcached_read_one_response]
      simp only [hr, hstill]
      rw [hstat]
      rfl
    have hlater := length_statsReplied_line line rest
    obtain ⟨host', result', hloop, hquiet⟩ := ih fuel (by omega) { host with input } result hcount
      hwritten hi
    refine ⟨host', result', ?_, hquiet⟩
    rw [statsLoop, readResponse_on htext s hone]
    exact hloop

theorem Orderly.stats_fetch {net : Network n} {ptr : memcached_st n} (h : Orderly ptr) (s : Fin n)
    (hreplied : StatsReplied (bytesOf (net.answer s (ascii ['s', 't', 'a', 't', 's'] ++
      [13, 10])).1)) : Follows ptr (ascii_stats_fetch net ptr s).1 := by
  obtain ⟨q, hsynced, hq⟩ := h.pending
  have hstep : InStep ptr.support_cas .text (ptr.servers s) (q s) := h.text ▸ hsynced s
  unfold ascii_stats_fetch
  dsimp only
  rcases vdo_cases net hstep (ascii ['s', 't', 'a', 't', 's'] ++ [13, 10]) (by simp) with
    ⟨rc, host', hvdo, hrc, hquiet, -⟩ | ⟨host', hvdo, -, hcount, hwritten, hinput⟩
  · rw [hvdo]
    split
    · rename_i heq
      cases heq
      exact absurd rfl hrc
    · rename_i heq
      cases heq
      exact h.tidy.quiet s hquiet
  · rw [hvdo]
    obtain ⟨input, result', hi, hp⟩ :=
      response_purged MEMCACHED_DEFAULT_COMMAND_SIZE ptr.result hstep (hq s) hcount hinput
    rw [← memcached_response_one .text { host' with cursor_active := 1, input } _ _ rfl] at hp
    obtain ⟨rc, host₁, result₁, hone⟩ : ∃ rc host₁ result₁, memcached_response .text
        { host' with cursor_active := 1, input } MEMCACHED_DEFAULT_COMMAND_SIZE result' =
          (rc, host₁, result₁) := ⟨_, _, _, rfl⟩
    rw [hone] at hp
    have hread : readResponse (ptr.setServer s host') s MEMCACHED_DEFAULT_COMMAND_SIZE =
        readResponse { ptr.setServer s { host' with cursor_active := 1, input } with
          result := result' } s MEMCACHED_DEFAULT_COMMAND_SIZE :=
      (readResponse_on h.text s hp).trans (readResponse_on h.text s hone).symm
    obtain ⟨host'', result'', hloop, hquiet⟩ := statsLoop_quiet h.text s hreplied
      (host'.input.bytes.length + 1) (by rw [hinput, List.length_append]; omega)
      { host' with cursor_active := 1, input } result' rfl hwritten hi
    dsimp only
    rw [statsLoop, hread, ← statsLoop, hloop]
    exact (h.tidy.quiet s hquiet).result result''

/-- The figures of each host are read to their end, or the host is closed. -/
theorem Orderly.stat {net : Network n} {stores : Fin n → Store} {ptr : memcached_st n}
    (h : Orderly ptr) (hnet : Answering net stores) : Follows ptr (memcached_stat net ptr).1 := by
  have hloop : ∀ (hosts : List (Fin n)) (st : memcached_st n × memcached_return_t),
      Follows ptr st.1 → Follows ptr (hosts.foldl (fun st s =>
        ((ascii_stats_fetch net st.1 s).1,
          if (ascii_stats_fetch net st.1 s).2 ≠ SUCCESS then SOME_ERRORS else st.2)) st).1 := by
    intro hosts
    induction hosts with
    | nil => exact fun st hst => hst
    | cons s hosts ih =>
      exact fun st hst => ih _ (hst.trans ((h.follows hst).stats_fetch s (hnet.stats s)))
  exact hloop _ (ptr, SUCCESS) h.tidy.refl

end Libmemcached
