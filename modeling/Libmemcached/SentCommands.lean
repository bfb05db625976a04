-- Which host a call sends something to, and what: a storage command or a delete
-- goes to one host, and so does a get of one key.
import Libmemcached.OwnResponses
import Libmemcached.SentBytes
import Libmemcached.Wrapper

open Chunks Queues

namespace Libmemcached

open memcached_return_t memcached_server_st

variable {n : Nat}

/-- From one handle to the next the host `s` was sent these requests, and no
other host was sent anything. -/
structure Hands (ptr ptr' : memcached_st n) (s : Fin n) (requests : List Bytes) : Prop where
  host : (ptr'.servers s).sent = (ptr.servers s).sent ++ requests
  others : ∀ t, t ≠ s → (ptr'.servers t).sent = (ptr.servers t).sent

/-- A host that can be reached, and takes every write. -/
structure Up (net : Network n) (s : Fin n) : Prop where
  connects : net.connect s = SUCCESS
  takes : TakesAll net s

theorem Hands.trans {ptr ptr₁ ptr₂ : memcached_st n} {s : Fin n} {requests more : List Bytes}
    (h : Hands ptr ptr₁ s requests) (h' : Hands ptr₁ ptr₂ s more) :
    Hands ptr ptr₂ s (requests ++ more) where
  host := by rw [h'.host, h.host, List.append_assoc]
  others t ht := (h'.others t ht).trans (h.others t ht)

/-- A step that sends nothing. -/
theorem hands_nothing {ptr ptr' : memcached_st n} (s : Fin n)
    (h : ∀ t, (ptr'.servers t).sent = (ptr.servers t).sent) : Hands ptr ptr' s [] where
  host := by rw [h s, List.append_nil]
  others t _ := h t

/-- What happens before and after, and sends nothing, makes no difference. -/
theorem Hands.frame {ptr₀ ptr ptr' ptr₁ : memcached_st n} {s : Fin n} {requests : List Bytes}
    (h : Hands ptr ptr' s requests) (hbefore : ∀ t, (ptr.servers t).sent = (ptr₀.servers t).sent)
    (hafter : ∀ t, (ptr₁.servers t).sent = (ptr'.servers t).sent) : Hands ptr₀ ptr₁ s requests := by
  have hall := ((hands_nothing s hbefore).trans h).trans (hands_nothing s hafter)
  simpa using hall

theorem hands_setServer (ptr : memcached_st n) {s : Fin n} {host : memcached_server_st}
    {requests : List Bytes} (h : host.sent = (ptr.servers s).sent ++ requests) :
    Hands ptr (ptr.setServer s host) s requests where
  host := by rw [memcached_st.setServer_self, h]
  others t ht := by rw [memcached_st.setServer_of_ne _ _ ht]

/-- A host that was sent something is the one host of the call. -/
theorem Hands.unique {ptr ptr' : memcached_st n} {s t : Fin n} {requests more : List Bytes}
    (h : Hands ptr ptr' s requests) (h' : Hands ptr ptr' t more) (hne : requests ≠ []) :
    s = t := by
  by_contra hst
  have hsent := h.host
  rw [h'.others s hst] at hsent
  exact hne (List.self_eq_append_right.mp hsent)

theorem inStep_written {withCas : Bool} {p : Protocol} {host : memcached_server_st}
    {o : Option (Queue Reply)} (h : InStep withCas p host o) : host.write_buffer = [] := by
  cases o with
  | none => exact Quiet.written h
  | some q => exact Owes.written h

/-! ## One command -/

/-- What a call hands over that writes one command to one host. -/
structure Carries (net : Network n) (ptr : memcached_st n) (s : Fin n) (command : Bytes)
    (out : memcached_st n × memcached_return_t) : Prop where
  hands : ∃ requests, Hands ptr out.1 s requests ∧ (requests = [] ∨ requests = [command])
  up : Up net s → Hands ptr out.1 s [command]
  ok : LMC_RETURN_OK out.2 = true → Hands ptr out.1 s [command]

theorem connectFailure_not_ok {rc : memcached_return_t} (h : isConnectFailure rc = true) :
    LMC_RETURN_OK rc = false := by
  cases rc <;> first | rfl | cases h

theorem connect_written (net : Network n) (s : Fin n) (host : memcached_server_st) :
    (memcached_connect net s host).2.write_buffer = host.write_buffer := by
  unfold memcached_connect
  split_ifs
  · rfl
  · split <;> rfl

theorem Up.alive {net : Network n} {s : Fin n} (h : Up net s) (ptr : memcached_st n) :
    Alive net ptr s := Or.inr h.connects

/-- A connect to a host that is up succeeds. -/
theorem Up.connect {net : Network n} {s : Fin n} (h : Up net s) (host : memcached_server_st) :
    (memcached_connect net s host).1 = SUCCESS := by
  unfold memcached_connect
  split_ifs
  · rfl
  · rw [h.connects]

/-- A connect that fails has a code that is no success. -/
theorem connect_code (net : Network n) (s : Fin n) (host : memcached_server_st) :
    (memcached_connect net s host).1 = SUCCESS ∨
      LMC_RETURN_OK (memcached_connect net s host).1 = false := by
  unfold memcached_connect
  split_ifs
  · exact Or.inl rfl
  · rcases net.connect_code s with h | h
    · rw [h]
      exact Or.inl rfl
    · right
      have hbad := connectFailure_not_ok h
      generalize net.connect s = rc at hbad
      cases rc <;> exact hbad

/-- So has a command that is not written. -/
theorem vdo_code (net : Network n) (s : Fin n) (host : memcached_server_st) (command : Bytes) :
    (memcached_vdo net s host command true).1 = SUCCESS ∨
      (¬ Up net s ∧ LMC_RETURN_OK (memcached_vdo net s host command true).1 = false) := by
  have hcode := connect_code net s host
  have hup := fun hup : Up net s => hup.connect host
  rcases hc : memcached_connect net s host with ⟨rc, host₁⟩
  rw [hc] at hcode hup
  by_cases hrc : rc = SUCCESS
  · subst hrc
    rw [memcached_vdo, hc]
    dsimp only
    rcases flush_cases net s host₁ command with ⟨hw, hrefused⟩ | ⟨-, hw⟩ | ⟨-, -, hw⟩
    · rw [hw]
      exact Or.inr ⟨fun hup => hup.takes.not_refused hrefused, rfl⟩
    · rw [hw]
      exact Or.inl rfl
    · rw [hw]
      exact Or.inl rfl
  · have hvdo : memcached_vdo net s host command true = (rc, host₁) := by
      rw [memcached_vdo, hc]
      cases rc <;> first | rfl | exact absurd rfl hrc
    rw [hvdo]
    exact Or.inr ⟨fun h => hrc (hup h), hcode.resolve_left hrc⟩

/-- What is done with the code, and a connection that is closed, sends
nothing. -/
theorem Carries.settle {net : Network n} {ptr : memcached_st n} {s : Fin n} {command : Bytes}
    {out out' : memcached_st n × memcached_return_t} (h : Carries net ptr s command out)
    (hsent : ∀ t, (out'.1.servers t).sent = (out.1.servers t).sent)
    (hok : LMC_RETURN_OK out'.2 = true → LMC_RETURN_OK out.2 = true) :
    Carries net ptr s command out' := by
  have hkeep : ∀ {requests}, Hands ptr out.1 s requests → Hands ptr out'.1 s requests :=
    fun h => h.frame (fun _ => rfl) hsent
  obtain ⟨requests, hhands, hone⟩ := h.hands
  exact ⟨⟨requests, hkeep hhands, hone⟩, fun hup => hkeep (h.up hup),
    fun hout => hkeep (h.ok (hok hout))⟩

/-- Nor does a step before the command that sends nothing. -/
theorem Carries.before {net : Network n} {ptr₀ ptr : memcached_st n} {s : Fin n} {command : Bytes}
    {out : memcached_st n × memcached_return_t} (h : Carries net ptr s command out)
    (hsent : ∀ t, (ptr.servers t).sent = (ptr₀.servers t).sent) : Carries net ptr₀ s command out := by
  have hkeep : ∀ {requests}, Hands ptr out.1 s requests → Hands ptr₀ out.1 s requests :=
    fun h => h.frame hsent fun _ => rfl
  obtain ⟨requests, hhands, hone⟩ := h.hands
  exact ⟨⟨requests, hkeep hhands, hone⟩, fun hup => hkeep (h.up hup), fun hok => hkeep (h.ok hok)⟩

section one

variable (net : Network n) {ptr : memcached_st n} {s : Fin n} {command : Bytes}
variable (hwritten : (ptr.servers s).write_buffer = []) (hne : command ≠ [])

include hwritten hne

/-- A command is sent to its host, or was not written at all. -/
theorem exchange_carries (buffer_length : Nat) :
    Carries net ptr s command (exchange net ptr s command buffer_length) := by
  rcases hvdo : memcached_vdo net s (ptr.servers s) command true with ⟨rc, host⟩
  have hsent := vdo_sent hwritten hne hvdo
  have hcode := vdo_code net s (ptr.servers s) command
  rw [hvdo] at hcode
  by_cases hrc : rc = SUCCESS
  · subst hrc
    rw [if_pos rfl] at hsent
    have hhands : Hands ptr (exchange net ptr s command buffer_length).1 s [command] := by
      rw [exchange, hvdo]
      exact (hands_setServer ptr hsent).frame (fun _ => rfl) (readResponse_sent _ _ _)
    exact ⟨⟨_, hhands, Or.inr rfl⟩, fun _ => hhands, fun _ => hhands⟩
  · rw [if_neg hrc] at hsent
    obtain ⟨hdown, hbad⟩ := hcode.resolve_left hrc
    have hout : exchange net ptr s command buffer_length = (ptr.setServer s host, rc) := by
      rw [exchange, hvdo]
      cases rc <;> first | rfl | exact absurd rfl hrc
    rw [hout]
    refine ⟨⟨[], hands_setServer ptr hsent, Or.inl rfl⟩, fun hup => absurd hup hdown, ?_⟩
    intro hok
    rw [hbad] at hok
    cases hok

/-- So is one whose connection is closed when it cannot be written. -/
theorem vdo_or_reset_carries (buffer_length : Nat) {out : memcached_st n × memcached_return_t}
    (hout : out = match memcached_vdo net s (ptr.servers s) command true with
      | (SUCCESS, host) =>
        let (rc, ptr) := readResponse (ptr.setServer s host) s buffer_length
        (ptr, rc)
      | (rc, host) => (ptr.setServer s (memcached_io_reset host), rc)) :
    Carries net ptr s command out := by
  apply (exchange_carries net hwritten hne buffer_length).settle
  · intro t
    rw [hout, exchange]
    rcases memcached_vdo net s (ptr.servers s) command true with ⟨rc, host⟩
    by_cases ht : t = s
    · subst ht
      cases rc <;> first | rfl | simp [memcached_io_reset, memcached_quit_server]
    · cases rc <;> first | rfl | simp only [memcached_st.setServer_of_ne _ _ ht]
  · rw [hout, exchange]
    rcases memcached_vdo net s (ptr.servers s) command true with ⟨rc, host⟩
    cases rc <;> exact id

end one

/-! ## Storage commands and deletes -/

theorem text_delete_carries (net : Network n) {ptr : memcached_st n} {s : Fin n}
    (hwritten : (ptr.servers s).write_buffer = []) {key : Bytes}
    (hkey : memcached_validate_key_length key.length false = SUCCESS) (expiration : UInt64) :
    Carries net ptr s (deleteLine key expiration) (text_delete net ptr s key expiration) := by
  have hne : deleteLine key expiration ≠ [] := by simp [deleteLine]
  have hshort : ¬ MEMCACHED_DEFAULT_COMMAND_SIZE ≤ (deleteLine key expiration).length :=
    Nat.not_le.mpr (length_deleteLine hkey expiration)
  unfold text_delete
  by_cases hexpiration : expiration = 0
  · have hsame : ptr.setServer s (ptr.servers s) = ptr := by simp [memcached_st.setServer]
    rw [if_neg (not_not.mpr hexpiration)]
    dsimp only
    rw [if_neg hshort, hsame]
    exact exchange_carries net hwritten hne MEMCACHED_DEFAULT_COMMAND_SIZE
  · -- the connection is opened first, which sends nothing
    have hsent := connect_sent net s (ptr.servers s)
    have hbuffer := connect_written net s (ptr.servers s)
    have hup := fun hup : Up net s => hup.connect (ptr.servers s)
    rw [if_pos hexpiration]
    rcases hconnect : memcached_connect net s (ptr.servers s) with ⟨rc, host⟩
    rw [hconnect] at hsent hbuffer hup
    have hopened : ∀ t, ((ptr.setServer s host).servers t).sent = (ptr.servers t).sent :=
      setServer_sent ptr hsent
    by_cases hrc : rc = SUCCESS
    · subst hrc
      dsimp only
      rw [if_neg hshort]
      apply Carries.before _ hopened
      exact exchange_carries net (by simpa [hwritten] using hbuffer) hne
        MEMCACHED_DEFAULT_COMMAND_SIZE
    · have hcode := connect_code net s (ptr.servers s)
      rw [hconnect] at hcode
      have hfailed : Carries net ptr s (deleteLine key expiration) (ptr.setServer s host, rc) := by
        refine ⟨⟨[], hands_nothing s hopened, Or.inl rfl⟩, fun h => absurd (hup h) hrc, ?_⟩
        intro hok
        rw [hcode.resolve_left hrc] at hok
        cases hok
      cases rc <;> first | exact hfailed | exact absurd rfl hrc

/-- The bytes of a storage command. -/
def storageBytes (p : Protocol) (verb : memcached_storage_action_t) (key value : Bytes)
    (flags : UInt32) (expiration cas : UInt64) : Bytes :=
  match p with
  | .text => storageLine verb key flags expiration value.length cas ++ value ++ [13, 10]
  | .binary => storagePacket verb key value flags expiration cas

/-- A storage command that passes its checks is written to the host of its
master key. -/
theorem storageWrites_accepted {ptr : memcached_st n} (hn : 0 < n) {key value : Bytes}
    (hlength : memcached_validate_key_length key.length (ptr.protocol = .binary) = SUCCESS)
    (htest : ¬ (ptr.verify_key = true ∧ memcached_key_test [key] = BAD_KEY_PROVIDED))
    (hvalue : value.length < UInt64.size) (master_key : Bytes) (expiration : UInt64)
    (flags : UInt32) (cas : UInt64) (verb : memcached_storage_action_t) :
    storageWrites ptr master_key key value expiration flags cas verb =
      some (ptr.hostOf hn master_key,
        storageBytes ptr.protocol verb key value flags expiration cas) := by
  unfold storageWrites
  rw [if_neg (not_not.mpr hlength), dif_pos hn, if_neg htest]
  cases hp : ptr.protocol with
  | binary => rfl
  | text =>
    rw [hp] at hlength
    dsimp only
    rw [if_neg (Nat.not_le.mpr (length_storageLine hlength verb flags expiration cas hvalue))]
    rfl

section writes

variable (net : Network n) {ptr : memcached_st n} {q : State (Fin n) Reply} (h : Synced ptr q)
variable {master_key key value : Bytes} {expiration : UInt64} {flags : UInt32} {cas : UInt64}
variable {verb : memcached_storage_action_t} {s : Fin n} {command : Bytes}

include h

theorem send_carries
    (hwrites : storageWrites ptr master_key key value expiration flags cas verb =
      some (s, command)) :
    Carries net ptr s command
      (memcached_send net ptr master_key key value expiration flags cas verb) := by
  have hne := (send_of_writes net hwrites).1
  have hwritten := inStep_written (h s)
  unfold storageWrites at hwrites
  split_ifs at hwrites with hlength hn hverify
  unfold memcached_send
  dsimp only at hwrites ⊢
  rw [if_neg hlength, dif_pos hn, if_neg hverify]
  cases hp : ptr.protocol with
  | binary =>
    rw [hp] at hwrites
    cases hwrites
    exact vdo_or_reset_carries net hwritten hne 0 rfl
  | text =>
    rw [hp] at hwrites
    dsimp only at hwrites ⊢
    split_ifs at hwrites with hshort
    cases hwrites
    apply (exchange_carries net hwritten hne MEMCACHED_DEFAULT_COMMAND_SIZE).settle
    · intro t
      unfold memcached_send_text
      dsimp only
      rw [if_neg hshort]
      split_ifs
      all_goals first | rfl | skip
      all_goals exact setServer_sent _ (by rfl) t
    · unfold memcached_send_text
      dsimp only
      rw [if_neg hshort]
      intro hok
      split_ifs at hok with hstored
      · rw [hstored]
        rfl
      · exact hok

theorem delete_carries
    (hwrites : deleteWrites ptr master_key key expiration = some (s, command)) :
    Carries net ptr s command (memcached_delete_by_key net ptr master_key key expiration) := by
  have hne := (delete_of_writes net hwrites).1
  have hwritten := inStep_written (h s)
  have hsettle : ∀ {out : memcached_st n × memcached_return_t}, Carries net ptr s command out →
      Carries net ptr s command (out.1, if out.2 = DELETED then SUCCESS else out.2) := by
    intro out hout
    refine hout.settle (fun _ => rfl) fun hok => ?_
    split_ifs at hok with hdeleted
    · rw [hdeleted]
      rfl
    · exact hok
  unfold deleteWrites at hwrites
  by_cases hlength : memcached_validate_key_length key.length (ptr.protocol = .binary) ≠ SUCCESS
  · rw [if_pos hlength] at hwrites
    cases hwrites
  by_cases hn : 0 < n
  · simp only [memcached_delete_by_key, if_neg hlength, dif_pos hn] at hwrites ⊢
    cases hp : ptr.protocol with
    | binary =>
      rw [hp] at hwrites
      dsimp only at hwrites ⊢
      split_ifs at hwrites with hexpiration
      cases hwrites
      rw [if_pos hexpiration]
      exact hsettle (vdo_or_reset_carries net hwritten hne MEMCACHED_DEFAULT_COMMAND_SIZE rfl)
    | text =>
      rw [hp] at hwrites hlength
      cases hwrites
      exact hsettle (text_delete_carries net hwritten (not_not.mp hlength) expiration)
  · rw [if_neg hlength, dif_neg hn] at hwrites
    cases hwrites

end writes

/-! ## A get of one key -/

/-- The requests of a get of one key. -/
def oneKeyRequests (ptr : memcached_st n) (key : Bytes) : List Bytes :=
  match ptr.protocol with
  | .text => [textRequest ptr.support_cas [key]]
  | .binary => [binaryRequest [key], noopRequest]

section pending

variable {f : Sending n → Fin n → Sending n}
variable (hskip : ∀ st t, (st.1.servers t).cursor_active = 0 → f st t = st)

include hskip

theorem foldl_skip {s : Fin n} {hosts : List (Fin n)} (hnot : s ∉ hosts) {st : Sending n}
    (h : ∀ t, t ≠ s → (st.1.servers t).cursor_active = 0) : hosts.foldl f st = st := by
  induction hosts with
  | nil => rfl
  | cons t hosts ih =>
    rw [List.mem_cons, not_or] at hnot
    rw [List.foldl_cons, hskip st t (h t (Ne.symm hnot.1))]
    exact ih hnot.2

/-- A loop that passes over the hosts without a request is its turn for the one
host that has one. -/
theorem foldl_pending (hframe : ∀ st t u, u ≠ t → (f st t).1.servers u = st.1.servers u)
    {s : Fin n} {st : Sending n} (h : ∀ t, t ≠ s → (st.1.servers t).cursor_active = 0) :
    (List.finRange n).foldl f st = f st s := by
  obtain ⟨before, after, hsplit⟩ := List.append_of_mem (List.mem_finRange s)
  have hnodup := List.nodup_finRange n
  rw [hsplit] at hnodup
  obtain ⟨-, hafter, hdisjoint⟩ := List.nodup_append.mp hnodup
  have hbefore : s ∉ before := fun hmem => hdisjoint s hmem s (List.mem_cons_self ..) rfl
  rw [hsplit, List.foldl_append, foldl_skip hskip hbefore h, List.foldl_cons]
  apply foldl_skip hskip (List.nodup_cons.mp hafter).1
  intro t ht
  rw [hframe st s t ht]
  exact h t ht

end pending

theorem endTextRequest_frame (net : Network n) (st : Sending n) (s t : Fin n) (h : t ≠ s) :
    (endTextRequest net st s).1.servers t = st.1.servers t := by
  unfold endTextRequest
  dsimp only
  split_ifs
  · rfl
  · split <;> exact memcached_st.setServer_of_ne _ _ h

theorem endBinaryRequest_frame (net : Network n) (st : Sending n) (s t : Fin n) (h : t ≠ s) :
    (endBinaryRequest net st s).1.servers t = st.1.servers t := by
  unfold endBinaryRequest
  dsimp only
  split_ifs
  · rfl
  · split
    · exact memcached_st.setServer_of_ne _ _ h
    · split <;> exact memcached_st.setServer_of_ne _ _ h

/-- What a get of one key hands over: the requests go to the host of the key,
which gets all of them when it is up. -/
def HandsOneKey (net : Network n) (ptr ptr' : memcached_st n) (s : Fin n)
    (requests : List Bytes) : Prop :=
  ∃ handed, Hands ptr ptr' s handed ∧ (Up net s → handed = requests)

/-- A key of a text request is only buffered. -/
theorem sendTextKey_sent (net : Network n) (command : Bytes) (route : Bytes → Fin n)
    (st : Sending n) (key : Bytes) (t : Fin n) :
    ((sendTextKey net command route st key).1.servers t).sent = (st.1.servers t).sent := by
  unfold sendTextKey
  dsimp only
  split_ifs
  · have hconnect := connect_sent net (route key) (st.1.servers (route key))
    split <;> rename_i hc <;> rw [hc] at hconnect
    · rename_i host
      have hwrite := write_sent net (route key) host (command ++ key ++ [32])
      split <;> rename_i hw <;> rw [hw] at hwrite
      · exact setServer_sent _ (by exact hwrite.trans hconnect) t
      · exact setServer_sent _ (by exact hwrite.trans hconnect) t
    · exact setServer_sent _ (by exact hconnect) t
  · have hwrite := write_sent net (route key) (st.1.servers (route key)) (key ++ [32])
    split <;> rename_i hw <;> rw [hw] at hwrite
    · exact setServer_sent _ (by exact hwrite) t
    · exact setServer_sent _ (by exact hwrite) t

section one_key

variable (net : Network n) {ptr : memcached_st n} (hquiet : ∀ t, Quiet (ptr.servers t))
variable (route : Bytes → Fin n) (key : Bytes)

include hquiet

/-- The hosts after the key: only that of the key may have a request begun. -/
theorem setServer_pending {s : Fin n} (host : memcached_server_st) (rc : memcached_return_t) :
    ∀ t, t ≠ s → (((ptr.setServer s host, rc) : Sending n).1.servers t).cursor_active = 0 := by
  intro t ht
  dsimp only
  rw [memcached_st.setServer_of_ne _ _ ht]
  exact (hquiet t).count

theorem text_one_key (withCas : Bool) :
    HandsOneKey net ptr ((List.finRange n).foldl (endTextRequest net)
      (sendTextKey net (getCommand withCas) route (ptr, NOTFOUND) key)).1 (route key)
      [textRequest withCas [key]] := by
  have hskip : ∀ (st : Sending n) t, (st.1.servers t).cursor_active = 0 →
      endTextRequest net st t = st := by
    intro st t ht
    simp [endTextRequest, ht]
  have hsent := sendTextKey_sent net (getCommand withCas) route (ptr, NOTFOUND) key (route key)
  obtain ⟨host, rc, asked, hstep, hhost, hcases, hexact⟩ :=
    sendTextKey_sends net withCas route key ptr NOTFOUND [] (by
      rw [Asked, if_pos rfl]
      exact hquiet _)
  have hup : Up net (route key) → asked = [key] := by
    intro hup
    have he := hexact (hup.takes.keys .text)
    rw [if_pos (hup.alive ptr)] at he
    exact he.1
  rw [hstep, memcached_st.setServer_self] at hsent
  have hkey : Hands ptr (ptr.setServer (route key) host) (route key) [] :=
    hands_setServer ptr (by rw [hsent, List.append_nil])
  rw [hstep, foldl_pending hskip (fun st t u => endTextRequest_frame net st t u)
    (setServer_pending hquiet host rc)]
  rcases hcases with rfl | rfl
  · -- the host has no request
    rw [Asked, if_pos rfl] at hhost
    rw [hskip _ _ (by simpa using hhost.count)]
    refine ⟨[], hkey, fun h => ?_⟩
    cases hup h
  · rw [Asked, if_neg (by simp)] at hhost
    have hopened : Opened (getCommand withCas ++ [key].flatMap (· ++ [32])) host := hhost
    have hcount : host.cursor_active ≠ 0 := by rw [hopened.count]; decide
    have hrequest : host.write_buffer ++ [13, 10] = textRequest withCas [key] := by
      rw [hopened.written]; rfl
    simp only [endTextRequest, memcached_st.setServer_self, hcount, if_false]
    rcases flush_cases net (route key) host [13, 10] with ⟨hw, hrefused⟩ | ⟨hnil, -⟩ | ⟨-, -, hw⟩
    · rw [hw]
      refine ⟨[], hkey.trans (hands_setServer _ ?_),
        fun h => absurd hrefused h.takes.not_refused⟩
      simp [memcached_quit_server]
    · simp at hnil
    · rw [hw]
      refine ⟨[textRequest withCas [key]], hkey.trans (hands_setServer _ ?_), fun _ => rfl⟩
      rw [memcached_st.setServer_self, hrequest]

/-- The request for a single key of a binary get is sent at once. -/
theorem sendBinaryKey_sent {host : memcached_server_st} {rc : memcached_return_t}
    (hstep : sendBinaryKey net route true (ptr, NOTFOUND) key = (ptr.setServer (route key) host, rc)) :
    host.sent = (ptr.servers (route key)).sent ++
      if host.cursor_active = 0 then [] else [binaryRequest [key]] := by
  have hhost := congrArg (fun st : Sending n => st.1.servers (route key)) hstep
  dsimp only at hhost
  rw [memcached_st.setServer_self] at hhost
  have hzero := (hquiet (route key)).count
  have hconnect := connect_sent net (route key) (ptr.servers (route key))
  rcases connect_cases net (route key) _ (hquiet (route key)) with
    ⟨host₁, hc, hquiet₁, -, -⟩ | ⟨host₁, hc, hquiet₁, -, -, hne⟩
  · rw [hc] at hconnect
    simp only [sendBinaryKey, hzero, if_true, hc] at hhost
    rcases flush_cases net (route key) host₁ (binaryRequest [key]) with
      ⟨hw, -⟩ | ⟨hnil, -⟩ | ⟨-, -, hw⟩
    · rw [hw] at hhost
      rw [← hhost]
      simpa [response_reset, memcached_quit_server] using hconnect
    · rw [List.append_eq_nil_iff] at hnil
      exact absurd hnil.2 (binaryRequest_ne_nil key)
    · rw [hquiet₁.written, List.nil_append] at hw
      rw [hw] at hhost
      rw [← hhost]
      simpa [response_reset, response_increment, UINT32_MAX] using hconnect
  · rw [hc] at hconnect
    have hout : sendBinaryKey net route true (ptr, NOTFOUND) key =
        (ptr.setServer (route key) host₁, net.connect (route key)) := by
      simp only [sendBinaryKey, hzero, if_true, hc]
    rw [hout, memcached_st.setServer_self] at hhost
    rw [← hhost, if_pos hquiet₁.count, List.append_nil]
    exact hconnect

theorem binary_one_key :
    HandsOneKey net ptr ((List.finRange n).foldl (endBinaryRequest net)
      (sendBinaryKey net route true (ptr, NOTFOUND) key)).1 (route key)
      [binaryRequest [key], noopRequest] := by
  have hskip : ∀ (st : Sending n) t, (st.1.servers t).cursor_active = 0 →
      endBinaryRequest net st t = st := by
    intro st t ht
    simp [endBinaryRequest, ht]
  obtain ⟨host, rc, asked, hstep, hhost, hcases, hexact⟩ :=
    sendBinaryKey_sends net route true key ptr NOTFOUND [] (by
      rw [Asked, if_pos rfl]
      exact hquiet _)
  have hup : Up net (route key) → asked = [key] := by
    intro hup
    have he := hexact (hup.takes.keys .binary)
    rw [if_pos (hup.alive ptr)] at he
    exact he.1
  have hsent := sendBinaryKey_sent net hquiet route key hstep
  rw [hstep, foldl_pending hskip (fun st t u => endBinaryRequest_frame net st t u)
    (setServer_pending hquiet host rc)]
  rcases hcases with rfl | rfl
  · rw [Asked, if_pos rfl] at hhost
    rw [if_pos hhost.count] at hsent
    rw [hskip _ _ (by simpa using hhost.count)]
    refine ⟨[], hands_setServer ptr hsent, fun h => ?_⟩
    cases hup h
  · rw [Asked, if_neg (by simp)] at hhost
    obtain ⟨-, hone, hwritten, -⟩ := hhost
    have hcount : host.cursor_active ≠ 0 := by rw [hone]; decide
    rw [if_neg hcount] at hsent
    have hkey := hands_setServer ptr hsent
    -- nothing is left to flush before the NOOP
    have hempty : memcached_io_write net (route key) host [] true = (true, host) ∨
        memcached_io_write net (route key) host [] true = (false, memcached_quit_server host) ∧
          ¬ Up net (route key) := by
      rcases flush_cases net (route key) host [] with ⟨hw, hrefused⟩ | ⟨-, hw⟩ | ⟨hne, -⟩
      · exact Or.inr ⟨hw, fun h => h.takes.not_refused hrefused⟩
      · exact Or.inl hw
      · rw [hwritten] at hne
        exact absurd rfl hne
    simp only [endBinaryRequest, memcached_st.setServer_self, hcount, if_false]
    rcases hempty with hw | ⟨hw, hdown⟩
    · rcases flush_cases net (route key) host noopRequest with
        ⟨hnoop, hrefused⟩ | ⟨hnil, -⟩ | ⟨-, -, hnoop⟩
      · rw [noopRequest] at hnoop
        simp only [hw, hnoop]
        refine ⟨[binaryRequest [key]] ++ [], hkey.trans (hands_setServer _ ?_),
          fun h => absurd hrefused h.takes.not_refused⟩
        simp [response_reset, memcached_quit_server]
      · rw [List.append_eq_nil_iff] at hnil
        exact absurd hnil.2 noopRequest_ne_nil
      · rw [hwritten, List.nil_append] at hnoop
        rw [noopRequest] at hnoop ⊢
        simp only [hw, hnoop]
        refine ⟨[binaryRequest [key]] ++ [_], hkey.trans (hands_setServer _ ?_), fun _ => rfl⟩
        rw [memcached_st.setServer_self]
    · rw [hw]
      refine ⟨[binaryRequest [key]] ++ [], hkey.trans (hands_setServer _ ?_),
        fun h => absurd h hdown⟩
      simp [response_reset, memcached_quit_server]

end one_key

/-- A get of one key that passes its checks is sent to the host of its route
key, and to no other. -/
theorem mget_one_hands (net : Network n) {ptr : memcached_st n} {q : State (Fin n) Reply}
    (h : Synced ptr q) {master_key : Option Bytes} {key : Bytes} {route : Bytes → Fin n}
    (hf : fetchHost ptr master_key [key] = .ok route)
    (hlength : ptr.protocol = .binary → memcached_validate_key_length key.length true = SUCCESS) :
    HandsOneKey net ptr (memcached_mget_by_key net ptr master_key [key]).1 (route key)
      (oneKeyRequests ptr key) := by
  obtain ⟨hdrained, hconfig⟩ := drainAll_synced h
  have hquiet : ∀ t, Quiet ((drainAll ptr).servers t) := hdrained
  have hsent : ∀ {ptr' : memcached_st n} {requests : List Bytes},
      HandsOneKey net (drainAll ptr) ptr' (route key) requests →
      HandsOneKey net ptr ptr' (route key) requests := by
    rintro ptr' requests ⟨handed, hhands, hup⟩
    exact ⟨handed, hhands.frame (drainAll_sent ptr) (fun _ => rfl), hup⟩
  rw [memcached_mget_by_key, hf]
  dsimp only
  rw [sendKeys]
  cases hp : ptr.protocol with
  | text =>
    simp only [hconfig.protocol, hp, hconfig.support_cas, oneKeyRequests, List.foldl_cons,
      List.foldl_nil]
    exact hsent (text_one_key net hquiet route key ptr.support_cas)
  | binary =>
    have hkeys : ∀ k ∈ [key], memcached_validate_key_length k.length true = SUCCESS := by
      intro k hk
      rw [List.mem_singleton.mp hk]
      exact hlength hp
    simp only [hconfig.protocol, hp, oneKeyRequests, sendBinaryKeys_eq net route _ [key] hkeys,
      List.foldl_cons, List.foldl_nil, List.length_singleton, decide_true]
    exact hsent (binary_one_key net hquiet route key)

/-! ## The fetches of the module -/

theorem fetch_one_sv_sent (net : Network n) (state : lmc_state_st n) (flags : UInt32)
    (error : memcached_return_t) (t : Fin n) :
    ((fetch_one_sv net state flags error).state.ptr.servers t).sent =
      (state.ptr.servers t).sent := by
  unfold fetch_one_sv
  split_ifs
  · rfl
  · dsimp only
    have hsent := fetch_execute_sent net state.ptr
      (storeScalar state.ptr.support_cas state.cb_context.get_cb)
      { state.cb_context with dest_sv := .scalar, scalar := none, flags, result_count := 0 } t
    split <;> rename_i hexecuted <;> rw [hexecuted] at hsent <;> exact hsent

theorem record_ptr (rc : Got → memcached_return_t) (out : XS n Got) :
    (out.record rc).state.ptr = out.state.ptr := by
  cases out <;> rfl

theorem fetch_all_sent (net : Network n) (state : lmc_state_st n) (rc : memcached_return_t)
    (dest_ref : HV) (t : Fin n) :
    ((fetch_all_into_hashref net state rc dest_ref).state.ptr.servers t).sent =
      (state.ptr.servers t).sent := by
  unfold fetch_all_into_hashref
  dsimp only
  split
  · rfl
  · have hsent := fetch_execute_sent net state.ptr
      (storeHash state.ptr.support_cas state.cb_context.get_cb)
      { state.cb_context with dest_hv := dest_ref, result_count := 0 } t
    split <;> rename_i hexecuted <;> rw [hexecuted] at hsent <;> exact hsent

/-- What `mget_into_hashref` sends is what its request sends. -/
theorem mget_into_hashref_sent (net : Network n) (state : lmc_state_st n) (keys : List Bytes)
    (dest_ref : HV) (t : Fin n) :
    ((xs_mget_into_hashref net state keys dest_ref).state.ptr.servers t).sent =
      ((memcached_mget net state.ptr keys).1.servers t).sent := by
  have hsent := fetch_all_sent net { state with ptr := (memcached_mget net state.ptr keys).1 }
    (memcached_mget net state.ptr keys).2 dest_ref t
  unfold xs_mget_into_hashref
  dsimp only
  split <;> rename_i hfetch <;> rw [hfetch] at hsent <;> exact hsent

end Libmemcached
