-- What a multi-key get leaves behind: every host that took a part of the
-- request owes the answer to it, and every other host is quiet.
import Libmemcached.Contents
import Libmemcached.Drain

open Chunks Decimal Queues

namespace Libmemcached

open memcached_return_t memcached_server_st

variable {n : Nat}

/-- A host that takes every write. -/
def TakesAll (net : Network n) (s : Fin n) : Prop := ∀ request, net.accepts s request = true

/-- The network takes every write. -/
def Takes (net : Network n) : Prop := ∀ s, TakesAll net s

/-- A host that takes what is only buffered: the loop over the keys of a text
request ends each of its writes with a space, and the binary one may flush. -/
def TakesKeys (net : Network n) (s : Fin n) : Protocol → Prop
  | .text => ∀ request, request.getLast? ≠ some 10 → net.accepts s request = true
  | .binary => TakesAll net s

theorem TakesAll.keys {net : Network n} {s : Fin n} (h : TakesAll net s) (p : Protocol) :
    TakesKeys net s p := by
  cases p with
  | text => exact fun request _ => h request
  | binary => exact h

/-- The host is connected, or can be. -/
def Alive (net : Network n) (ptr : memcached_st n) (s : Fin n) : Prop :=
  (ptr.servers s).fd = true ∨ net.connect s = SUCCESS

instance (net : Network n) (ptr : memcached_st n) (s : Fin n) : Decidable (Alive net ptr s) :=
  inferInstanceAs (Decidable (_ ∨ _))

/-! ## Single writes -/

/-- A host with a request begun and not yet sent. -/
structure Opened (request : Bytes) (host : memcached_server_st) : Prop where
  connected : host.fd = true
  count : host.cursor_active = 1
  input : host.input.bytes = []
  written : host.write_buffer = request

/-- What a connect does to a quiet host. -/
theorem connect_cases (net : Network n) (s : Fin n) (host : memcached_server_st) (h : Quiet host) :
    (∃ host', memcached_connect net s host = (SUCCESS, host') ∧ Quiet host' ∧ host'.fd = true ∧
        (host.fd = true ∨ net.connect s = SUCCESS)) ∨
      (∃ host', memcached_connect net s host = (net.connect s, host') ∧ Quiet host' ∧
        host'.fd = net.leaves_open s ∧ host.fd = false ∧ net.connect s ≠ SUCCESS) := by
  unfold memcached_connect
  by_cases hfd : host.fd = true
  · rw [if_pos hfd]
    exact Or.inl ⟨host, rfl, h, hfd, Or.inl hfd⟩
  · rw [if_neg hfd]
    by_cases hc : net.connect s = SUCCESS
    · rw [hc]
      exact Or.inl ⟨{ host with fd := true }, rfl, ⟨h.count, h.input, h.written⟩, rfl,
        Or.inr rfl⟩
    · refine Or.inr ⟨{ host with fd := net.leaves_open s }, ?_, ⟨h.count, h.input, h.written⟩,
        rfl, by simpa using hfd, hc⟩
      split
      · rename_i he
        exact absurd he hc
      · rfl

/-- What a write without a flush does. -/
theorem write_cases (net : Network n) (s : Fin n) (host : memcached_server_st) (buffer : Bytes) :
    (memcached_io_write net s host buffer false = (false, memcached_quit_server host) ∧
        net.accepts s (host.write_buffer ++ buffer) = false) ∨
      memcached_io_write net s host buffer false =
        (true, { host with write_buffer := host.write_buffer ++ buffer }) := by
  unfold memcached_io_write
  by_cases ha : net.accepts s (host.write_buffer ++ buffer) = false
  · exact Or.inl ⟨by rw [if_pos ha], ha⟩
  · exact Or.inr (by rw [if_neg ha, if_pos rfl])

/-- What a write with a flush does. -/
theorem flush_cases (net : Network n) (s : Fin n) (host : memcached_server_st) (buffer : Bytes) :
    (memcached_io_write net s host buffer true = (false, memcached_quit_server host) ∧
        net.accepts s (host.write_buffer ++ buffer) = false) ∨
      (host.write_buffer ++ buffer = [] ∧ memcached_io_write net s host buffer true = (true, host)) ∨
      (host.write_buffer ++ buffer ≠ [] ∧
        net.accepts s (host.write_buffer ++ buffer) = true ∧
        memcached_io_write net s host buffer true = (true, { host with
          write_buffer := []
          input := host.input.feed (net.answer s (host.write_buffer ++ buffer)).1
          fault := (net.answer s (host.write_buffer ++ buffer)).2
          sent := host.sent ++ [host.write_buffer ++ buffer] })) := by
  unfold memcached_io_write
  by_cases ha : net.accepts s (host.write_buffer ++ buffer) = false
  · exact Or.inl ⟨by rw [if_pos ha], ha⟩
  · by_cases hnil : host.write_buffer ++ buffer = []
    · exact Or.inr (Or.inl ⟨hnil, by rw [if_neg ha, if_neg (by decide), if_pos hnil]⟩)
    · exact Or.inr (Or.inr ⟨hnil, by simpa using ha,
        by rw [if_neg ha, if_neg (by decide), if_neg hnil]⟩)

/-- A refused write leaves nothing that takes all writes. -/
theorem TakesAll.not_refused {net : Network n} {s : Fin n} {request : Bytes}
    (h : TakesAll net s) (hrefused : net.accepts s request = false) : False := by
  rw [h request] at hrefused
  cases hrefused

/-! ## The loop over the keys -/

/-- A host during the loop over the keys: quiet, or with a request begun for
the keys it was asked for. -/
def Asked (R : Fin n → List Bytes → memcached_server_st → Prop) (s : Fin n) (keys : List Bytes)
    (host : memcached_server_st) : Prop :=
  if keys = [] then Quiet host else R s keys host

/-- The loop over the keys as its code depends on it: what each host was asked
for, whether a connect to it gives a socket, and the code. -/
structure Asking (n : Nat) where
  asked : Fin n → List Bytes
  opens : Fin n → Bool
  rc : memcached_return_t

/-- One turn of the loop when the hosts take what is buffered: the key goes to a
host that is connected, or can be, and only a connect sets the code. The next
connect finds the socket that a failed one leaves open. -/
def askKey (net : Network n) (route : Bytes → Fin n) (st : Asking n) (key : Bytes) : Asking n :=
  let s := route key
  if st.opens s then
    { st with
      asked := Function.update st.asked s (st.asked s ++ [key])
      rc := if st.asked s = [] then SUCCESS else st.rc }
  else
    { st with
      opens := Function.update st.opens s (net.leaves_open s)
      rc := net.connect s }

/-- Each host that can be reached is asked for its keys, in order. One that
leaves the socket of a failed connect open misses the first of them. -/
theorem foldl_askKey (net : Network n) (route : Bytes → Fin n) (keys : List Bytes)
    (st : Asking n) (s : Fin n) :
    (keys.foldl (askKey net route) st).asked s =
      st.asked s ++ if st.opens s then keys.filter (route · = s)
        else if net.leaves_open s then (keys.filter (route · = s)).tail else [] := by
  induction keys generalizing st with
  | nil => simp
  | cons k ks ih =>
    rw [List.foldl_cons, ih]
    by_cases hs : s = route k
    · subst hs
      by_cases ha : st.opens (route k) = true
      · simp [askKey, ha]
      · by_cases hl : net.leaves_open (route k) = true
        · simp [askKey, ha, hl]
        · simp [askKey, ha, hl]
    · have hs' : ¬ route k = s := fun h => hs h.symm
      by_cases ha : st.opens (route k) = true
      · simp [askKey, ha, Function.update_of_ne hs, hs']
      · simp [askKey, ha, Function.update_of_ne hs, hs']

/-- The codes of the connects of the loop: a host that has a request already
is left as it is. -/
def connectCodes (net : Network n) (route : Bytes → Fin n) :
    (Fin n → Bool) → List (Fin n) → List Bytes → List memcached_return_t
  | _, _, [] => []
  | opens, seen, k :: ks =>
    let s := route k
    if seen.elem s then connectCodes net route opens seen ks
    else if opens s then SUCCESS :: connectCodes net route opens (s :: seen) ks
    else net.connect s ::
      connectCodes net route (Function.update opens s (net.leaves_open s)) seen ks

/-- The code that the loop ends with: that of its last connect. -/
def askedCode (net : Network n) (route : Bytes → Fin n) (opens : Fin n → Bool) (keys : List Bytes) :
    memcached_return_t :=
  (connectCodes net route opens [] keys).getLast?.getD NOTFOUND

/-- The hosts of `seen` are those that were asked for something, and these are
open. -/
structure Seen (seen : List (Fin n)) (st : Asking n) : Prop where
  asked : ∀ s, s ∈ seen ↔ st.asked s ≠ []
  opens : ∀ s, st.asked s ≠ [] → st.opens s = true

theorem foldl_askKey_code (net : Network n) (route : Bytes → Fin n) (keys : List Bytes)
    (st : Asking n) (seen : List (Fin n)) (h : Seen seen st) :
    (keys.foldl (askKey net route) st).rc =
      (connectCodes net route st.opens seen keys).getLast?.getD st.rc := by
  induction keys generalizing st seen with
  | nil => rfl
  | cons k ks ih =>
    rw [List.foldl_cons, connectCodes]
    by_cases ha : st.opens (route k) = true
    · have hupdate : ∀ s, (askKey net route st k).asked s ≠ [] ↔ s = route k ∨ st.asked s ≠ [] := by
        intro s
        by_cases hs : s = route k
        · subst hs; simp [askKey, ha]
        · simp [askKey, ha, hs]
      have hopens : (askKey net route st k).opens = st.opens := by simp [askKey, ha]
      have hkept : ∀ s, (askKey net route st k).asked s ≠ [] →
          (askKey net route st k).opens s = true := by
        intro s hs
        rw [hopens]
        rcases (hupdate s).mp hs with rfl | hs
        · exact ha
        · exact h.opens s hs
      by_cases hk : route k ∈ seen
      · have hne := (h.asked _).mp hk
        have hrc : (askKey net route st k).rc = st.rc := by simp [askKey, ha, hne]
        rw [if_pos (List.elem_iff.mpr hk), ih _ seen ⟨?_, hkept⟩, hopens, hrc]
        intro s
        rw [hupdate, h.asked]
        constructor
        · exact Or.inr
        · rintro (rfl | hs)
          · exact hne
          · exact hs
      · have hnil : st.asked (route k) = [] := by
          by_contra hne
          exact hk ((h.asked _).mpr hne)
        have hrc : (askKey net route st k).rc = SUCCESS := by simp [askKey, ha, hnil]
        rw [if_neg (mt List.elem_iff.mp hk), if_pos ha, List.getLast?_cons, Option.getD_some,
          ih _ (route k :: seen) ⟨?_, hkept⟩, hopens, hrc]
        intro s
        rw [List.mem_cons, hupdate, h.asked]
    · have hnot : route k ∉ seen := fun hk => ha (h.opens _ ((h.asked _).mp hk))
      have hturn : askKey net route st k = { st with
          opens := Function.update st.opens (route k) (net.leaves_open (route k))
          rc := net.connect (route k) } := by simp [askKey, ha]
      rw [if_neg (mt List.elem_iff.mp hnot), if_neg ha, List.getLast?_cons, Option.getD_some,
        hturn]
      apply ih
      refine ⟨h.asked, fun s hs => ?_⟩
      have hs' : s ≠ route k := by
        rintro rfl
        exact hnot ((h.asked _).mpr hs)
      simpa [Function.update_of_ne hs'] using h.opens s hs

/-- A loop whose last connect succeeded has asked some host. -/
theorem foldl_askKey_success (net : Network n) (route : Bytes → Fin n) (keys : List Bytes)
    (st : Asking n) (hopens : ∀ s, net.connect s = SUCCESS → st.opens s = true)
    (hst : st.rc = SUCCESS → ∃ s, st.asked s ≠ [])
    (h : (keys.foldl (askKey net route) st).rc = SUCCESS) :
    ∃ s, (keys.foldl (askKey net route) st).asked s ≠ [] := by
  induction keys generalizing st with
  | nil => exact hst h
  | cons k ks ih =>
    by_cases ha : st.opens (route k) = true
    · refine ih _ ?_ ?_ h
      · simpa [askKey, ha] using hopens
      · exact fun _ => ⟨route k, by simp [askKey, ha]⟩
    · have hne : net.connect (route k) ≠ SUCCESS := fun hc => ha (hopens _ hc)
      refine ih _ ?_ ?_ h
      · intro s hc
        have hs : s ≠ route k := by
          rintro rfl
          exact hne hc
        simpa [askKey, ha, Function.update_of_ne hs] using hopens s hc
      · intro hrc
        simp only [askKey, ha, Bool.false_eq_true, if_false] at hrc
        exact absurd hrc hne

/-- Which hosts a connect gives a socket to. -/
def opensOf (net : Network n) (ptr : memcached_st n) (s : Fin n) : Bool :=
  decide (Alive net ptr s)

/-- What one turn of the loop does: the key goes to its host, or the host is
lost. -/
def SendsKey (net : Network n) (p : Protocol)
    (R : Fin n → List Bytes → memcached_server_st → Prop) (route : Bytes → Fin n)
    (send : Sending n → Bytes → Sending n) (key : Bytes) : Prop :=
  ∀ (ptr : memcached_st n) (rc : memcached_return_t) (asked : List Bytes),
    Asked R (route key) asked (ptr.servers (route key)) →
    ∃ host' rc' asked', send (ptr, rc) key = (ptr.setServer (route key) host', rc') ∧
      Asked R (route key) asked' host' ∧ (asked' = [] ∨ asked' = asked ++ [key]) ∧
      (TakesKeys net (route key) p → if Alive net ptr (route key) then
          asked' = asked ++ [key] ∧ host'.fd = true ∧ rc' = (if asked = [] then SUCCESS else rc)
        else asked' = asked ∧ host'.fd = net.leaves_open (route key) ∧
          rc' = net.connect (route key))

/-- The state of the loop over the keys. -/
structure Sent (R : Fin n → List Bytes → memcached_server_st → Prop) (ptr ptr' : memcached_st n)
    (asked : Fin n → List Bytes) : Prop where
  hosts : ∀ s, Asked R s (asked s) (ptr'.servers s)
  config : SameConfig ptr ptr'
  result : ptr'.result = ptr.result

theorem sendKey_sent {net : Network n} {p : Protocol}
    {R : Fin n → List Bytes → memcached_server_st → Prop} {route : Bytes → Fin n}
    {send : Sending n → Bytes → Sending n} {key : Bytes}
    (hsend : SendsKey net p R route send key) {ptr₀ ptr : memcached_st n}
    {asked : Fin n → List Bytes} (rc : memcached_return_t) (h : Sent R ptr₀ ptr asked) :
    ∃ asked', Sent R ptr₀ (send (ptr, rc) key).1 asked' ∧
      (∀ s k, k ∈ asked' s → k ∈ asked s ∨ (k = key ∧ route k = s)) ∧
      (∀ s, (asked' s).length ≤ (asked s).length + 1) ∧
      ((∀ s, TakesKeys net s p) →
        ⟨asked', opensOf net (send (ptr, rc) key).1, (send (ptr, rc) key).2⟩ =
          askKey net route ⟨asked, opensOf net ptr, rc⟩ key) := by
  obtain ⟨host', rc', l, hstep, hl, hcases, hexact⟩ :=
    hsend ptr rc (asked (route key)) (h.hosts (route key))
  rw [hstep]
  refine ⟨Function.update asked (route key) l, ⟨?_, h.config.trans ⟨rfl, rfl, rfl, rfl⟩, h.result⟩,
    ?_, ?_, ?_⟩
  · intro s
    by_cases hs : s = route key
    · subst hs; simpa using hl
    · rw [Function.update_of_ne hs, memcached_st.setServer_of_ne _ _ hs]; exact h.hosts s
  · intro s k hk
    by_cases hs : s = route key
    · subst hs
      rw [Function.update_self] at hk
      rcases hcases with rfl | rfl
      · simp at hk
      · rcases List.mem_append.mp hk with hk | hk
        · exact Or.inl hk
        · rw [List.mem_singleton.mp hk]; exact Or.inr ⟨rfl, rfl⟩
    · rw [Function.update_of_ne hs] at hk; exact Or.inl hk
  · intro s
    by_cases hs : s = route key
    · subst hs
      rw [Function.update_self]
      rcases hcases with rfl | rfl <;> simp
    · rw [Function.update_of_ne hs]; omega
  · intro ht
    have he := hexact (ht _)
    -- the sockets of the other hosts are left alone
    have hothers : ∀ s, s ≠ route key →
        opensOf net (ptr.setServer (route key) host') s = opensOf net ptr s := by
      intro s hs
      rw [opensOf, opensOf, decide_eq_decide, Alive, Alive, memcached_st.setServer_of_ne _ _ hs]
    by_cases ha : Alive net ptr (route key)
    · rw [if_pos ha] at he
      have hopens : opensOf net (ptr.setServer (route key) host') = opensOf net ptr := by
        funext s
        by_cases hs : s = route key
        · subst hs
          rw [opensOf, opensOf, decide_eq_decide]
          exact ⟨fun _ => ha, fun _ => Or.inl (by simpa using he.2.1)⟩
        · exact hothers s hs
      have hopen : opensOf net ptr (route key) = true := decide_eq_true ha
      simp only [askKey, hopens, he.1, he.2.2, hopen, if_true]
    · rw [if_neg ha] at he
      have hopens : opensOf net (ptr.setServer (route key) host') =
          Function.update (opensOf net ptr) (route key) (net.leaves_open (route key)) := by
        funext s
        by_cases hs : s = route key
        · subst hs
          have hc : net.connect (route key) ≠ SUCCESS := fun hc => ha (Or.inr hc)
          simp [opensOf, Alive, he.2.1, hc]
        · rw [Function.update_of_ne hs]; exact hothers s hs
      have hshut : opensOf net ptr (route key) = false := decide_eq_false ha
      simp only [askKey, hopens, he.1, he.2.2, hshut, Function.update_eq_self]
      rfl

theorem sendKeys_sent {net : Network n} {p : Protocol}
    {R : Fin n → List Bytes → memcached_server_st → Prop} {route : Bytes → Fin n}
    {send : Sending n → Bytes → Sending n} (keys : List Bytes)
    (hsend : ∀ k ∈ keys, SendsKey net p R route send k) {ptr₀ ptr : memcached_st n}
    {asked : Fin n → List Bytes} (rc : memcached_return_t) (h : Sent R ptr₀ ptr asked) :
    ∃ asked', Sent R ptr₀ (keys.foldl send (ptr, rc)).1 asked' ∧
      (∀ s k, k ∈ asked' s → k ∈ asked s ∨ (k ∈ keys ∧ route k = s)) ∧
      (∀ s, (asked' s).length ≤ (asked s).length + keys.length) ∧
      ((∀ s, TakesKeys net s p) →
        ⟨asked', opensOf net (keys.foldl send (ptr, rc)).1, (keys.foldl send (ptr, rc)).2⟩ =
          keys.foldl (askKey net route) ⟨asked, opensOf net ptr, rc⟩) := by
  induction keys generalizing ptr asked rc with
  | nil => exact ⟨asked, h, fun s k hk => Or.inl hk, fun s => by simp, fun _ => rfl⟩
  | cons key keys ih =>
    obtain ⟨asked₁, h₁, hmem₁, hlen₁, hexact₁⟩ := sendKey_sent (hsend key (by simp)) rc h
    obtain ⟨asked₂, h₂, hmem₂, hlen₂, hexact₂⟩ :=
      ih (fun k hk => hsend k (by simp [hk])) (send (ptr, rc) key).2 h₁
    refine ⟨asked₂, h₂, ?_, ?_, ?_⟩
    · intro s k hk
      rcases hmem₂ s k hk with hk | ⟨hk, hr⟩
      · rcases hmem₁ s k hk with hk | ⟨rfl, hr⟩
        · exact Or.inl hk
        · exact Or.inr ⟨by simp, hr⟩
      · exact Or.inr ⟨by simp [hk], hr⟩
    · intro s
      have h1 := hlen₁ s
      have h2 := hlen₂ s
      simp only [List.length_cons]
      omega
    · intro ht
      rw [List.foldl_cons, List.foldl_cons, ← hexact₁ ht, ← hexact₂ ht]

/-! ## One key of a text request -/

/-- A host with a text request begun. -/
def TextBegun (withCas : Bool) (_ : Fin n) (keys : List Bytes) (host : memcached_server_st) : Prop :=
  Opened (getCommand withCas ++ keys.flatMap (· ++ [32])) host

/-- The writes of the loop over the keys end with a space. -/
theorem getLast_space (bytes : Bytes) : (bytes ++ [32]).getLast? ≠ some 10 := by simp

theorem sendTextKey_sends (net : Network n) (withCas : Bool) (route : Bytes → Fin n) (key : Bytes) :
    SendsKey net .text (TextBegun withCas) route (sendTextKey net (getCommand withCas) route)
      key := by
  intro ptr rc asked h
  -- a write that is refused is none that the host takes as buffered
  have hlost : ∀ {bytes : Bytes}, net.accepts (route key) (bytes ++ [32]) = false →
      ¬ TakesKeys net (route key) .text := by
    intro bytes hrefused ht
    rw [ht _ (getLast_space bytes)] at hrefused
    cases hrefused
  by_cases hasked : asked = []
  · subst hasked
    rw [Asked, if_pos rfl] at h
    rcases connect_cases net (route key) _ h with
      ⟨host, hc, hquiet, hfd, halive⟩ | ⟨host, hc, hquiet, hleft, hfd, hne⟩
    · rcases write_cases net (route key) host (getCommand withCas ++ key ++ [32]) with
        ⟨hw, hrefused⟩ | hw
      · rw [← List.append_assoc] at hrefused
        refine ⟨memcached_quit_server host, SOME_ERRORS, [], ?_,
          by rw [Asked, if_pos rfl]; exact quiet_quit host, Or.inl rfl, fun ht => absurd ht (hlost hrefused)⟩
        simp only [sendTextKey, h.count, hc, hw, if_true]
      · refine ⟨{ host with write_buffer := host.write_buffer ++ (getCommand withCas ++ key ++ [32])
          }.response_increment, SUCCESS, [key], ?_, ?_, Or.inr rfl, ?_⟩
        · simp only [sendTextKey, h.count, hc, hw, if_true]
        · rw [Asked, if_neg (by simp)]
          refine ⟨hfd, ?_, hquiet.input, ?_⟩
          · simp only [response_increment, hquiet.count]; decide
          · simp [response_increment, hquiet.written]
        · intro _
          have ha : Alive net ptr (route key) := halive
          rw [if_pos ha]
          exact ⟨rfl, hfd, rfl⟩
    · refine ⟨host, net.connect (route key), [], ?_,
        by rw [Asked, if_pos rfl]; exact hquiet, Or.inl rfl, ?_⟩
      · simp only [sendTextKey, h.count, hc, if_true]
      · intro _
        have hdead : ¬ Alive net ptr (route key) := by simp [Alive, hfd, hne]
        rw [if_neg hdead]
        exact ⟨rfl, hleft, rfl⟩
  · rw [Asked, if_neg hasked] at h
    have hcount : (ptr.servers (route key)).cursor_active ≠ 0 := by rw [h.count]; decide
    rcases write_cases net (route key) (ptr.servers (route key)) (key ++ [32]) with
      ⟨hw, hrefused⟩ | hw
    · rw [← List.append_assoc] at hrefused
      refine ⟨(memcached_quit_server (ptr.servers (route key))).response_reset, SOME_ERRORS, [], ?_,
        by rw [Asked, if_pos rfl]; exact quiet_quit _, Or.inl rfl,
        fun ht => absurd ht (hlost hrefused)⟩
      simp only [sendTextKey, hcount, if_false, hw]
    · refine ⟨{ ptr.servers (route key) with
          write_buffer := (ptr.servers (route key)).write_buffer ++ (key ++ [32]) }, rc,
        asked ++ [key], ?_, ?_, Or.inr rfl, ?_⟩
      · simp only [sendTextKey, hcount, if_false, hw]
      · rw [Asked, if_neg (by simp)]
        refine ⟨h.connected, h.count, h.input, ?_⟩
        simp [h.written]
      · intro _
        have ha : Alive net ptr (route key) := Or.inl h.connected
        rw [if_pos ha]
        exact ⟨rfl, h.connected, by rw [if_neg hasked]⟩

/-! ## One key of a binary request -/

/-- One turn of the loop of `simple_binary_mget`, for a key of an allowed
length. -/
def sendBinaryKey (net : Network n) (server_key : Bytes → Fin n) (flush : Bool) :
    Sending n → Bytes → Sending n
  | (ptr, rc), key =>
    let s := server_key key
    let opened := if (ptr.servers s).cursor_active = 0 then memcached_connect net s (ptr.servers s)
      else (SUCCESS, ptr.servers s)
    match opened with
    | (SUCCESS, host) =>
      let rc := if (ptr.servers s).cursor_active = 0 then SUCCESS else rc
      match memcached_io_write net s host (binaryRequest [key]) flush with
      | (false, host) => (ptr.setServer s host.response_reset, SOME_ERRORS)
      | (true, host) => (ptr.setServer s host.response_reset.response_increment, rc)
    | (rc, host) => (ptr.setServer s host, rc)

theorem sendBinaryKeys_eq (net : Network n) (route : Bytes → Fin n) (flush : Bool)
    (keys : List Bytes) (hkeys : ∀ k ∈ keys, memcached_validate_key_length k.length true = SUCCESS)
    (st : Sending n) (x : Nat) :
    sendBinaryKeys net route flush st x keys =
      (keys.foldl (sendBinaryKey net route flush) st, true) := by
  induction keys generalizing st x with
  | nil => rfl
  | cons key keys ih =>
    obtain ⟨ptr, rc⟩ := st
    have hk := hkeys key (by simp)
    have hreq : binaryRequest [key] =
        requestHeader PROTOCOL_BINARY_CMD_GETKQ key.length 0 key.length 0 ++ key := by
      simp [binaryRequest]
    have ih' := ih fun k hk => hkeys k (by simp [hk])
    rw [sendBinaryKeys, List.foldl_cons, sendBinaryKey]
    simp only [hk, ne_eq, not_true_eq_false, if_false, hreq]
    generalize (if (ptr.servers (route key)).cursor_active = 0 then
      memcached_connect net (route key) (ptr.servers (route key))
      else (SUCCESS, ptr.servers (route key))) = opened
    obtain ⟨rc', host⟩ := opened
    by_cases hrc : rc' = SUCCESS
    · subst hrc
      rcases hw : memcached_io_write net (route key) host
        (requestHeader PROTOCOL_BINARY_CMD_GETKQ key.length 0 key.length 0 ++ key) flush with
        ⟨_ | _, host'⟩
      · simp only [hw]; exact ih' _ _
      · simp only [hw]; exact ih' _ _
    · cases rc' <;> first | exact ih' _ _ | exact absurd rfl hrc

/-- A host with a binary request begun. The request for a single key is sent
at once. -/
def BinaryBegun (net : Network n) (flush : Bool) (s : Fin n) (keys : List Bytes)
    (host : memcached_server_st) : Prop :=
  if flush then
    host.fd = true ∧ host.cursor_active = 1 ∧ host.write_buffer = [] ∧
      (keys.length = 1 → host.input.bytes = bytesOf (net.answer s (binaryRequest keys)).1)
  else Opened (binaryRequest keys) host

theorem BinaryBegun.count {net : Network n} {flush : Bool} {s : Fin n} {keys : List Bytes}
    {host : memcached_server_st} (h : BinaryBegun net flush s keys host) :
    host.cursor_active = 1 := by
  cases flush with
  | false => exact Opened.count h
  | true => exact h.2.1

theorem BinaryBegun.connected {net : Network n} {flush : Bool} {s : Fin n} {keys : List Bytes}
    {host : memcached_server_st} (h : BinaryBegun net flush s keys host) : host.fd = true := by
  cases flush with
  | false => exact Opened.connected h
  | true => exact h.1

theorem binaryRequest_append (keys : List Bytes) (key : Bytes) :
    binaryRequest (keys ++ [key]) = binaryRequest keys ++ binaryRequest [key] := by
  simp [binaryRequest]

theorem binaryRequest_ne_nil (key : Bytes) : binaryRequest [key] ≠ [] := by
  simp [binaryRequest, requestHeader]

/-- The write of one key on a host that was opened before or just now. -/
theorem write_binary_key (net : Network n) (flush : Bool) (s : Fin n) (key : Bytes)
    (asked : List Bytes) (host : memcached_server_st) (hfd : host.fd = true)
    (hhost : if asked = [] then Quiet host else BinaryBegun net flush s asked host) :
    (memcached_io_write net s host (binaryRequest [key]) flush =
        (false, memcached_quit_server host) ∧ ¬ TakesAll net s) ∨
      ∃ host', memcached_io_write net s host (binaryRequest [key]) flush = (true, host') ∧
        host'.fd = true ∧
        BinaryBegun net flush s (asked ++ [key]) host'.response_reset.response_increment := by
  cases flush with
  | false =>
    rcases write_cases net s host (binaryRequest [key]) with ⟨hw, hrefused⟩ | hw
    · exact Or.inl ⟨hw, fun ht => ht.not_refused hrefused⟩
    · refine Or.inr ⟨_, hw, hfd, ?_⟩
      have hwritten : host.write_buffer = binaryRequest asked := by
        split at hhost
        · rename_i hnil; rw [hnil]; exact hhost.written
        · exact hhost.written
      have hinput : host.input.bytes = [] := by
        split at hhost
        · exact hhost.input
        · exact hhost.input
      exact ⟨hfd, rfl, hinput, by
        rw [binaryRequest_append, ← hwritten]; rfl⟩
  | true =>
    rcases flush_cases net s host (binaryRequest [key]) with ⟨hw, hrefused⟩ | ⟨hnil, -⟩ | ⟨-, -, hw⟩
    · exact Or.inl ⟨hw, fun ht => ht.not_refused hrefused⟩
    · simp only [List.append_eq_nil_iff] at hnil
      exact absurd hnil.2 (binaryRequest_ne_nil key)
    · refine Or.inr ⟨_, hw, hfd, hfd, rfl, rfl, ?_⟩
      intro hone
      have hasked : asked = [] := by simpa using hone
      subst hasked
      rw [if_pos rfl] at hhost
      simp [response_increment, response_reset, hhost.input, hhost.written]

theorem sendBinaryKey_sends (net : Network n) (route : Bytes → Fin n) (flush : Bool)
    (key : Bytes) : SendsKey net .binary (BinaryBegun net flush) route
      (sendBinaryKey net route flush) key := by
  intro ptr rc asked h
  -- the host was opened before, or is opened now, or cannot be
  have hopen : (∃ host, (if (ptr.servers (route key)).cursor_active = 0 then
        memcached_connect net (route key) (ptr.servers (route key))
        else (SUCCESS, ptr.servers (route key))) = (SUCCESS, host) ∧ host.fd = true ∧
        Alive net ptr (route key) ∧
        (if asked = [] then Quiet host else BinaryBegun net flush (route key) asked host)) ∨
      (∃ host, (if (ptr.servers (route key)).cursor_active = 0 then
        memcached_connect net (route key) (ptr.servers (route key))
        else (SUCCESS, ptr.servers (route key))) = (net.connect (route key), host) ∧
        Quiet host ∧ host.fd = net.leaves_open (route key) ∧
        asked = [] ∧ ¬ Alive net ptr (route key)) := by
    by_cases hasked : asked = []
    · rw [Asked, if_pos hasked] at h
      rw [if_pos h.count]
      rcases connect_cases net (route key) _ h with
        ⟨host, hc, hquiet, hfd, halive⟩ | ⟨host, hc, hquiet, hleft, hfd, hne⟩
      · exact Or.inl ⟨host, hc, hfd, halive, by rw [if_pos hasked]; exact hquiet⟩
      · exact Or.inr ⟨host, hc, hquiet, hleft, hasked, by simp [Alive, hfd, hne]⟩
    · rw [Asked, if_neg hasked] at h
      have hfd := BinaryBegun.connected h
      rw [if_neg (by rw [BinaryBegun.count h]; decide)]
      exact Or.inl ⟨_, rfl, hfd, Or.inl hfd, by rw [if_neg hasked]; exact h⟩
  have hzero : (ptr.servers (route key)).cursor_active = 0 ↔ asked = [] := by
    by_cases hasked : asked = []
    · rw [Asked, if_pos hasked] at h
      simp [hasked, h.count]
    · rw [Asked, if_neg hasked] at h
      simp [hasked, BinaryBegun.count h]
  rcases hopen with ⟨host, hop, hfd, halive, hhost⟩ | ⟨host, hop, hquiet, hleft, hasked, hdead⟩
  · rcases write_binary_key net flush (route key) key asked host hfd hhost with
      ⟨hw, hnot⟩ | ⟨host', hw, hfd', hbegun⟩
    · refine ⟨(memcached_quit_server host).response_reset, SOME_ERRORS, [], ?_,
        by rw [Asked, if_pos rfl]; exact quiet_quit host, Or.inl rfl, fun ht => absurd ht hnot⟩
      simp only [sendBinaryKey, hop, hw]
    · refine ⟨host'.response_reset.response_increment,
        if asked = [] then SUCCESS else rc, asked ++ [key], ?_, ?_, Or.inr rfl, ?_⟩
      · simp only [sendBinaryKey, hop, hw]
        simp only [hzero]
      · rw [Asked, if_neg (by simp)]
        exact hbegun
      · intro _
        rw [if_pos halive]
        exact ⟨rfl, hfd', rfl⟩
  · refine ⟨host, net.connect (route key), asked, ?_, ?_, Or.inl hasked, ?_⟩
    · have hne : net.connect (route key) ≠ SUCCESS := fun he => hdead (Or.inr he)
      simp only [sendBinaryKey, hop]
    · rw [Asked, if_pos hasked]
      exact hquiet
    · intro _
      rw [if_neg hdead]
      exact ⟨rfl, hleft, rfl⟩

/-! ## The end of a request -/

/-- The answer that a host owes after a request for some keys, or nothing
when it was not asked. -/
def owedFor (answers : Fin n → List Bytes → Queue Reply) (asked : Fin n → List Bytes) :
    State (Fin n) Reply := fun s =>
  if asked s = [] then none else some (answers s (asked s))

/-- A host that was asked for some keys, and whose request is sent, owes the
answer. -/
theorem owes_of_answered {withCas : Bool} {p : Protocol} (store : Store) (keys : List Bytes)
    {q : Queue Reply} {host : memcached_server_st} (hfd : host.fd = true)
    (hcount : host.cursor_active = 1) (hwritten : host.write_buffer = [])
    (h : Answered withCas p (store.replies keys) host.input.bytes q) :
    Owes withCas p host q := by
  refine ⟨hfd, hcount, hwritten, ?_, h.input⟩
  intro r hr
  exact store.valid _ _ (Store.mem_replies.mp (h.items.subset hr)).2

/-- A socket without a connection behind it: what is buffered is taken, and the
end of a text request, which is flushed, is refused. -/
def Unconnected (net : Network n) (s : Fin n) : Prop :=
  ∀ request, net.accepts s request = decide (request.getLast? ≠ some 10)

theorem Unconnected.keys {net : Network n} {s : Fin n} (h : Unconnected net s) :
    TakesKeys net s .text := by
  intro request hrequest
  rw [h request, decide_eq_true hrequest]

/-- What the end of a request does with a host that was asked for some keys: it
owes the answer, or its connection is lost with the write. -/
structure EndsRequest (net : Network n) (s : Fin n) (withCas : Bool) (p : Protocol)
    (answer : Queue Reply) (asked : List Bytes) (rc : memcached_return_t)
    (host' : memcached_server_st) (rc' : memcached_return_t) : Prop where
  host : InStep withCas p host' (if asked = [] then none else some answer) ∨
    (Quiet host' ∧ asked ≠ [] ∧ ¬ TakesAll net s)
  taken : (asked ≠ [] → TakesAll net s) → rc' = rc
  code : rc' = rc ∨ rc' = SOME_ERRORS
  refused : asked ≠ [] → p = .text → Unconnected net s → Quiet host' ∧ rc' = SOME_ERRORS

/-- A host that was not asked is left as it is. -/
theorem EndsRequest.unasked {net : Network n} {s : Fin n} {withCas : Bool} {p : Protocol}
    {answer : Queue Reply} {rc : memcached_return_t} {host : memcached_server_st}
    (h : Quiet host) : EndsRequest net s withCas p answer [] rc host rc :=
  ⟨Or.inl (by rw [if_pos rfl]; exact h), fun _ => rfl, Or.inl rfl, fun hne => absurd rfl hne⟩

/-- A write that is refused loses the connection. -/
theorem EndsRequest.lost {net : Network n} {s : Fin n} {withCas : Bool} {p : Protocol}
    {answer : Queue Reply} {asked : List Bytes} {rc : memcached_return_t}
    {host : memcached_server_st} (h : Quiet host) (hasked : asked ≠ []) (hnot : ¬ TakesAll net s) :
    EndsRequest net s withCas p answer asked rc host SOME_ERRORS :=
  ⟨Or.inr ⟨h, hasked, hnot⟩, fun ht => absurd (ht hasked) hnot, Or.inr rfl, fun _ _ _ => ⟨h, rfl⟩⟩

theorem endTextRequest_ends {net : Network n} {stores : Fin n → Store} {withCas : Bool}
    {answers : Fin n → List Bytes → Queue Reply} (hserves : Serves net stores withCas .text answers)
    (ptr : memcached_st n) (rc : memcached_return_t) (s : Fin n) (asked : List Bytes)
    (hline : ∀ k ∈ asked, OneLine k) (h : Asked (TextBegun withCas) s asked (ptr.servers s)) :
    ∃ host' rc', endTextRequest net (ptr, rc) s = (ptr.setServer s host', rc') ∧
      EndsRequest net s withCas .text (answers s asked) asked rc host' rc' := by
  by_cases hasked : asked = []
  · subst hasked
    rw [Asked, if_pos rfl] at h
    refine ⟨ptr.servers s, rc, ?_, .unasked h⟩
    simp [endTextRequest, h.count, memcached_st.setServer]
  · rw [Asked, if_neg hasked] at h
    have hopened : Opened (getCommand withCas ++ asked.flatMap (· ++ [32])) (ptr.servers s) := h
    have hcount : (ptr.servers s).cursor_active ≠ 0 := by rw [hopened.count]; decide
    have hrequest : (ptr.servers s).write_buffer ++ [13, 10] = textRequest withCas asked := by
      rw [hopened.written]; rfl
    rcases flush_cases net s (ptr.servers s) [13, 10] with
      ⟨hw, hrefused⟩ | ⟨hnil, -⟩ | ⟨-, haccepts, hw⟩
    · refine ⟨memcached_quit_server (ptr.servers s), SOME_ERRORS, ?_,
        .lost (quiet_quit _) hasked fun ht => ht.not_refused hrefused⟩
      simp only [endTextRequest, hcount, if_false, hw]
    · simp at hnil
    · refine ⟨_, rc, by simp only [endTextRequest, hcount, if_false, hw]; rfl, ?_, fun _ => rfl,
        Or.inl rfl, ?_⟩
      · rw [if_neg hasked]
        refine Or.inl (owes_of_answered (stores s) (keysAsked withCas .text asked)
          hopened.connected hopened.count rfl ?_)
        have := hserves s asked hline
        simp only [replyBytes] at this
        simpa [hrequest, hopened.input] using this
      · intro _ _ hun
        rw [hun, decide_eq_true_eq] at haccepts
        exact absurd (by simp) haccepts

theorem noopRequest_ne_nil : noopRequest ≠ [] := by
  simp [noopRequest, requestHeader]

theorem binaryRequest_eq_nil {keys : List Bytes} : binaryRequest keys = [] ↔ keys = [] := by
  cases keys with
  | nil => simp [binaryRequest]
  | cons k ks => simp [binaryRequest, requestHeader]

/-- After the first of the two writes the host has answered the keys. -/
theorem flush_binary_keys (net : Network n) (flush : Bool) (s : Fin n) (asked : List Bytes)
    (host : memcached_server_st) (hasked : asked ≠ []) (hone : flush = true → asked.length = 1)
    (h : BinaryBegun net flush s asked host) :
    (memcached_io_write net s host [] true = (false, memcached_quit_server host) ∧
        ¬ TakesAll net s) ∨
      ∃ host', memcached_io_write net s host [] true = (true, host') ∧ host'.fd = true ∧
        host'.cursor_active = 1 ∧ host'.write_buffer = [] ∧
        host'.input.bytes = bytesOf (net.answer s (binaryRequest asked)).1 := by
  rcases flush_cases net s host [] with ⟨hw, hrefused⟩ | ⟨hnil, hw⟩ | ⟨hne, -, hw⟩
  · exact Or.inl ⟨hw, fun ht => ht.not_refused hrefused⟩
  · cases flush with
    | false =>
      rw [List.append_nil, Opened.written h, binaryRequest_eq_nil] at hnil
      exact absurd hnil hasked
    | true =>
      obtain ⟨hfd, hcount, hwritten, hinput⟩ := h
      exact Or.inr ⟨host, hw, hfd, hcount, hwritten, hinput (hone rfl)⟩
  · cases flush with
    | false =>
      have hopened : Opened (binaryRequest asked) host := h
      refine Or.inr ⟨_, hw, hopened.connected, hopened.count, rfl, ?_⟩
      simp [hopened.input, hopened.written]
    | true =>
      obtain ⟨hfd, hcount, hwritten, hinput⟩ := h
      rw [hwritten] at hne
      exact absurd rfl hne

theorem endBinaryRequest_ends {net : Network n} {stores : Fin n → Store} {withCas : Bool}
    {answers : Fin n → List Bytes → Queue Reply}
    (hserves : Serves net stores withCas .binary answers) (flush : Bool) (ptr : memcached_st n)
    (rc : memcached_return_t) (s : Fin n) (asked : List Bytes) (hline : ∀ k ∈ asked, OneLine k)
    (hone : flush = true → asked.length ≤ 1)
    (h : Asked (BinaryBegun net flush) s asked (ptr.servers s)) :
    ∃ host' rc', endBinaryRequest net (ptr, rc) s = (ptr.setServer s host', rc') ∧
      EndsRequest net s withCas .binary (answers s asked) asked rc host' rc' := by
  by_cases hasked : asked = []
  · subst hasked
    rw [Asked, if_pos rfl] at h
    refine ⟨ptr.servers s, rc, ?_, .unasked h⟩
    simp [endBinaryRequest, h.count, memcached_st.setServer]
  · rw [Asked, if_neg hasked] at h
    have hcount : (ptr.servers s).cursor_active ≠ 0 := by
      rw [BinaryBegun.count h]
      decide
    have hlen : flush = true → asked.length = 1 := fun hf =>
      Nat.le_antisymm (hone hf) (List.length_pos_iff.mpr hasked)
    rcases flush_binary_keys net flush s asked _ hasked hlen h with
      ⟨hw, hnot⟩ | ⟨host₁, hw, hfd, hc, hwritten, hinput⟩
    · refine ⟨(memcached_quit_server (ptr.servers s)).response_reset, SOME_ERRORS, ?_,
        .lost (quiet_quit _) hasked hnot⟩
      simp only [endBinaryRequest, hcount, if_false, hw]
    · rcases flush_cases net s host₁ noopRequest with
        ⟨hw', hrefused⟩ | ⟨hnil, -⟩ | ⟨-, -, hw'⟩
      · refine ⟨(memcached_quit_server host₁).response_reset, SOME_ERRORS, ?_,
          .lost (quiet_quit _) hasked fun ht => ht.not_refused hrefused⟩
        rw [noopRequest] at hw'
        simp only [endBinaryRequest, hcount, if_false, hw, hw']
      · rw [List.append_eq_nil_iff] at hnil
        exact absurd hnil.2 noopRequest_ne_nil
      · rw [hwritten, List.nil_append] at hw'
        refine ⟨{ host₁ with
            write_buffer := []
            input := host₁.input.feed (net.answer s noopRequest).1
            fault := (net.answer s noopRequest).2
            sent := host₁.sent ++ [noopRequest] }, rc, ?_, ?_, fun _ => rfl, Or.inl rfl,
            fun _ hp => by cases hp⟩
        · rw [noopRequest] at hw' ⊢
          simp only [endBinaryRequest, hcount, if_false, hw, hw']
        · rw [if_neg hasked]
          refine Or.inl (owes_of_answered (stores s) (keysAsked withCas .binary asked) hfd hc rfl ?_)
          have := hserves s asked hline
          simp only [replyBytes] at this
          simpa [hinput] using this

/-! ## The whole request -/

/-- The keys that each host is asked for: its own, when it can be reached, and
all but the first of them when the socket of the failed connect stays open. -/
def sentKeys (net : Network n) (ptr : memcached_st n) (route : Bytes → Fin n) (keys : List Bytes)
    (s : Fin n) : List Bytes :=
  if Alive net (drainAll ptr) s then keys.filter (route · = s)
  else if net.leaves_open s then (keys.filter (route · = s)).tail else []

/-- What a multi-key get leaves. -/
structure Requested (net : Network n) (answers : Fin n → List Bytes → Queue Reply)
    (route : Bytes → Fin n) (keys : List Bytes) (ptr ptr' : memcached_st n)
    (rc : memcached_return_t) (asked : Fin n → List Bytes) : Prop where
  synced : Synced ptr' (owedFor answers asked)
  config : SameConfig ptr ptr'
  result : ptr'.result = (drainAll ptr).result
  mem : ∀ s k, k ∈ asked s → k ∈ keys ∧ route k = s
  exact : (∀ s, TakesKeys net s ptr.protocol) →
    (∀ s, sentKeys net ptr route keys s ≠ [] → TakesAll net s) →
    asked = sentKeys net ptr route keys ∧
      rc = askedCode net route (opensOf net (drainAll ptr)) keys
  refused : (∀ s, TakesKeys net s ptr.protocol) → ptr.protocol = .text →
    (∃ s, sentKeys net ptr route keys s ≠ [] ∧ Unconnected net s) → rc = SOME_ERRORS

section requested

variable {net : Network n} (answers : Fin n → List Bytes → Queue Reply)
variable {R : Fin n → List Bytes → memcached_server_st → Prop} {f : Sending n → Fin n → Sending n}
variable {ptr₀ ptr : memcached_st n} {asked : Fin n → List Bytes}

/-- The state of the loop that ends the request, after some of the hosts: a
host whose request was refused is quiet again. -/
structure EndingRequest (net : Network n) (ptr₀ : memcached_st n) (asked : Fin n → List Bytes)
    (rc : memcached_return_t) (st : Sending n) : Prop where
  config : SameConfig ptr₀ st.1
  result : st.1.result = ptr₀.result
  taken : (∀ s, asked s ≠ [] → TakesAll net s) → st.2 = rc
  refused : ∀ s, asked s ≠ [] → ptr₀.protocol = .text → Unconnected net s →
    (st.1.servers s).cursor_active = 0 → st.2 = SOME_ERRORS

/-- The loop that ends the request on every host. -/
theorem endRequests (hf : ∀ ptr rc s, Asked R s (asked s) (ptr.servers s) →
      ∃ host' rc', f (ptr, rc) s = (ptr.setServer s host', rc') ∧
        EndsRequest net s ptr₀.support_cas ptr₀.protocol (answers s (asked s)) (asked s) rc host'
          rc')
    (hcount : ∀ s keys host, R s keys host → host.cursor_active ≠ 0)
    (rc : memcached_return_t) (h : Sent R ptr₀ ptr asked) :
    ∃ asked', Synced ((List.finRange n).foldl f (ptr, rc)).1 (owedFor answers asked') ∧
      SameConfig ptr₀ ((List.finRange n).foldl f (ptr, rc)).1 ∧
      ((List.finRange n).foldl f (ptr, rc)).1.result = ptr₀.result ∧
      (∀ s k, k ∈ asked' s → k ∈ asked s) ∧
      ((∀ s, asked s ≠ [] → TakesAll net s) →
        asked' = asked ∧ ((List.finRange n).foldl f (ptr, rc)).2 = rc) ∧
      (ptr₀.protocol = .text → (∃ s, asked s ≠ [] ∧ Unconnected net s) →
        ((List.finRange n).foldl f (ptr, rc)).2 = SOME_ERRORS) := by
  have hturn : ∀ (st : Sending n) (s : Fin n), EndingRequest net ptr₀ asked rc st →
      Asked R s (asked s) (st.1.servers s) →
      EndingRequest net ptr₀ asked rc (f st s) ∧
      (∃ rc rc', EndsRequest net s ptr₀.support_cas ptr₀.protocol (answers s (asked s)) (asked s)
        rc ((f st s).1.servers s) rc') ∧
      ∀ t, t ≠ s → (f st s).1.servers t = st.1.servers t := by
    rintro ⟨ptr', rc'⟩ s hst hasked
    obtain ⟨host', rc'', hstep, hends⟩ := hf ptr' rc' s hasked
    rw [hstep]
    refine ⟨⟨hst.config.trans ⟨rfl, rfl, rfl, rfl⟩, hst.result, ?_, ?_⟩,
      ⟨rc', rc'', by simpa using hends⟩, fun t ht => memcached_st.setServer_of_ne _ _ ht⟩
    · intro ht
      exact (hends.taken (ht s)).trans (hst.taken ht)
    · intro t hne htext hun hzero
      by_cases hts : t = s
      · subst hts
        exact (hends.refused hne htext hun).2
      · rw [memcached_st.setServer_of_ne _ _ hts] at hzero
        have hrc := hst.refused t hne htext hun hzero
        rcases hends.code with hsame | herr
        · exact hsame.trans hrc
        · exact herr
  obtain ⟨hend, hhosts⟩ := foldl_hosts (fun st => st.1.servers) f (EndingRequest net ptr₀ asked rc)
    (fun s host => Asked R s (asked s) host)
    (fun s host => ∃ rc rc', EndsRequest net s ptr₀.support_cas ptr₀.protocol
      (answers s (asked s)) (asked s) rc host rc')
    hturn (ptr, rc) ⟨h.config, h.result, fun _ => rfl, by
      intro s hne _ _ hzero
      have hs := h.hosts s
      rw [Asked, if_neg hne] at hs
      exact absurd hzero (hcount s _ _ hs)⟩ h.hosts
  have hkept : ∀ s, ∃ l, (l = asked s ∨ (l = [] ∧ asked s ≠ [] ∧ ¬ TakesAll net s)) ∧
      InStep ptr₀.support_cas ptr₀.protocol
        (((List.finRange n).foldl f (ptr, rc)).1.servers s)
        (if l = [] then none else some (answers s l)) := by
    intro s
    obtain ⟨_, _, hs⟩ := hhosts s
    rcases hs.host with hin | ⟨hquiet, hne, hnot⟩
    · exact ⟨asked s, Or.inl rfl, hin⟩
    · exact ⟨[], Or.inr ⟨rfl, hne, hnot⟩, by rw [if_pos rfl]; exact hquiet⟩
  choose asked' hcases hin using hkept
  refine ⟨asked', ?_, hend.config, hend.result, ?_, ?_, ?_⟩
  · intro s
    rw [hend.config.support_cas, hend.config.protocol]
    exact hin s
  · intro s k hk
    rcases hcases s with he | ⟨he, -⟩
    · rwa [he] at hk
    · rw [he] at hk; simp at hk
  · intro ht
    refine ⟨funext fun s => ?_, hend.taken ht⟩
    rcases hcases s with he | ⟨-, hne, hnot⟩
    · exact he
    · exact absurd (ht s hne) hnot
  · rintro htext ⟨s, hne, hun⟩
    obtain ⟨_, _, hs⟩ := hhosts s
    exact hend.refused s hne htext hun (hs.refused hne htext hun).1.count

end requested

/-- The handle that the loop over the keys starts from. -/
theorem sent_drained {R : Fin n → List Bytes → memcached_server_st → Prop}
    {ptr : memcached_st n} (h : Synced ptr fun _ => none) : Sent R ptr ptr fun _ => [] :=
  ⟨fun s => by rw [Asked, if_pos rfl]; exact h s, .refl ptr, rfl⟩

/-- The loop over the keys of a request, in closed form. -/
theorem foldl_askKey_start (net : Network n) (ptr : memcached_st n) (route : Bytes → Fin n)
    (keys : List Bytes) :
    (keys.foldl (askKey net route) ⟨fun _ => [], opensOf net (drainAll ptr), NOTFOUND⟩).asked =
        sentKeys net ptr route keys ∧
      (keys.foldl (askKey net route) ⟨fun _ => [], opensOf net (drainAll ptr), NOTFOUND⟩).rc =
        askedCode net route (opensOf net (drainAll ptr)) keys := by
  constructor
  · funext s
    rw [foldl_askKey]
    simp [sentKeys, opensOf]
  · exact foldl_askKey_code net route keys _ [] ⟨by simp, by simp⟩

/-- A request whose last connect succeeded was sent to some host. -/
theorem exists_sentKeys {net : Network n} {ptr : memcached_st n} {route : Bytes → Fin n}
    {keys : List Bytes} (h : askedCode net route (opensOf net (drainAll ptr)) keys = SUCCESS) :
    ∃ s, sentKeys net ptr route keys s ≠ [] := by
  obtain ⟨hasked, hcode⟩ := foldl_askKey_start net ptr route keys
  rw [← hasked]
  apply foldl_askKey_success
  · exact fun s hc => decide_eq_true (Or.inr hc)
  · intro hrc
    cases hrc
  · rw [hcode, h]

/-- The spec of `memcached_mget_by_key` after its checks. -/
theorem sendKeys_requested {net : Network n} {stores : Fin n → Store}
    {answers : Fin n → List Bytes → Queue Reply} {ptr : memcached_st n}
    {q : State (Fin n) Reply} (h : Synced ptr q)
    (hserves : Serves net stores ptr.support_cas ptr.protocol answers) (route : Bytes → Fin n)
    (keys : List Bytes) (hline : ∀ k ∈ keys, OneLine k)
    (hlength : ptr.protocol = .binary →
      ∀ k ∈ keys, memcached_validate_key_length k.length true = SUCCESS) :
    ∃ asked, Requested net answers route keys ptr (sendKeys net ptr route keys).1
      (sendKeys net ptr route keys).2 asked := by
  obtain ⟨hdrained, hconfig⟩ := drainAll_synced h
  rw [← hconfig.support_cas, ← hconfig.protocol] at hserves
  -- what is left to show for either protocol, from its two loops
  have hdone : ∀ (asked₁ asked : Fin n → List Bytes) (opens : Fin n → Bool) (out : Sending n)
      (rc : memcached_return_t),
      (∀ s k, k ∈ asked₁ s → k ∈ ([] : List Bytes) ∨ (k ∈ keys ∧ route k = s)) →
      ((∀ s, TakesKeys net s (drainAll ptr).protocol) → ⟨asked₁, opens, rc⟩ =
        keys.foldl (askKey net route) ⟨fun _ => [], opensOf net (drainAll ptr), NOTFOUND⟩) →
      (Synced out.1 (owedFor answers asked) ∧ SameConfig (drainAll ptr) out.1 ∧
        out.1.result = (drainAll ptr).result ∧ (∀ s k, k ∈ asked s → k ∈ asked₁ s) ∧
        ((∀ s, asked₁ s ≠ [] → TakesAll net s) → asked = asked₁ ∧ out.2 = rc) ∧
        ((drainAll ptr).protocol = .text → (∃ s, asked₁ s ≠ [] ∧ Unconnected net s) →
          out.2 = SOME_ERRORS)) →
      Requested net answers route keys ptr out.1 out.2 asked := by
    intro asked₁ asked opens out rc hmem₁ hexact ⟨hsynced, hc, hresult, hmem, hlast, hrefused⟩
    rw [hconfig.protocol] at hexact hrefused
    have hsent : (∀ s, TakesKeys net s ptr.protocol) → asked₁ = sentKeys net ptr route keys ∧
        rc = askedCode net route (opensOf net (drainAll ptr)) keys := by
      intro ht
      obtain ⟨hasked, hcode⟩ := foldl_askKey_start net ptr route keys
      rw [← hexact ht] at hasked hcode
      exact ⟨hasked, hcode⟩
    refine ⟨hsynced, hconfig.trans hc, hresult, ?_, ?_, ?_⟩
    · intro s k hk
      rcases hmem₁ s k (hmem s k hk) with hnil | hk
      · simp at hnil
      · exact hk
    · intro ht htakes
      obtain ⟨hasked, hcode⟩ := hsent ht
      rw [← hasked] at htakes ⊢
      rw [(hlast htakes).1, (hlast htakes).2]
      exact ⟨rfl, hcode⟩
    · intro ht htext hun
      rw [← (hsent ht).1] at hun
      exact hrefused htext hun
  rw [sendKeys]
  cases hp : (drainAll ptr).protocol with
  | text =>
    simp only
    obtain ⟨asked₁, hsent, hmem₁, -, hexact⟩ := sendKeys_sent keys
      (fun k _ => sendTextKey_sends net (drainAll ptr).support_cas route k) NOTFOUND
      (sent_drained hdrained)
    rw [hp] at hserves
    obtain ⟨asked, hlast⟩ := endRequests answers
      (f := endTextRequest net) (by
        intro ptr' rc s hasked
        rw [hp]
        refine endTextRequest_ends hserves ptr' rc s (asked₁ s) ?_ hasked
        intro k hk
        rcases hmem₁ s k hk with hnil | ⟨hk, -⟩
        · simp at hnil
        · exact hline k hk)
      (fun s l host hbegun => by rw [Opened.count hbegun]; decide) _ hsent
    exact ⟨asked, hdone asked₁ asked _ _ _ hmem₁ (by rw [hp]; exact hexact) hlast⟩
  | binary =>
    have hkeys : ∀ k ∈ keys, memcached_validate_key_length k.length true = SUCCESS :=
      hlength (by rw [← hconfig.protocol, hp])
    simp only [sendBinaryKeys_eq net route _ keys hkeys]
    obtain ⟨asked₁, hsent, hmem₁, hlen, hexact⟩ := sendKeys_sent keys
      (fun k _ => sendBinaryKey_sends net route (decide (keys.length = 1)) k) NOTFOUND
      (sent_drained hdrained)
    rw [hp] at hserves
    obtain ⟨asked, hlast⟩ := endRequests answers
      (f := endBinaryRequest net) (by
        intro ptr' rc s hasked
        rw [hp]
        refine endBinaryRequest_ends hserves _ ptr' rc s (asked₁ s) ?_ ?_ hasked
        · intro k hk
          rcases hmem₁ s k hk with hnil | ⟨hk, -⟩
          · simp at hnil
          · exact hline k hk
        · intro hone
          have := hlen s
          simp only [decide_eq_true_eq] at hone
          simpa [hone] using this)
      (fun s l host hbegun => by rw [BinaryBegun.count hbegun]; decide) _ hsent
    exact ⟨asked, hdone asked₁ asked _ _ _ hmem₁ (by rw [hp]; exact hexact) hlast⟩

theorem Requested.asked_eq {net : Network n} {answers : Fin n → List Bytes → Queue Reply}
    {route : Bytes → Fin n} {keys : List Bytes} {ptr ptr' : memcached_st n}
    {rc : memcached_return_t} {asked : Fin n → List Bytes}
    (h : Requested net answers route keys ptr ptr' rc asked) (ht : Takes net) :
    asked = sentKeys net ptr route keys :=
  (h.exact (fun s => (ht s).keys _) fun s _ => ht s).1

/-- The code of a request is that of its last connect. -/
theorem Requested.code_eq {net : Network n} {answers : Fin n → List Bytes → Queue Reply}
    {route : Bytes → Fin n} {keys : List Bytes} {ptr ptr' : memcached_st n}
    {rc : memcached_return_t} {asked : Fin n → List Bytes}
    (h : Requested net answers route keys ptr ptr' rc asked) (ht : Takes net) :
    rc = askedCode net route (opensOf net (drainAll ptr)) keys :=
  (h.exact (fun s => (ht s).keys _) fun s _ => ht s).2

/-- The first key of a request makes a connect. -/
theorem connectCodes_ne_nil (net : Network n) (route : Bytes → Fin n) (opens : Fin n → Bool)
    {keys : List Bytes} (h : keys ≠ []) : connectCodes net route opens [] keys ≠ [] := by
  cases keys with
  | nil => exact absurd rfl h
  | cons k ks => by_cases ho : opens (route k) = true <;> simp [connectCodes, ho]

/-- Every connect succeeds, or fails with a code of its own. -/
theorem mem_connectCodes {net : Network n} {route : Bytes → Fin n} {rc : memcached_return_t}
    {keys : List Bytes} {opens : Fin n → Bool} {seen : List (Fin n)}
    (h : rc ∈ connectCodes net route opens seen keys) :
    rc = SUCCESS ∨ isConnectFailure rc = true := by
  induction keys generalizing opens seen with
  | nil => cases h
  | cons k ks ih =>
    rw [connectCodes] at h
    split_ifs at h
    · exact ih h
    · rcases List.mem_cons.mp h with rfl | h
      · exact Or.inl rfl
      · exact ih h
    · rcases List.mem_cons.mp h with rfl | h
      · exact net.connect_code _
      · exact ih h

/-- A request for some keys ends with a success, or with the code of a failed
connect. -/
theorem askedCode_cases (net : Network n) (route : Bytes → Fin n) (opens : Fin n → Bool)
    {keys : List Bytes} (hkeys : keys ≠ []) :
    askedCode net route opens keys = SUCCESS ∨
      isConnectFailure (askedCode net route opens keys) = true := by
  have hne := connectCodes_ne_nil net route opens hkeys
  rw [askedCode, List.getLast?_eq_some_getLast hne]
  exact mem_connectCodes (List.getLast_mem hne)

theorem Requested.code_cases {net : Network n} {answers : Fin n → List Bytes → Queue Reply}
    {route : Bytes → Fin n} {keys : List Bytes} {ptr ptr' : memcached_st n}
    {rc : memcached_return_t} {asked : Fin n → List Bytes}
    (h : Requested net answers route keys ptr ptr' rc asked) (ht : Takes net) (hkeys : keys ≠ []) :
    rc = SUCCESS ∨ isConnectFailure rc = true := by
  rw [h.code_eq ht]
  exact askedCode_cases net route _ hkeys

/-- When every host can be reached, all connects succeed. -/
theorem askedCode_open {net : Network n} (route : Bytes → Fin n) {opens : Fin n → Bool}
    (hopens : ∀ s, opens s = true) {keys : List Bytes} (hkeys : keys ≠ []) :
    askedCode net route opens keys = SUCCESS := by
  have hall : ∀ (keys : List Bytes) (seen : List (Fin n)) (rc : memcached_return_t),
      rc ∈ connectCodes net route opens seen keys → rc = SUCCESS := by
    intro keys
    induction keys with
    | nil =>
      intro seen rc h
      cases h
    | cons k ks ih =>
      intro seen rc h
      rw [connectCodes, if_pos (hopens _)] at h
      split_ifs at h
      · exact ih _ _ h
      · rcases List.mem_cons.mp h with rfl | h
        · rfl
        · exact ih _ _ h
  have hne := connectCodes_ne_nil net route opens hkeys
  rw [askedCode, List.getLast?_eq_some_getLast hne]
  exact hall _ _ _ (List.getLast_mem hne)

/-! ## memcached_mget_by_key -/

theorem fetchHost_error {ptr : memcached_st n} {master_key : Option Bytes} {keys : List Bytes}
    {rc : memcached_return_t} (h : fetchHost ptr master_key keys = .error rc) :
    rc = NOTFOUND ∨ rc = NO_SERVERS ∨ rc = BAD_KEY_PROVIDED := by
  unfold fetchHost at h
  split at h
  · cases h; simp
  · split at h
    · split at h
      · cases h; simp
      · split at h
        · split at h
          · cases h; simp
          · cases h
        · cases h
    · cases h; simp

theorem fetchHost_ok {ptr : memcached_st n} {master_key : Option Bytes} {keys : List Bytes}
    {route : Bytes → Fin n} (h : fetchHost ptr master_key keys = .ok route) : keys ≠ [] := by
  rintro rfl
  simp [fetchHost] at h

/-- A get of one key goes to the host of its master key, or of the key when the
master key is empty. -/
theorem fetchHost_route {ptr : memcached_st n} {master_key : Option Bytes} {key : Bytes}
    {route : Bytes → Fin n} (h : fetchHost ptr master_key [key] = .ok route) :
    ∃ hn, route key = if master_key.getD [] = [] then ptr.hostOf hn key
      else ptr.hostOf hn (master_key.getD []) := by
  unfold fetchHost at h
  split at h
  · cases h
  · split at h
    · rename_i hn
      refine ⟨hn, ?_⟩
      split at h
      · cases h
      · split at h
        · split at h
          · cases h
          · cases h
            simp
        · cases h
          rcases master_key with _ | _ | ⟨c, cs⟩
          · simp
          · simp
          · rename_i hnot
            exact absurd rfl (hnot c cs)
    · cases h

/-- A get of one key that passes the checks goes to the host of its route
key. -/
theorem fetchHost_one {ptr : memcached_st n} (hn : 0 < n) (master_key : Option Bytes) {key : Bytes}
    (hkey : ¬ (ptr.verify_key = true ∧ memcached_key_test [key] = BAD_KEY_PROVIDED))
    (hmaster : ¬ (ptr.verify_key = true ∧
      memcached_key_test [master_key.getD []] = BAD_KEY_PROVIDED) ∨ master_key.getD [] = []) :
    ∃ route, fetchHost ptr master_key [key] = .ok route ∧
      route key = ptr.hostOf hn (if master_key.getD [] = [] then key else master_key.getD []) := by
  unfold fetchHost
  rw [if_neg (by simp), dif_pos hn, if_neg hkey]
  rcases master_key with _ | _ | ⟨c, cs⟩
  · exact ⟨_, rfl, rfl⟩
  · exact ⟨_, rfl, rfl⟩
  · rw [Option.getD_some] at hmaster ⊢
    have hpass := hmaster.resolve_right (List.cons_ne_nil c cs)
    dsimp only
    rw [if_neg hpass, if_neg (List.cons_ne_nil c cs)]
    exact ⟨_, rfl, rfl⟩

/-- A request of keys that pass the checks goes to the hosts of the keys. -/
theorem fetchHost_none {ptr : memcached_st n} (hn : 0 < n) {keys : List Bytes} (hne : keys ≠ [])
    (htest : ¬ (ptr.verify_key = true ∧ memcached_key_test keys = BAD_KEY_PROVIDED)) :
    fetchHost ptr none keys = .ok (ptr.hostOf hn) := by
  unfold fetchHost
  rw [if_neg (mt List.length_eq_zero_iff.mp hne), dif_pos hn, if_neg htest]

/-- The spec of `memcached_mget_by_key`: it fails before it sends anything, or
its hosts owe what they were asked for. -/
theorem mget_by_key_requested {net : Network n} {stores : Fin n → Store}
    {answers : Fin n → List Bytes → Queue Reply} {ptr : memcached_st n}
    {q : State (Fin n) Reply} (h : Synced ptr q)
    (hserves : Serves net stores ptr.support_cas ptr.protocol answers) (master_key : Option Bytes)
    (keys : List Bytes) (hline : ∀ k ∈ keys, OneLine k)
    (hlength : ptr.protocol = .binary →
      ∀ k ∈ keys, memcached_validate_key_length k.length true = SUCCESS) :
    (∃ rc, fetchHost ptr master_key keys = .error rc ∧
        memcached_mget_by_key net ptr master_key keys = (ptr, rc)) ∨
      ∃ route, fetchHost ptr master_key keys = .ok route ∧ ∃ asked,
        Requested net answers route keys ptr (memcached_mget_by_key net ptr master_key keys).1
          (memcached_mget_by_key net ptr master_key keys).2 asked := by
  rcases hf : fetchHost ptr master_key keys with rc | route
  · exact Or.inl ⟨rc, rfl, by rw [memcached_mget_by_key, hf]⟩
  · refine Or.inr ⟨route, rfl, ?_⟩
    rw [memcached_mget_by_key, hf]
    exact sendKeys_requested h hserves route keys hline hlength

end Libmemcached
