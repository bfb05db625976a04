-- One command and its response on a handle that is in step: in the text
-- protocol the responses that are still pending are read first, and the code
-- is that of the command's own response.
import Libmemcached.Storage
import Libmemcached.Requests

open Chunks Decimal Queues

namespace Libmemcached

open memcached_return_t memcached_server_st

variable {n : Nat}

/-! ## Response lines -/

/-- The code of a response line other than a VALUE line. -/
def replyCode (buffer : Bytes) : memcached_return_t :=
  if byteAt buffer 0 = 86 then
    if byteAt buffer 1 = 69 then SUCCESS else UNKNOWN_READ_FAILURE
  else if byteAt buffer 0 = 79 then SUCCESS
  else if byteAt buffer 0 = 83 then
    if byteAt buffer 2 = 65 then STAT
    else if byteAt buffer 1 = 69 then SERVER_ERROR
    else if byteAt buffer 1 = 84 then STORED
    else UNKNOWN_READ_FAILURE
  else if byteAt buffer 0 = 68 then DELETED
  else if byteAt buffer 0 = 78 then
    if byteAt buffer 4 = 70 then NOTFOUND
    else if byteAt buffer 4 = 83 then NOTSTORED
    else UNKNOWN_READ_FAILURE
  else if byteAt buffer 0 = 69 then
    if byteAt buffer 1 = 78 then END
    else if byteAt buffer 1 = 82 then PROTOCOL_ERROR
    else if byteAt buffer 1 = 88 then DATA_EXISTS
    else UNKNOWN_READ_FAILURE
  else if byteAt buffer 0 = 73 then ITEM
  else if byteAt buffer 0 = 67 then CLIENT_ERROR
  else if (strtoull buffer).2 ≠ buffer then SUCCESS
  else UNKNOWN_READ_FAILURE

/-- A line that a host may send as a response, less its line end. -/
structure ResponseLine where
  text : Bytes
  one_line : ∀ c ∈ text, c ≠ 10
  short : text.length + 2 < MEMCACHED_DEFAULT_COMMAND_SIZE
  no_value : ¬ (byteAt (lineBuffer (text ++ [13, 10])) 0 = 86 ∧
    byteAt (lineBuffer (text ++ [13, 10])) 1 = 65)

namespace ResponseLine

def bytes (line : ResponseLine) : Bytes := line.text ++ [13, 10]

def code (line : ResponseLine) : memcached_return_t := replyCode (lineBuffer line.bytes)

/-- The line ends the response: no further line belongs to it. -/
def Final (line : ResponseLine) : Prop := line.code ≠ STAT ∧ line.code ≠ ITEM

end ResponseLine

/-- Only STAT and ITEM count the response again. -/
def stillPending (rc : memcached_return_t) (ptr : memcached_server_st) : memcached_server_st :=
  if rc = STAT ∨ rc = ITEM then ptr.response_increment else ptr

theorem stillPending_of_ne {rc : memcached_return_t} (ptr : memcached_server_st)
    (h : rc ≠ STAT ∧ rc ≠ ITEM) : stillPending rc ptr = ptr := by
  rw [stillPending, if_neg (by rintro (h' | h') <;> [exact h.1 h'; exact h.2 h'])]

theorem textual_switch_line (ptr : memcached_server_st) (buffer : Bytes)
    (result : memcached_result_st) (h : ¬ (byteAt buffer 0 = 86 ∧ byteAt buffer 1 = 65)) :
    textual_switch ptr buffer result =
      (replyCode buffer, stillPending (replyCode buffer) ptr, result) := by
  -- both sides branch on the same letters, and each leaf is a code
  let leaf (rc : memcached_return_t) : Reading := (rc, stillPending rc ptr, result)
  have hstat : leaf STAT = (STAT, ptr.response_increment, result) := rfl
  have hitem : leaf ITEM = (ITEM, ptr.response_increment, result) := rfl
  have hplain : ∀ rc, rc ≠ STAT → rc ≠ ITEM → leaf rc = (rc, ptr, result) := fun rc h1 h2 => by
    simp only [leaf, stillPending_of_ne ptr ⟨h1, h2⟩]
  change _ = leaf (replyCode buffer)
  unfold textual_switch replyCode
  simp only [apply_ite leaf, hstat, hitem, hplain _ (by decide : SUCCESS ≠ STAT) (by decide),
    hplain _ (by decide : UNKNOWN_READ_FAILURE ≠ STAT) (by decide),
    hplain _ (by decide : SERVER_ERROR ≠ STAT) (by decide),
    hplain _ (by decide : STORED ≠ STAT) (by decide),
    hplain _ (by decide : DELETED ≠ STAT) (by decide),
    hplain _ (by decide : NOTFOUND ≠ STAT) (by decide),
    hplain _ (by decide : NOTSTORED ≠ STAT) (by decide),
    hplain _ (by decide : END ≠ STAT) (by decide),
    hplain _ (by decide : PROTOCOL_ERROR ≠ STAT) (by decide),
    hplain _ (by decide : DATA_EXISTS ≠ STAT) (by decide),
    hplain _ (by decide : CLIENT_ERROR ≠ STAT) (by decide)]
  by_cases h0 : byteAt buffer 0 = 86
  · have h1 : byteAt buffer 1 ≠ 65 := fun h1 => h ⟨h0, h1⟩
    rw [if_pos h0, if_pos h0, if_neg h1]
  · rw [if_neg h0, if_neg h0]

theorem textual_read_line (ptr : memcached_server_st) (result : memcached_result_st)
    (line : ResponseLine) (rest : Bytes) (h : ptr.input.bytes = line.bytes ++ rest) :
    ∃ input, textual_read_one_response ptr result =
        (line.code, stillPending line.code { ptr with input }, result) ∧ input.bytes = rest := by
  have hsplit : ptr.input.bytes = (line.text ++ [13]) ++ 10 :: rest := by
    rw [h, ResponseLine.bytes]; simp
  obtain ⟨j, hline, hj⟩ := readline_append ptr MEMCACHED_DEFAULT_COMMAND_SIZE _ _ hsplit
    (by
      intro c hc
      rcases List.mem_append.mp hc with hc | hc
      · exact line.one_line c hc
      · rw [List.mem_singleton.mp hc]; decide)
    (by have := line.short; simp only [List.length_append, List.length_singleton]; omega)
  refine ⟨j, ?_, hj⟩
  have hbuf : line.text ++ [13] ++ [10] = line.bytes := by simp [ResponseLine.bytes]
  simp only [textual_read_one_response, hline, hbuf]
  exact textual_switch_line _ _ _ line.no_value

theorem textual_read_line_short (ptr : memcached_server_st) (result : memcached_result_st)
    (line : ResponseLine) (more : Bytes) (hmore : more ≠ []) (h : ptr.input.bytes ++ more = line.bytes) :
    textual_read_one_response ptr result =
      (ptr.fault.code, memcached_quit_server ptr, result) := by
  have hsplit : ptr.input.bytes ++ more = (line.text ++ [13]) ++ 10 :: [] := by
    rw [h, ResponseLine.bytes]; simp
  have hno : ∀ c ∈ line.text ++ [13], c ≠ 10 := by
    intro c hc
    rcases List.mem_append.mp hc with hc | hc
    · exact line.one_line c hc
    · rw [List.mem_singleton.mp hc]; decide
  rcases prefix_cases hmore hsplit with ⟨t, ht⟩ | ⟨b, -, hlt⟩
  · refine textual_read_line_cut ptr result _ hno ?_ t ht
    have := line.short
    simp only [List.length_append, List.length_singleton]
    omega
  · simp at hlt

/-! ## The pending responses of a text host are read first -/

section purge

variable (buffer_length : Nat)

/-- All of a pending answer is read, up to its end marker. -/
theorem purge_queue (withCas : Bool) (rs : List Reply) (rest : Bytes) (fuel : Nat)
    (host : memcached_server_st) (result : memcached_result_st) (hcount : host.cursor_active = 2)
    (hvalid : ∀ r ∈ rs, ValidKey r.key) (hfuel : rs.length < fuel)
    (h : host.input.bytes = rs.flatMap (render withCas .text) ++ (renderEnd .text ++ rest)) :
    ∃ input result', input.bytes = rest ∧ purgePending fuel .text host buffer_length result =
      memcached_read_one_response .text { host with cursor_active := 1, input } buffer_length
        result' := by
  induction rs generalizing fuel host result with
  | nil =>
    obtain ⟨fuel, rfl⟩ : ∃ k, fuel = k + 1 := ⟨fuel - 1, by omega⟩
    obtain ⟨j, hr, hj⟩ := read_end .text host buffer_length result rest (by simpa using h)
    refine ⟨j, result, hj, ?_⟩
    rw [purgePending, if_pos ⟨rfl, by omega⟩, hr]
    simp only [isExpected, if_true]
    rw [purgePending_one _ _ _ _ _ (by simp [response_decrement, hcount])]
    simp [response_decrement, hcount]
  | cons r rs ih =>
    obtain ⟨fuel, rfl⟩ : ∃ k, fuel = k + 1 := ⟨fuel - 1, by omega⟩
    rw [List.flatMap_cons, List.append_assoc] at h
    obtain ⟨j, hr, hj⟩ := read_reply withCas .text host buffer_length result r _
      (by rw [hcount]; decide) (hvalid r (by simp)) h
    obtain ⟨input, result', hi, hp⟩ := ih fuel { host with input := j }
      (storeReply withCas .text result r) hcount (fun x hx => hvalid x (by simp [hx]))
      (by simp only [List.length_cons] at hfuel; omega) hj
    refine ⟨input, result', hi, ?_⟩
    rw [purgePending, if_pos ⟨rfl, by omega⟩, hr]
    simpa only [isExpected, if_true] using hp

/-- A pending answer that breaks off ends the call with its read error. -/
theorem purge_cut (withCas : Bool) (rs : List Reply) (tail : Bytes) (fuel : Nat)
    (host : memcached_server_st) (result : memcached_result_st) (hcount : host.cursor_active = 2)
    (hvalid : ∀ r ∈ rs, ValidKey r.key) (hfuel : rs.length < fuel)
    (htail : Cut withCas .text tail)
    (h : host.input.bytes = rs.flatMap (render withCas .text) ++ tail) :
    ∃ rc result', isReadError rc = true ∧
      purgePending fuel .text host buffer_length result =
        (rc, memcached_quit_server host, result') := by
  induction rs generalizing fuel host result with
  | nil =>
    obtain ⟨fuel, rfl⟩ : ∃ k, fuel = k + 1 := ⟨fuel - 1, by omega⟩
    obtain ⟨rc, result', hrc, hr⟩ := read_cut withCas .text host buffer_length result
      (by rw [h]; simpa using htail)
    refine ⟨rc, result', hrc, ?_⟩
    rw [purgePending, if_pos ⟨rfl, by omega⟩, hr]
    have hne : isExpected rc = false := by
      revert hrc
      cases rc <;> decide
    simp only [hne, Bool.false_eq_true, if_false]
  | cons r rs ih =>
    obtain ⟨fuel, rfl⟩ : ∃ k, fuel = k + 1 := ⟨fuel - 1, by omega⟩
    rw [List.flatMap_cons, List.append_assoc] at h
    obtain ⟨j, hr, hj⟩ := read_reply withCas .text host buffer_length result r _
      (by rw [hcount]; decide) (hvalid r (by simp)) h
    obtain ⟨rc, result', hrc, hp⟩ := ih fuel { host with input := j }
      (storeReply withCas .text result r) hcount (fun x hx => hvalid x (by simp [hx]))
      (by simp only [List.length_cons] at hfuel; omega) hj
    refine ⟨rc, result', hrc, ?_⟩
    rw [purgePending, if_pos ⟨rfl, by omega⟩, hr]
    simp only [isExpected, if_true]
    exact hp

end purge

/-! ## A command -/

/-- What a command makes of a host that is in step: it is not sent, or the
host owes one response more, and its answer is behind what it sent before. -/
theorem vdo_cases (net : Network n) {s : Fin n} {withCas : Bool} {p : Protocol}
    {host : memcached_server_st} {o : Option (Queue Reply)} (h : InStep withCas p host o)
    (command : Bytes) (hne : command ≠ []) :
    (∃ rc host', memcached_vdo net s host command true = (rc, host') ∧ rc ≠ SUCCESS ∧ Quiet host' ∧
        ¬ ((host.fd = true ∨ net.connect s = SUCCESS) ∧ Takes net)) ∨
      ∃ host', memcached_vdo net s host command true = (SUCCESS, host') ∧ host'.fd = true ∧
        host'.cursor_active = (if o.isSome then 2 else 1) ∧ host'.write_buffer = [] ∧
        host'.input.bytes = host.input.bytes ++ bytesOf (net.answer s command).1 := by
  -- the connection is open, or opened, or cannot be
  have hopen : (∃ host₁, memcached_connect net s host = (SUCCESS, host₁) ∧ host₁.fd = true ∧
        host₁.cursor_active = host.cursor_active ∧ host₁.write_buffer = [] ∧
        host₁.input.bytes = host.input.bytes) ∨
      (∃ host₁, memcached_connect net s host = (net.connect s, host₁) ∧
        net.connect s ≠ SUCCESS ∧ Quiet host₁ ∧ host.fd = false) := by
    cases o with
    | none =>
      have hq : Quiet host := h
      rcases connect_cases net s host hq with
        ⟨host₁, hc, hq₁, hfd, -⟩ | ⟨host₁, hc, hq₁, -, hfd, hcode⟩
      · exact Or.inl ⟨host₁, hc, hfd, by rw [hq₁.count, hq.count], hq₁.written,
          by rw [hq₁.input, hq.input]⟩
      · exact Or.inr ⟨host₁, hc, hcode, hq₁, hfd⟩
    | some q =>
      have ho : Owes withCas p host q := h
      exact Or.inl ⟨host, by rw [memcached_connect, if_pos ho.connected], ho.connected, rfl,
        ho.written, rfl⟩
  rcases hopen with ⟨host₁, hc, hfd, hcount, hwritten, hinput⟩ | ⟨host₁, hc, hcode, hq, hfd⟩
  · rcases flush_cases net s host₁ command with ⟨hw, hrefused⟩ | ⟨hnil, -⟩ | ⟨-, -, hw⟩
    · refine Or.inl ⟨WRITE_FAILURE, memcached_quit_server host₁, ?_, by decide, quiet_quit _,
        fun hand => (hand.2 s).not_refused hrefused⟩
      rw [memcached_vdo, hc]
      simp only [hw]
    · rw [List.append_eq_nil_iff] at hnil
      exact absurd hnil.2 hne
    · rw [hwritten, List.nil_append] at hw
      refine Or.inr ⟨response_increment { host₁ with
        write_buffer := []
        input := host₁.input.feed (net.answer s command).1
        fault := (net.answer s command).2
        sent := host₁.sent ++ [command] }, ?_, hfd, ?_, rfl, ?_⟩
      · rw [memcached_vdo, hc]
        simp only [hw]
      · have := inStep_count h
        simp only [response_increment, hcount, this]
        cases o <;> simp [UINT32_MAX]
      · simp [hinput]
  · refine Or.inl ⟨net.connect s, host₁, ?_, hcode, hq, ?_⟩
    · rw [memcached_vdo, hc]
      generalize net.connect s = code at hcode
      cases code <;> first | rfl | exact absurd rfl hcode
    · rintro ⟨halive | halive, -⟩
      · rw [hfd] at halive; exact absurd halive (by decide)
      · exact hcode halive

/-- The answer to a text command: one line, or a part of it when the
connection breaks. -/
inductive Replied (bytes : Bytes) : Prop
  | line (line : ResponseLine) (final : line.Final) (h : bytes = line.bytes)
  | cut (line : ResponseLine) (more : Bytes) (hmore : more ≠ []) (h : bytes ++ more = line.bytes)

/-- What a host in step may send for a text command. On a connection that
broke nothing more comes. -/
def Responds (net : Network n) (s : Fin n) (command : Bytes) : Option (Queue Reply) → Prop
  | some ⟨_, false⟩ => bytesOf (net.answer s command).1 = []
  | _ => Replied (bytesOf (net.answer s command).1)

/-- One response line on a host with one response pending. -/
theorem read_final_line {host : memcached_server_st} (buffer_length : Nat)
    (result : memcached_result_st) {line : ResponseLine} (final : line.Final)
    (hcount : host.cursor_active = 1) (hwritten : host.write_buffer = [])
    (h : host.input.bytes = line.bytes) :
    ∃ host' result', memcached_read_one_response .text host buffer_length result =
      (line.code, host', result') ∧ Quiet host' := by
  obtain ⟨j, hr, hj⟩ := textual_read_line host.response_decrement result line []
    (by simpa using h)
  rw [stillPending_of_ne _ final] at hr
  have hquiet : Quiet { host.response_decrement with input := j } :=
    ⟨by simp [response_decrement, hcount], hj, hwritten⟩
  by_cases hout : outOfStep line.code = true
  · exact ⟨_, result, by simp [memcached_read_one_response, hr, hout]; rfl, quiet_quit _⟩
  · exact ⟨_, result, by simp [memcached_read_one_response, hr, hout], hquiet⟩

theorem read_cut_line {host : memcached_server_st} (buffer_length : Nat)
    (result : memcached_result_st) {line : ResponseLine} {more : Bytes} (hmore : more ≠ [])
    (h : host.input.bytes ++ more = line.bytes) :
    ∃ rc, isReadError rc = true ∧ memcached_read_one_response .text host buffer_length result =
      (rc, memcached_quit_server host, result) := by
  have hr := textual_read_line_short host.response_decrement result line more hmore h
  refine ⟨host.fault.code, isReadError_fault _, ?_⟩
  simp only [memcached_read_one_response, hr, response_decrement_fault]
  split <;> rfl

/-- A line, or a part of one, on a host that waits for just that response. -/
theorem read_replied {host : memcached_server_st} (buffer_length : Nat)
    (result : memcached_result_st) {bytes : Bytes} (hreplied : Replied bytes)
    (hcount : host.cursor_active = 1) (hwritten : host.write_buffer = [])
    (hinput : host.input.bytes = bytes) :
    ∃ rc host' result', memcached_read_one_response .text host buffer_length result =
        (rc, host', result') ∧ Quiet host' ∧ rc ≠ STAT ∧
      (∀ line : ResponseLine, line.Final → bytes = line.bytes → rc = line.code) ∧
      (bytes = [] → isReadError rc = true) := by
  by_cases hline : ∃ line : ResponseLine, line.Final ∧ bytes = line.bytes
  · obtain ⟨line, final, he⟩ := hline
    obtain ⟨host', result', hr, hq⟩ := read_final_line buffer_length result final hcount hwritten
      (by rw [hinput, he])
    refine ⟨_, host', result', hr, hq, final.1, ?_, ?_⟩
    · intro line' final' he'
      have hb : line.bytes = line'.bytes := he.symm.trans he'
      rw [ResponseLine.code, ResponseLine.code, hb]
    · intro hnil
      rw [hnil] at he
      simp [ResponseLine.bytes] at he
  · cases hreplied with
    | line line final he => exact absurd ⟨line, final, he⟩ hline
    | cut line more hmore he =>
      obtain ⟨rc, hrc, hr⟩ := read_cut_line buffer_length result hmore (by rw [hinput, he])
      refine ⟨rc, _, result, hr, quiet_quit _, ?_, fun l hf hl => absurd ⟨l, hf, hl⟩ hline,
        fun _ => hrc⟩
      rintro rfl
      cases hrc

/-- Once a command is written, the responses that were pending are read away:
the host then waits for the response to the command alone. -/
theorem response_purged {withCas : Bool} {host host' : memcached_server_st}
    {o : Option (Queue Reply)} (buffer_length : Nat) (result : memcached_result_st) {answer : Bytes}
    (h : InStep withCas .text host o) (hwhole : ∀ q, o = some q → q.whole = true)
    (hcount : host'.cursor_active = (if o.isSome then 2 else 1))
    (hinput : host'.input.bytes = host.input.bytes ++ answer) :
    ∃ input result', input.bytes = answer ∧ memcached_response .text host' buffer_length result =
      memcached_read_one_response .text { host' with cursor_active := 1, input } buffer_length
        result' := by
  rcases o with _ | ⟨rs, w⟩
  · have hq : Quiet host := h
    rw [hq.input, List.nil_append] at hinput
    have hone : host'.cursor_active = 1 := hcount
    refine ⟨host'.input, result, hinput, ?_⟩
    rw [memcached_response_one _ _ _ _ hone, ← hone]
  · have ho : Owes withCas .text host ⟨rs, w⟩ := h
    obtain rfl : w = true := hwhole _ rfl
    obtain ⟨tail, htail, hend⟩ := ho.input
    simp only [if_true] at hend
    have hlen : rs.length < host'.input.bytes.length + 1 := by
      have := owes_length ho
      simp only [hinput, List.length_append] at this ⊢
      omega
    rw [htail, hend, List.append_assoc] at hinput
    obtain ⟨input, result', hi, hp⟩ := purge_queue buffer_length withCas rs _ _ host' result
      hcount ho.valid hlen hinput
    exact ⟨input, result', hi, by rw [memcached_response, hp]⟩

/-- What a text host gives for a command once it is written. -/
theorem response_after_command {net : Network n} {s : Fin n} {withCas : Bool} {command : Bytes}
    {host host' : memcached_server_st} {o : Option (Queue Reply)} (buffer_length : Nat)
    (result : memcached_result_st) (h : InStep withCas .text host o)
    (hresp : Responds net s command o)
    (hcount : host'.cursor_active = (if o.isSome then 2 else 1)) (hwritten : host'.write_buffer = [])
    (hinput : host'.input.bytes = host.input.bytes ++ bytesOf (net.answer s command).1) :
    ∃ rc host'' result', memcached_response .text host' buffer_length result =
        (rc, host'', result') ∧ Quiet host'' ∧
      (∀ line : ResponseLine, line.Final → bytesOf (net.answer s command).1 = line.bytes →
        (∀ q, o = some q → q.whole = true) → rc = line.code) ∧
      (bytesOf (net.answer s command).1 = [] → isReadError rc = true) := by
  by_cases hwhole : ∀ q, o = some q → q.whole = true
  · have hreplied : Replied (bytesOf (net.answer s command).1) := by
      rcases o with _ | ⟨rs, _ | _⟩
      · exact hresp
      · exact absurd (hwhole _ rfl) (by simp)
      · exact hresp
    obtain ⟨input, result₁, hi, hp⟩ :=
      response_purged buffer_length result h hwhole hcount hinput
    obtain ⟨rc, host'', result', hr, hquiet, -, hcode, hnothing⟩ :=
      @read_replied { host' with cursor_active := 1, input } buffer_length result₁ _ hreplied rfl
        hwritten hi
    exact ⟨rc, host'', result', hp.trans hr, hquiet, fun line hf hl _ => hcode line hf hl, hnothing⟩
  · -- the pending answer breaks off, and the call ends in it
    obtain ⟨rs, rfl⟩ : ∃ rs, o = some ⟨rs, false⟩ := by
      push Not at hwhole
      obtain ⟨⟨rs, w⟩, rfl, hw⟩ := hwhole
      cases w
      · exact ⟨rs, rfl⟩
      · exact absurd rfl hw
    have ho : Owes withCas .text host ⟨rs, false⟩ := h
    obtain ⟨tail, htail, hend⟩ := ho.input
    simp only [Bool.false_eq_true, if_false] at hend
    have hlen : rs.length < host'.input.bytes.length + 1 := by
      have := owes_length ho
      simp only [hinput, List.length_append] at this ⊢
      omega
    have hnone : bytesOf (net.answer s command).1 = [] := hresp
    rw [htail, hnone, List.append_nil] at hinput
    obtain ⟨rc, result', hrc, hp⟩ := purge_cut buffer_length withCas rs tail _ host' result hcount
      ho.valid hlen hend hinput
    refine ⟨rc, _, result', by rw [memcached_response, hp], quiet_quit _, ?_, fun _ => hrc⟩
    intro line _ _ hall
    exact absurd hall hwhole

/-- A text command ends before it is written, or with what its host gives. -/
theorem exchange_cases {net : Network n} {ptr : memcached_st n} {q : State (Fin n) Reply}
    (h : Synced ptr q) (hp : ptr.protocol = .text) (s : Fin n) (command : Bytes)
    (hne : command ≠ []) (buffer_length : Nat) (hresp : Responds net s command (q s)) :
    ∃ host' result' rc, exchange net ptr s command buffer_length =
        ({ ptr.setServer s host' with result := result' }, rc) ∧ Quiet host' ∧
      (Alive net ptr s → Takes net →
        (∀ line : ResponseLine, line.Final → bytesOf (net.answer s command).1 = line.bytes →
          (∀ qs, q s = some qs → qs.whole = true) → rc = line.code) ∧
        (bytesOf (net.answer s command).1 = [] → isReadError rc = true)) := by
  have hstep : InStep ptr.support_cas .text (ptr.servers s) (q s) := hp ▸ h s
  rcases vdo_cases net hstep command hne with
    ⟨rc, host', hvdo, hrc, hquiet, hnot⟩ | ⟨host', hvdo, -, hcount, hwritten, hinput⟩
  · refine ⟨host', ptr.result, rc, ?_, hquiet, fun halive ht => absurd ⟨halive, ht⟩ hnot⟩
    rw [exchange, hvdo]
    cases rc <;> first | rfl | exact absurd rfl hrc
  · obtain ⟨rc, host'', result', hr, hquiet, hcode⟩ := response_after_command buffer_length
      ptr.result hstep hresp hcount hwritten hinput
    refine ⟨host'', result', rc, ?_, hquiet, fun _ _ => hcode⟩
    rw [exchange, hvdo]
    simp only [readResponse, memcached_st.setServer_protocol, hp, memcached_st.setServer_self,
      memcached_st.setServer_result, hr]
    simp [memcached_st.setServer]

/-- The spec of a text command: its host is quiet afterwards, and the code is
that of its own response line, whatever was pending. -/
theorem exchange_text {net : Network n} {ptr : memcached_st n} {q : State (Fin n) Reply}
    (h : Synced ptr q) (hp : ptr.protocol = .text) (s : Fin n) (command : Bytes)
    (hne : command ≠ []) (buffer_length : Nat) (hresp : Responds net s command (q s)) :
    Synced (exchange net ptr s command buffer_length).1 (Function.update q s none) ∧
      SameConfig ptr (exchange net ptr s command buffer_length).1 ∧
      ∀ line : ResponseLine, line.Final → bytesOf (net.answer s command).1 = line.bytes →
        (∀ qs, q s = some qs → qs.whole = true) → Alive net ptr s → Takes net →
        (exchange net ptr s command buffer_length).2 = line.code := by
  obtain ⟨host', result', rc, hout, hquiet, hcode⟩ := exchange_cases h hp s command hne buffer_length
    hresp
  rw [hout]
  refine ⟨(h.setServer s host' none hquiet).frame rfl rfl rfl, ⟨rfl, rfl, rfl, rfl⟩, ?_⟩
  intro line hf hl hwhole halive ht
  exact (hcode halive ht).1 line hf hl hwhole

end Libmemcached
