-- The $rc of memcached_fetch. It goes in as a C code and comes out as the code
-- of the last response, if there was one (libmemcached.xs, typemap, fetch.c).
import Libmemcached.Hosts
import Libmemcached.Wrapper

open Chunks

namespace Libmemcached

open memcached_return_t

variable {n : Nat}

/-! ## Codes as numbers -/

/-- `memcached_return`: 32 bits, which need not be those of a code. -/
abbrev memcached_return := UInt32

/-- The number of a code. -/
def memcached_return_t.number (rc : memcached_return_t) : memcached_return :=
  UInt32.ofNat rc.ctorIdx

/-- `LMC_RETURN_OK` of a number. -/
def numberOk (error : memcached_return) : Bool :=
  error == SUCCESS.number || error == STORED.number || error == DELETED.number ||
    error == END.number || error == BUFFERED.number

/-- T_RETURN, output, of a number. -/
def returnOfNumber (error : memcached_return) : ReturnSV :=
  if numberOk error then .yes else if error = NOTFOUND.number then .no else .undefined

theorem numberOk_number (rc : memcached_return_t) : numberOk rc.number = LMC_RETURN_OK rc := by
  cases rc <;> rfl

theorem number_eq_success (rc : memcached_return_t) : rc.number = SUCCESS.number ↔ rc = SUCCESS := by
  cases rc <;> simp [memcached_return_t.number, memcached_return_t.ctorIdx]

theorem number_eq_notfound (rc : memcached_return_t) :
    rc.number = NOTFOUND.number ↔ rc = NOTFOUND := by
  cases rc <;> simp [memcached_return_t.number, memcached_return_t.ctorIdx]

theorem returnOfNumber_number (rc : memcached_return_t) : returnOfNumber rc.number = returnSV rc := by
  unfold returnOfNumber returnSV
  rw [numberOk_number]
  simp only [number_eq_notfound]

/-! ## The call -/

/-- `$rc` before the call: left out, or a scalar that is undef or has an
integer value. -/
inductive RcArg
  | omitted
  | passed (iv : Option Int)

/-- T_RETURN, input, with the default of the signature. -/
def RcArg.error : RcArg → memcached_return
  | omitted => 0
  | passed none => 0
  | passed (some iv) => UInt32.ofInt iv

namespace Numbered

/-- The loop of `memcached_fetch_result`, when `error` points to any number. -/
def fetchResultLoop (net : Network n) :
    Nat → memcached_st n → memcached_return → Bool × memcached_st n × memcached_return
  | 0, ptr, error => (false, fetchNothing ptr, error)
  | fuel + 1, ptr, error =>
    match memcached_io_get_readable_server net ptr with
    | (none, ptr) => (false, fetchNothing ptr, error)
    | (some s, ptr) =>
      let (rc, ptr) := readResponse ptr s MEMCACHED_DEFAULT_COMMAND_SIZE
      if rc = SUCCESS then (true, ptr, rc.number)
      else if rc = END then
        fetchResultLoop net fuel (ptr.setServer s (ptr.servers s).response_reset) rc.number
      else if rc ≠ NOTFOUND then (false, fetchNothing ptr, rc.number)
      else fetchResultLoop net fuel ptr rc.number

/-- A handle with the one behavior that bears on a fetch: with USE_UDP nothing
is fetched. `memcached_st` itself has it off. -/
structure Handle (n : Nat) where
  ptr : memcached_st n
  use_udp : Bool

/-- `memcached_fetch_result`. -/
def memcached_fetch_result (net : Network n) (handle : Handle n) (error : memcached_return) :
    Bool × memcached_st n × memcached_return :=
  if handle.use_udp then (false, handle.ptr, NOT_SUPPORTED.number)
  else fetchResultLoop net (handle.ptr.unread + 1) handle.ptr error

/-- What `memcached_fetch` gives back, with its code as a number. -/
structure Fetched where
  value : Option Bytes
  key : Bytes
  flags : UInt32
  error : memcached_return

/-- `memcached_fetch` of libmemcached. -/
def memcached_fetch (net : Network n) (handle : Handle n) (flags : UInt32)
    (error : memcached_return) : memcached_st n × Fetched :=
  if handle.use_udp then (handle.ptr, ⟨none, [], flags, NOT_SUPPORTED.number⟩)
  else
    match memcached_fetch_result net handle error with
    | (false, ptr, error) => (ptr, ⟨none, [], flags, error⟩)
    | (true, ptr, error) =>
      if error ≠ SUCCESS.number then (ptr, ⟨none, [], flags, error⟩)
      else if MEMCACHED_MAX_KEY < ptr.result.item_key.length then
        (ptr, ⟨none, [], flags, KEY_TOO_BIG.number⟩)
      else
        (ptr, ⟨memcached_string_c_copy ptr.result.value, strncpy ptr.result.item_key,
          ptr.result.item_flags, error⟩)

/-- What `memcached_fetch` of the module leaves: the value, `$key`, `$flags`,
the code of errstr, and `$rc` when it was passed. -/
structure Returned where
  value : SV
  key : Bytes
  flags : UInt32
  errstr : memcached_return
  rc : Option ReturnSV

/-- `memcached_fetch` of the module. -/
def xs_memcached_fetch (net : Network n) (handle : Handle n) (flags : UInt32) (rc : RcArg) :
    memcached_st n × Returned :=
  let (ptr, fetched) := memcached_fetch net handle flags rc.error
  (ptr, ⟨sv_setpvn fetched.value, fetched.key, fetched.flags, fetched.error,
    match rc with
    | .omitted => none
    | .passed _ => some (returnOfNumber fetched.error)⟩)

end Numbered

/-! ## Codes and numbers agree

Without USE_UDP the number of a code goes through the call as the code itself
does. -/

/-- A code at the end of a triple, as its number. -/
def numbered {α β : Type} (out : α × β × memcached_return_t) : α × β × memcached_return :=
  (out.1, out.2.1, out.2.2.number)

theorem fetchResultLoop_number (net : Network n) (fuel : Nat) (ptr : memcached_st n)
    (rc : memcached_return_t) :
    Numbered.fetchResultLoop net fuel ptr rc.number = numbered (fetchResultLoop net fuel ptr rc) := by
  induction fuel generalizing ptr rc with
  | zero => rfl
  | succ fuel ih =>
    rw [Numbered.fetchResultLoop, fetchResultLoop]
    rcases memcached_io_get_readable_server net ptr with ⟨_ | s, ptr₁⟩
    · rfl
    · rcases readResponse ptr₁ s MEMCACHED_DEFAULT_COMMAND_SIZE with ⟨rc₁, ptr₂⟩
      dsimp only
      split_ifs
      · rfl
      · exact ih _ _
      · rfl
      · exact ih _ _

theorem memcached_fetch_number (net : Network n) (ptr : memcached_st n) (flags : UInt32)
    (rc : memcached_return_t) :
    Numbered.memcached_fetch net ⟨ptr, false⟩ flags rc.number =
      ((memcached_fetch net ptr flags rc).1,
        ⟨(memcached_fetch net ptr flags rc).2.value, (memcached_fetch net ptr flags rc).2.key,
          (memcached_fetch net ptr flags rc).2.flags,
          (memcached_fetch net ptr flags rc).2.error.number⟩) := by
  unfold Numbered.memcached_fetch Numbered.memcached_fetch_result memcached_fetch
    memcached_fetch_result
  simp only [Bool.false_eq_true, if_false]
  rw [fetchResultLoop_number]
  rcases fetchResultLoop net (ptr.unread + 1) ptr rc with ⟨_ | _, ptr₁, rc₁⟩
  · rfl
  · simp only [numbered, ne_eq, number_eq_success]
    split_ifs <;> rfl

/-- The integer value of `$rc` as the typemap leaves it. -/
def ivOfSV : ReturnSV → Option Int
  | .yes => some 1
  | .no => some 0
  | .undefined => none

theorem error_ivOfSV (rc : ReturnSV) : (RcArg.passed (ivOfSV rc)).error = (returnOfSV rc).number := by
  cases rc <;> rfl

/-- For a `$rc` that a call has set, `memcached_fetch` does what it does on
codes. -/
theorem xs_memcached_fetch_number (net : Network n) (state : lmc_state_st n) (flags : UInt32)
    (rc : ReturnSV) :
    Numbered.xs_memcached_fetch net ⟨state.ptr, false⟩ flags (.passed (ivOfSV rc)) =
      ((xs_memcached_fetch net state flags rc).1.ptr,
        ⟨(xs_memcached_fetch net state flags rc).2.1, (xs_memcached_fetch net state flags rc).2.2.1,
          (xs_memcached_fetch net state flags rc).2.2.2.1,
          (xs_memcached_fetch net state flags rc).1.last_return.number,
          some (xs_memcached_fetch net state flags rc).2.2.2.2⟩) := by
  unfold Numbered.xs_memcached_fetch
  rw [error_ivOfSV, memcached_fetch_number]
  simp only [returnOfNumber_number]
  rfl

/-! ## What the old `$rc` shows in -/

/-- No response is awaited, and no byte of one is buffered. -/
def NothingPending (ptr : memcached_st n) : Prop :=
  ∀ s, (ptr.servers s).cursor_active = 0 ∧ (ptr.servers s).input.buffered = []

theorem scanHosts_nothing {ptr : memcached_st n} (h : NothingPending ptr) (xs : List (Fin n)) :
    scanHosts ptr xs [] = .inr [] := by
  induction xs with
  | nil => rfl
  | cons x xs ih =>
    obtain ⟨hcount, hbuffered⟩ := h x
    rw [scanHosts, if_pos (by simp [MAX_SERVERS_TO_POLL]), hcount, hbuffered]
    simpa using ih

theorem readable_nothing (net : Network n) {ptr : memcached_st n} (h : NothingPending ptr) :
    (memcached_io_get_readable_server net ptr).1 = none := by
  unfold memcached_io_get_readable_server
  rw [scanHosts_nothing h]
  simp only [List.length_nil, Nat.zero_lt_succ, if_true, List.find?_eq_none]
  intro s _
  simp [(h s).1]

/-- The call finds a response to read: bytes of one are buffered, or one host
alone is awaited, or `poll` names one of the hosts that are. -/
def CanBeRead (net : Network n) (ptr : memcached_st n) : Prop :=
  match scanHosts ptr (List.finRange n) [] with
  | .inl _ => True
  | .inr fds =>
    if fds.length < 2 then ∃ s, 0 < (ptr.servers s).cursor_active
    else ∃ s ∈ fds, s ∈ net.poll ptr.polls fds

theorem canBeRead_iff (net : Network n) (ptr : memcached_st n) :
    CanBeRead net ptr ↔ (memcached_io_get_readable_server net ptr).1 ≠ none := by
  unfold CanBeRead memcached_io_get_readable_server
  cases scanHosts ptr (List.finRange n) [] with
  | inl s => simp
  | inr fds =>
    dsimp only
    split_ifs
    · simp [List.find?_eq_none, Nat.pos_iff_ne_zero]
    · simp [List.find?_eq_none]

/-- The first response that is read replaces the old code. -/
theorem fetchResultLoop_readable {net : Network n} {ptr : memcached_st n}
    (h : (memcached_io_get_readable_server net ptr).1 ≠ none) (fuel : Nat)
    (error error' : memcached_return) :
    Numbered.fetchResultLoop net (fuel + 1) ptr error =
      Numbered.fetchResultLoop net (fuel + 1) ptr error' := by
  rw [Numbered.fetchResultLoop, Numbered.fetchResultLoop]
  rcases hread : memcached_io_get_readable_server net ptr with ⟨_ | s, ptr₁⟩
  · rw [hread] at h
    exact absurd rfl h
  · rfl

theorem fetchResultLoop_unreadable {net : Network n} {ptr : memcached_st n}
    (h : (memcached_io_get_readable_server net ptr).1 = none) (fuel : Nat)
    (error : memcached_return) : ∃ ptr',
    Numbered.fetchResultLoop net (fuel + 1) ptr error = (false, ptr', error) := by
  rw [Numbered.fetchResultLoop]
  rcases hread : memcached_io_get_readable_server net ptr with ⟨_ | s, ptr₁⟩
  · exact ⟨_, rfl⟩
  · rw [hread] at h
    cases h

/-- Nothing but the code, and `$rc` with it, is made of the old code. -/
theorem xs_memcached_fetch_unreadable {net : Network n} {ptr : memcached_st n}
    (h : (memcached_io_get_readable_server net ptr).1 = none) (flags : UInt32) (rc : RcArg) :
    (Numbered.xs_memcached_fetch net ⟨ptr, false⟩ flags rc).2.errstr = rc.error := by
  obtain ⟨ptr', hloop⟩ := fetchResultLoop_unreadable h ptr.unread rc.error
  unfold Numbered.xs_memcached_fetch Numbered.memcached_fetch Numbered.memcached_fetch_result
  simp only [Bool.false_eq_true, if_false, hloop]

/-- Two calls leave the same value, the same code of errstr and, where both
have a `$rc`, the same truth value in it. -/
structure SameStatus (a b : Numbered.Returned) : Prop where
  value : a.value = b.value
  errstr : a.errstr = b.errstr
  truth : ∀ x ∈ a.rc, ∀ y ∈ b.rc, (x = .yes ↔ y = .yes)

/-- What a call leaves does not depend on its `$rc`, and without a response
that is pending its code is no success. -/
def StatusFromHosts (net : Network n) (handle : Numbered.Handle n) (flags : UInt32) : Prop :=
  (∀ rc rc', SameStatus (Numbered.xs_memcached_fetch net handle flags rc).2
    (Numbered.xs_memcached_fetch net handle flags rc').2) ∧
  (NothingPending handle.ptr →
    ∀ rc, numberOk (Numbered.xs_memcached_fetch net handle flags rc).2.errstr = false)

/-- The code that comes back makes the scalar that comes back. -/
theorem sameStatus_of_fetched {net : Network n} {handle : Numbered.Handle n} {flags : UInt32}
    {rc rc' : RcArg} (hfetch : Numbered.memcached_fetch net handle flags rc.error =
      Numbered.memcached_fetch net handle flags rc'.error) :
    SameStatus (Numbered.xs_memcached_fetch net handle flags rc).2
      (Numbered.xs_memcached_fetch net handle flags rc').2 := by
  unfold Numbered.xs_memcached_fetch
  rw [hfetch]
  refine ⟨rfl, rfl, ?_⟩
  intro x hx y hy
  cases rc with
  | omitted => cases hx
  | passed iv =>
    cases rc' with
    | omitted => cases hy
    | passed iv' =>
      rw [← Option.some.inj hx, ← Option.some.inj hy]

theorem memcached_fetch_readable {net : Network n} {ptr : memcached_st n}
    (h : (memcached_io_get_readable_server net ptr).1 ≠ none) (flags : UInt32)
    (error error' : memcached_return) :
    Numbered.memcached_fetch net ⟨ptr, false⟩ flags error =
      Numbered.memcached_fetch net ⟨ptr, false⟩ flags error' := by
  unfold Numbered.memcached_fetch Numbered.memcached_fetch_result
  simp only [Bool.false_eq_true, if_false, fetchResultLoop_readable h ptr.unread error error']

/-- With USE_UDP every fetch is refused. -/
theorem memcached_fetch_udp (net : Network n) (ptr : memcached_st n) (flags : UInt32)
    (error : memcached_return) : Numbered.memcached_fetch net ⟨ptr, true⟩ flags error =
      (ptr, ⟨none, [], flags, NOT_SUPPORTED.number⟩) := rfl

/-- The status of a fetch comes from the hosts exactly when the call is refused
for USE_UDP or finds a response to read. -/
theorem the_fetch_status_comes_from_the_hosts_iff_one_can_be_read (net : Network n)
    (handle : Numbered.Handle n) (flags : UInt32) :
    StatusFromHosts net handle flags ↔ handle.use_udp = true ∨ CanBeRead net handle.ptr := by
  obtain ⟨ptr, _ | _⟩ := handle
  · rw [canBeRead_iff]
    simp only [Bool.false_eq_true, false_or]
    constructor
    · rintro ⟨hsame, -⟩ hnone
      -- undef goes in as SUCCESS, and true as FAILURE
      have herrstr := (hsame (.passed none) (.passed (some 1))).errstr
      rw [xs_memcached_fetch_unreadable hnone, xs_memcached_fetch_unreadable hnone] at herrstr
      exact absurd herrstr (by decide)
    · intro hread
      refine ⟨fun rc rc' => sameStatus_of_fetched (memcached_fetch_readable hread flags _ _),
        fun hnothing => ?_⟩
      exact absurd (readable_nothing net hnothing) hread
  · refine ⟨fun _ => Or.inl rfl, fun _ => ⟨fun rc rc' => ?_, fun _ rc => rfl⟩⟩
    apply sameStatus_of_fetched
    rw [memcached_fetch_udp, memcached_fetch_udp]

/-- On a new handle a fetch with an undef `$rc` reports a success, and one with
a true `$rc` does not. -/
theorem an_idle_fetch_reports_its_old_rc :
    NothingPending pairState.ptr ∧
      (Numbered.xs_memcached_fetch (textHosts pairStores false fun _ => true)
        ⟨pairState.ptr, false⟩ 0 (.passed none)).2.rc = some .yes ∧
      (Numbered.xs_memcached_fetch (textHosts pairStores false fun _ => true)
        ⟨pairState.ptr, false⟩ 0 (.passed (some 1))).2.rc = some .undefined ∧
      ¬ StatusFromHosts (textHosts pairStores false fun _ => true) ⟨pairState.ptr, false⟩ 0 := by
  have hnothing : NothingPending pairState.ptr := fun _ => ⟨rfl, rfl⟩
  have hundef : (Numbered.xs_memcached_fetch (textHosts pairStores false fun _ => true)
      ⟨pairState.ptr, false⟩ 0 (.passed none)).2.errstr = SUCCESS.number := by decide +kernel
  refine ⟨hnothing, by decide +kernel, by decide +kernel, ?_⟩
  rintro ⟨-, hcode⟩
  have hfailure := hcode hnothing (.passed none)
  rw [hundef] at hfailure
  exact absurd hfailure (by decide)

end Libmemcached
