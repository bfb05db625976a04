-- What the scalars that a fetch stores into held before: `sv_setpvn` replaces
-- the bytes of a scalar and leaves its UTF8 flag.
import Libmemcached.HashFetch
import Libmemcached.Hosts
import Libmemcached.Lib.PerlString

open Chunks Override PerlString Queues

namespace Libmemcached

open memcached_return_t

variable {n : Nat}

/-! ## Scalars with their flag -/

/-- A Perl scalar, as far as an assignment of a string looks at it. -/
inductive Scalar
  | undefined
  | ref
  | string (s : Raw)
deriving DecidableEq

namespace Scalar

/-- `SvUTF8`. -/
def flag : Scalar → Bool
  | .string s => s.flag
  | .undefined | .ref => false

/-- The string that the scalar is in a comparison. -/
def raw : Scalar → Raw
  | .string s => s
  | .undefined | .ref => ⟨[], false⟩

/-- `sv_setpvn`. -/
def setpvn (sv : Scalar) : Option Bytes → Scalar
  | none => .undefined
  | some bytes => .string ⟨bytes, sv.flag⟩

/-- The scalar without its flag. -/
def sv : Scalar → SV
  | .string s => some s.bytes
  | .undefined | .ref => none

end Scalar

/-- One assignment of a string: what the scalar held before, the pointer that
`sv_setpvn` was given, and the bytes that the host sent. -/
structure Assigned where
  before : Scalar
  ptr : Option Bytes
  sent : Bytes
deriving DecidableEq

namespace Assigned

/-- What the scalar holds then. -/
def after (a : Assigned) : Scalar := a.before.setpvn a.ptr

/-- It is the string that was sent. -/
def Right (a : Assigned) : Prop := ∃ s, a.after = .string s ∧ s.Eq ⟨a.sent, false⟩

/-- The bytes came through whole, and the flag of the scalar was off or makes
no difference to them. -/
def Safe (a : Assigned) : Prop :=
  a.ptr = some a.sent ∧ (a.before.flag = false ∨ Ascii (latin1 a.sent))

theorem right_iff {a : Assigned} (h : ∀ bytes, a.ptr = some bytes → bytes.length = a.sent.length) :
    a.Right ↔ a.Safe := by
  obtain ⟨before, ptr, sent⟩ := a
  unfold Right Safe after
  cases ptr with
  | none => simp [Scalar.setpvn]
  | some bytes =>
    have hlength : bytes.length = sent.length := h bytes rfl
    simp only [Scalar.setpvn, Scalar.string.injEq, exists_eq_left', Option.some.injEq]
    cases before.flag with
    | false => simp [unflagged_eq_iff]
    | true =>
      simp only [reduceCtorEq, false_or]
      constructor
      · intro hright
        unfold Raw.Eq Raw.upgraded at hright
        simp only [if_true, Bool.false_eq_true, if_false] at hright
        have hascii : Ascii (latin1 sent) := by
          by_contra hnot
          have hlonger := length_utf8_gt hnot
          rw [← hright, hlength] at hlonger
          unfold latin1 at hlonger
          rw [List.length_map] at hlonger
          omega
        rw [utf8_ascii hascii, toLatin1_latin1] at hright
        exact ⟨hright, hascii⟩
      · rintro ⟨rfl, hascii⟩
        exact (flagged_eq_iff bytes).mpr hascii

end Assigned

/-! ## Fetching into a hash -/

/-- A hash with its flags. The keys are those that `hv_fetch` makes, the bytes
that the host sent. -/
abbrev FlaggedHash := Map Bytes Scalar

/-- A get callback: what it leaves in `$_`, or nothing when it dies. It may
depend on what it saw before. -/
abbrev ScalarCallback := List Assigned → memcached_result_st → Scalar → Option Scalar

/-- The context of such a fetch: the hash, the key of `dest_sv`, and the
assignments so far. -/
structure FlaggedContext where
  dest_hv : FlaggedHash
  dest_sv : Bytes
  assigned : List Assigned

namespace FlaggedContext

/-- `*dest_sv`. -/
def dest (context : FlaggedContext) : Scalar := (context.dest_hv context.dest_sv).getD .undefined

/-- Set `*dest_sv`. -/
def setDest (context : FlaggedContext) (sv : Scalar) : FlaggedContext :=
  { context with dest_hv := Function.update context.dest_hv context.dest_sv (some sv) }

end FlaggedContext

/-- `_cb_prep_store_into_sv_of_hv`. A new element is undef. -/
def prepScalar : Callback FlaggedContext := fun result context =>
  .returned SUCCESS { context with
    dest_hv := if context.dest_hv result.item_key = none then
      Function.update context.dest_hv result.item_key (some .undefined) else context.dest_hv
    dest_sv := result.item_key }

/-- `_cb_store_into_sv`. -/
def storeIntoScalar : Callback FlaggedContext := fun result context =>
  let a : Assigned := ⟨context.dest, memcached_string_value result.value, result.value.bytes⟩
  .returned SUCCESS ({ context with assigned := context.assigned ++ [a] }.setDest a.after)

/-- `_cb_fire_perl_get_cb`: the callback sees the element as `$_`. -/
def fireScalar (callback : ScalarCallback) : Callback FlaggedContext := fun result context =>
  match callback context.assigned result context.dest with
  | some sv => .returned SUCCESS (context.setDest sv)
  | none => .died context

def flaggedCallbacks : Option ScalarCallback → List (Callback FlaggedContext)
  | none => [prepScalar, storeIntoScalar]
  | some callback => [prepScalar, storeIntoScalar, fireScalar callback]

/-- `mget_into_hashref`, into a hash with flags. -/
def mget_into_flagged (net : Network n) (state : lmc_state_st n) (keys : List Bytes)
    (get_cb : Option ScalarCallback) (dest_ref : FlaggedHash) : FlaggedContext :=
  let (ptr, rc) := memcached_mget net state.ptr keys
  if LMC_RETURN_OK rc = false then ⟨dest_ref, [], []⟩
  else (memcached_fetch_execute net ptr (flaggedCallbacks get_cb) ⟨dest_ref, [], []⟩).context

/-! ## Fetching into variables -/

/-- The result that `memcached_fetch` takes its key and value from. -/
def fetchedItem (net : Network n) (ptr : memcached_st n) (error : memcached_return_t) :
    Option memcached_result_st :=
  let (found, ptr, error) := memcached_fetch_result net ptr error
  if found ∧ error = SUCCESS ∧ ptr.result.item_key.length ≤ MEMCACHED_MAX_KEY then some ptr.result
  else none

/-- `memcached_fetch($memc, $key, $flags, $rc)`, when it delivers: the
assignment to `$key`, and that to the new scalar that is returned. -/
def fetchIntoVariables (net : Network n) (state : lmc_state_st n) (flags : UInt32) (rc : ReturnSV)
    (key : Scalar) : List Assigned :=
  let (_, fetched) := memcached_fetch net state.ptr flags (returnOfSV rc)
  match fetchedItem net state.ptr (returnOfSV rc) with
  | none => []
  | some result => [⟨key, some fetched.key, result.item_key⟩,
      ⟨.undefined, fetched.value, result.value.bytes⟩]

/-! ## Either -/

/-- A fetch that stores into scalars of the caller. -/
inductive FetchCall
  | mget_into_hashref (keys : List Bytes) (get_cb : Option ScalarCallback)
  | memcached_fetch (flags : UInt32) (rc : ReturnSV)

namespace FetchCall

/-- The scalars it stores into. -/
def Dest : FetchCall → Type
  | .mget_into_hashref _ _ => FlaggedHash
  | .memcached_fetch _ _ => Scalar

/-- The assignments of the call, in order. -/
def assigned (net : Network n) (state : lmc_state_st n) :
    (call : FetchCall) → call.Dest → List Assigned
  | .mget_into_hashref keys get_cb, dest_ref =>
    (mget_into_flagged net state keys get_cb dest_ref).assigned
  | .memcached_fetch flags rc, key => fetchIntoVariables net state flags rc key

end FetchCall

/-- Two calls store the strings that the hosts sent, and the same ones. -/
def SameStrings (as bs : List Assigned) : Prop :=
  (∀ a ∈ as, a.Right) ∧ (∀ b ∈ bs, b.Right) ∧
    ∀ (i : Nat) a b, as[i]? = some a → bs[i]? = some b → a.after.raw.Eq b.after.raw

/-! ## Where the strings go

The same assignments, from the deliveries and what the scalars hold. -/

/-- What the get callback leaves in an element after an assignment. -/
def leftIn (get_cb : Option ScalarCallback) (seen : List Assigned) (result : memcached_result_st)
    (sv : Scalar) : Option Scalar :=
  match get_cb with
  | none => some sv
  | some callback => callback seen result sv

/-- The assignments for some results, into a hash, after those of `seen`. -/
def placesInHash (get_cb : Option ScalarCallback) :
    FlaggedHash → List Assigned → List memcached_result_st → List Assigned
  | _, _, [] => []
  | hv, seen, result :: results =>
    let a : Assigned := ⟨(hv result.item_key).getD .undefined, memcached_string_value result.value,
      result.value.bytes⟩
    a :: match leftIn get_cb (seen ++ [a]) result a.after with
      | none => []
      | some sv => placesInHash get_cb (Function.update hv result.item_key (some sv)) (seen ++ [a])
          results

/-- The assignments for one result, into variables. -/
def placesInVariables (key : Scalar) (result : memcached_result_st) : List Assigned :=
  [⟨key, some (strncpy result.item_key), result.item_key⟩,
    ⟨.undefined, memcached_string_c_copy result.value, result.value.bytes⟩]

/-- The scalars that the strings of a call go to, each as it is before. -/
def FetchCall.places (net : Network n) (state : lmc_state_st n) :
    (call : FetchCall) → call.Dest → List Assigned
  | .mget_into_hashref keys get_cb, dest_ref =>
    placesInHash get_cb dest_ref [] (fetchedResults net state keys)
  | .memcached_fetch _ rc, key =>
    (fetchedItem net state.ptr (returnOfSV rc)).toList.flatMap (placesInVariables key)

/-- Storing, for one result. The element that `hv_fetch` makes is hidden by
the value. -/
theorem prep_and_store (result : memcached_result_st) (context : FlaggedContext)
    (rest : List (Callback FlaggedContext)) :
    let a : Assigned := ⟨(context.dest_hv result.item_key).getD .undefined,
      memcached_string_value result.value, result.value.bytes⟩
    runCallbacks (prepScalar :: storeIntoScalar :: rest) result context =
      runCallbacks rest result ⟨Function.update context.dest_hv result.item_key (some a.after),
        result.item_key, context.assigned ++ [a]⟩ := by
  intro a
  simp only [runCallbacks, prepScalar, storeIntoScalar, FlaggedContext.dest, FlaggedContext.setDest]
  by_cases hkey : context.dest_hv result.item_key = none
  · simp [hkey, a]
  · simp [hkey, a]

/-- The callbacks, for one result. -/
theorem runCallbacks_flagged (get_cb : Option ScalarCallback) (result : memcached_result_st)
    (context : FlaggedContext) :
    let a : Assigned := ⟨(context.dest_hv result.item_key).getD .undefined,
      memcached_string_value result.value, result.value.bytes⟩
    match leftIn get_cb (context.assigned ++ [a]) result a.after with
    | some sv => runCallbacks (flaggedCallbacks get_cb) result context = .returned SUCCESS
        ⟨Function.update context.dest_hv result.item_key (some sv), result.item_key,
          context.assigned ++ [a]⟩
    | none => ∃ context', runCallbacks (flaggedCallbacks get_cb) result context = .died context' ∧
        context'.assigned = context.assigned ++ [a] := by
  intro a
  cases get_cb with
  | none => exact prep_and_store result context []
  | some callback =>
    have hstore := prep_and_store result context [fireScalar callback]
    simp only [leftIn, flaggedCallbacks]
    rw [hstore]
    simp only [runCallbacks, fireScalar, FlaggedContext.dest, Function.update_self,
      Option.getD_some]
    cases hleft : callback (context.assigned ++ [a]) result a.after with
    | none => exact ⟨_, rfl, rfl⟩
    | some sv => simp [FlaggedContext.setDest, a]

theorem plain_flagged (get_cb : Option ScalarCallback) : Plain (flaggedCallbacks get_cb) := by
  intro result context rc context' h
  have hone := runCallbacks_flagged get_cb result context
  dsimp only at hone
  split at hone
  · rw [hone, Called.returned.injEq] at h
    exact h.1.symm
  · obtain ⟨died, hdied, -⟩ := hone
    rw [hdied] at h
    cases h

theorem callAll_places (get_cb : Option ScalarCallback) (results : List memcached_result_st)
    (context : FlaggedContext) :
    (callAll (flaggedCallbacks get_cb) results context).context.assigned =
      context.assigned ++ placesInHash get_cb context.dest_hv context.assigned results := by
  induction results generalizing context with
  | nil => simp [callAll, Called.context, placesInHash]
  | cons result results ih =>
    have hone := runCallbacks_flagged get_cb result context
    dsimp only at hone
    simp only [callAll, placesInHash]
    split at hone
    · rename_i sv hleft
      rw [hone, hleft]
      simp only
      rw [ih, List.append_assoc, List.singleton_append]
    · rename_i hleft
      obtain ⟨died, hdied, hassigned⟩ := hone
      rw [hdied, hleft]
      exact hassigned

theorem mget_into_flagged_places (net : Network n) (state : lmc_state_st n) (keys : List Bytes)
    (get_cb : Option ScalarCallback) (dest_ref : FlaggedHash) :
    (mget_into_flagged net state keys get_cb dest_ref).assigned =
      placesInHash get_cb dest_ref [] (fetchedResults net state keys) := by
  unfold mget_into_flagged fetchedResults
  rcases memcached_mget net state.ptr keys with ⟨ptr, rc⟩
  by_cases hrc : LMC_RETURN_OK rc = true
  · simp only [hrc, Bool.true_eq_false, if_false, if_true]
    rw [fetch_execute_callAll net ptr (plain_flagged get_cb), callAll_places, List.nil_append]
  · simp only [hrc, if_true, Bool.false_eq_true, if_false, placesInHash]

theorem fetchIntoVariables_places (net : Network n) (state : lmc_state_st n) (flags : UInt32)
    (rc : ReturnSV) (key : Scalar) :
    fetchIntoVariables net state flags rc key =
      (fetchedItem net state.ptr (returnOfSV rc)).toList.flatMap (placesInVariables key) := by
  unfold fetchIntoVariables fetchedItem memcached_fetch
  generalize memcached_fetch_result net state.ptr (returnOfSV rc) = out
  obtain ⟨found, ptr, error⟩ := out
  cases found with
  | false => rfl
  | true =>
    by_cases herror : error = SUCCESS
    · subst herror
      by_cases hlong : MEMCACHED_MAX_KEY < ptr.result.item_key.length
      · simp [Nat.not_le.mpr hlong]
      · simp [hlong, Nat.not_lt.mp hlong, placesInVariables]
    · simp [herror]

theorem FetchCall.assigned_eq_places (net : Network n) (state : lmc_state_st n) (call : FetchCall)
    (dest : call.Dest) : call.assigned net state dest = call.places net state dest := by
  cases call with
  | mget_into_hashref keys get_cb => exact mget_into_flagged_places net state keys get_cb dest
  | memcached_fetch flags rc => exact fetchIntoVariables_places net state flags rc dest

/-! ## Two runs -/

/-- An assignment whose bytes, if there are any, are as many as were sent. -/
def Assigned.Sized (a : Assigned) : Prop :=
  ∀ bytes, a.ptr = some bytes → bytes.length = a.sent.length

theorem length_strncpy (key : Bytes) : (strncpy key).length = key.length := by
  have hshort := (List.takeWhile_prefix (fun c : UInt8 => c ≠ 0) (l := key)).length_le
  unfold strncpy
  simp only [List.length_append, List.length_replicate]
  omega

theorem placesInHash_sized (get_cb : Option ScalarCallback) (hv : FlaggedHash)
    (seen : List Assigned) (results : List memcached_result_st) :
    ∀ a ∈ placesInHash get_cb hv seen results, a.Sized := by
  induction results generalizing hv seen with
  | nil => simp [placesInHash]
  | cons result results ih =>
    intro a ha
    simp only [placesInHash] at ha
    rcases List.mem_cons.mp ha with rfl | ha
    · intro bytes hbytes
      unfold memcached_string_value at hbytes
      split_ifs at hbytes
      cases hbytes
      rfl
    · split at ha
      · cases ha
      · exact ih _ _ a ha

theorem placesInVariables_sized (key : Scalar) (result : memcached_result_st) :
    ∀ a ∈ placesInVariables key result, a.Sized := by
  intro a ha bytes hbytes
  unfold placesInVariables at ha
  rcases List.mem_cons.mp ha with rfl | ha
  · cases hbytes
    exact length_strncpy result.item_key
  · obtain rfl := List.mem_singleton.mp ha
    unfold memcached_string_c_copy at hbytes
    split_ifs at hbytes
    cases hbytes
    rfl

theorem FetchCall.places_sized (net : Network n) (state : lmc_state_st n) (call : FetchCall)
    (dest : call.Dest) : ∀ a ∈ call.places net state dest, a.Sized := by
  cases call with
  | mget_into_hashref keys get_cb => exact placesInHash_sized get_cb dest [] _
  | memcached_fetch flags rc =>
    intro a ha
    obtain ⟨result, -, ha⟩ := List.mem_flatMap.mp ha
    exact placesInVariables_sized dest result a ha

/-- What is sent does not depend on the destination: callbacks that die only
cut it short. -/
theorem sent_placesInHash (get_cb : Option ScalarCallback) (hv : FlaggedHash)
    (seen : List Assigned) (results : List memcached_result_st) :
    (placesInHash get_cb hv seen results).map (·.sent) <+: results.map (·.value.bytes) := by
  induction results generalizing hv seen with
  | nil => simp [placesInHash]
  | cons result results ih =>
    simp only [placesInHash, List.map_cons]
    apply List.cons_prefix_cons.mpr
    refine ⟨rfl, ?_⟩
    split
    · exact List.nil_prefix
    · exact ih _ _

/-- What a call is sent: the values of the deliveries, or the key and the
value of one. -/
def FetchCall.sent (net : Network n) (state : lmc_state_st n) : FetchCall → List Bytes
  | .mget_into_hashref keys _ => (fetchedResults net state keys).map (·.value.bytes)
  | .memcached_fetch _ rc => (fetchedItem net state.ptr (returnOfSV rc)).toList.flatMap fun result =>
    [result.item_key, result.value.bytes]

theorem FetchCall.sent_places (net : Network n) (state : lmc_state_st n) (call : FetchCall)
    (dest : call.Dest) : (call.places net state dest).map (·.sent) <+: call.sent net state := by
  cases call with
  | mget_into_hashref keys get_cb => exact sent_placesInHash get_cb dest [] _
  | memcached_fetch flags rc =>
    unfold places sent
    rw [List.map_flatMap]
    exact List.prefix_refl _

/-- Two lists of right strings whose sent bytes begin one list agree. -/
theorem same_strings {as bs : List Assigned} {sent : List Bytes}
    (has : as.map (·.sent) <+: sent) (hbs : bs.map (·.sent) <+: sent) :
    SameStrings as bs ↔ (∀ a ∈ as, a.Right) ∧ ∀ b ∈ bs, b.Right := by
  constructor
  · rintro ⟨ha, hb, -⟩
    exact ⟨ha, hb⟩
  · rintro ⟨ha, hb⟩
    refine ⟨ha, hb, fun i a b hai hbi => ?_⟩
    have hsent : a.sent = b.sent := by
      have hat := List.prefix_iff_getElem?.mp has
      have hbt := List.prefix_iff_getElem?.mp hbs
      obtain ⟨hi, rfl⟩ := List.getElem?_eq_some_iff.mp hai
      obtain ⟨hj, rfl⟩ := List.getElem?_eq_some_iff.mp hbi
      have hasent := hat i (by rwa [List.length_map])
      have hbsent := hbt i (by rwa [List.length_map])
      rw [hasent, Option.some.injEq, List.getElem_map, List.getElem_map] at hbsent
      exact hbsent
    obtain ⟨s, hs, hseq⟩ := ha a (List.mem_of_getElem? hai)
    obtain ⟨t, ht, hteq⟩ := hb b (List.mem_of_getElem? hbi)
    rw [hs, ht]
    unfold Scalar.raw Raw.Eq
    unfold Raw.Eq at hseq hteq
    rw [hseq, hteq, hsent]

/-- The strings that two fetches store are those that the hosts sent, and so
the same, exactly when every string came through whole into a scalar whose
UTF8 flag was off, or is ASCII. -/
theorem fetched_strings_are_the_same_iff_every_place_is_safe (net : Network n)
    (state : lmc_state_st n) (call : FetchCall) (dest dest' : call.Dest) :
    SameStrings (call.assigned net state dest) (call.assigned net state dest') ↔
      (∀ a ∈ call.places net state dest, a.Safe) ∧ ∀ a ∈ call.places net state dest', a.Safe := by
  rw [call.assigned_eq_places, call.assigned_eq_places,
    same_strings (call.sent_places net state dest) (call.sent_places net state dest')]
  have hright := fun dest => call.places_sized net state dest
  exact and_congr
    (forall₂_congr fun a ha => Assigned.right_iff (hright dest a ha))
    (forall₂_congr fun a ha => Assigned.right_iff (hright dest' a ha))

/-- Hosts that hold U+00E9 in one byte under `a`. -/
def latinStores : Fin 2 → Store := fun _ => .single keyA keyA_valid ⟨0, 0, [0xe9], by decide⟩

/-- A hash whose element `a` holds a string with the UTF8 flag on, as a get
callback leaves it that decodes its value. -/
def decodedHash : FlaggedHash := Function.update (fun _ => none) keyA
  (some (.string ⟨utf8 [0x263a], true⟩))

/-- The element reads as another string when it is fetched again. -/
theorem a_decoded_element_spoils_the_next_value :
    ¬ SameStrings
      ((FetchCall.mget_into_hashref [keyA] none).assigned
        (textHosts latinStores false fun _ => true) pairState decodedHash)
      ((FetchCall.mget_into_hashref [keyA] none).assigned
        (textHosts latinStores false fun _ => true) pairState fun _ => none) := by
  rintro ⟨hright, -⟩
  have hone : (FetchCall.mget_into_hashref [keyA] none).assigned
      (textHosts latinStores false fun _ => true) pairState decodedHash =
        [⟨.string ⟨utf8 [0x263a], true⟩, some [0xe9], [0xe9]⟩] := by decide +kernel
  rw [hone] at hright
  obtain ⟨s, hs, heq⟩ := hright _ (List.mem_singleton_self _)
  cases hs
  exact absurd heq (by decide)

/-! ## The hash without its flags -/

/-- A hash without its flags. -/
def FlaggedHash.hv (hash : FlaggedHash) : HV := fun key => (hash key).map Scalar.sv

/-- A get callback that does to the bytes of an element what `f` does. -/
def Lifts (support_cas : Bool) : Option ScalarCallback → Option Transform → Prop
  | none, none => True
  | some callback, some f => ∀ seen result sv, ∃ sv', callback seen result sv = some sv' ∧
      sv'.sv = (f { invocationOf support_cas result with value := sv.sv }).1
  | _, _ => False

theorem sv_setpvn_sv (sv : Scalar) (ptr : Option Bytes) : (sv.setpvn ptr).sv = ptr := by
  cases ptr <;> rfl

theorem hv_update (hash : FlaggedHash) (key : Bytes) (sv : Scalar) :
    FlaggedHash.hv (Function.update hash key (some sv)) =
      Function.update hash.hv key (some sv.sv) := by
  funext k
  unfold FlaggedHash.hv
  by_cases hk : k = key
  · subst hk
    simp
  · simp [hk]

/-- A callback that lifts `f` leaves in the element what `f` makes of it. -/
theorem leftIn_lifts {support_cas : Bool} {get_cb : Option ScalarCallback}
    {transform : Option Transform} (h : Lifts support_cas get_cb transform) (seen : List Assigned)
    (result : memcached_result_st) (before : Scalar) :
    ∃ sv, leftIn get_cb seen result (before.setpvn (memcached_string_value result.value)) = some sv ∧
      sv.sv = elementOf support_cas transform result := by
  cases get_cb with
  | none =>
    cases transform with
    | none => exact ⟨_, rfl, sv_setpvn_sv _ _⟩
    | some f => exact h.elim
  | some callback =>
    cases transform with
    | none => exact h.elim
    | some f =>
      obtain ⟨sv, hsv, heq⟩ := h seen result (before.setpvn (memcached_string_value result.value))
      rw [sv_setpvn_sv] at heq
      exact ⟨sv, hsv, heq⟩

theorem callAll_hv {support_cas : Bool} {get_cb : Option ScalarCallback}
    {transform : Option Transform} (h : Lifts support_cas get_cb transform)
    (results : List memcached_result_st) (context : FlaggedContext) :
    FlaggedHash.hv (callAll (flaggedCallbacks get_cb) results context).context.dest_hv =
      override context.dest_hv.hv (bindingsOf support_cas transform results) := by
  induction results generalizing context with
  | nil => rfl
  | cons result results ih =>
    have hone := runCallbacks_flagged get_cb result context
    dsimp only at hone
    obtain ⟨sv, hsv, heq⟩ := leftIn_lifts h (context.assigned ++
      [⟨(context.dest_hv result.item_key).getD .undefined, memcached_string_value result.value,
        result.value.bytes⟩]) result ((context.dest_hv result.item_key).getD .undefined)
    unfold Assigned.after at hone
    simp only [hsv] at hone
    simp only [callAll]
    rw [hone]
    simp only
    rw [ih, hv_update, heq]
    rfl

/-- Without its flags, the hash is that of `mget_into_hashref`. -/
theorem mget_into_flagged_hv (net : Network n) (state₀ : lmc_state_st n) (set_cb : Option Coderef)
    (keys : List Bytes) {get_cb : Option ScalarCallback} {transform : Option Transform}
    (dest_ref : FlaggedHash)
    (h : Lifts (memcached_mget net state₀.ptr keys).1.support_cas get_cb transform) :
    let state := xs_set_callback_coderefs state₀ set_cb (transform.map Transform.coderef)
    ∃ state' rc, xs_mget_into_hashref net state keys dest_ref.hv =
      .returned state' (FlaggedHash.hv (mget_into_flagged net state keys get_cb dest_ref).dest_hv,
        rc) := by
  intro state
  obtain ⟨state', rc, hout, -⟩ := fetch_all_stored net
    { state with ptr := (memcached_mget net state.ptr keys).1 } (memcached_mget net state.ptr keys).2
    dest_ref.hv transform rfl
  refine ⟨recordReturn state' rc, rc, ?_⟩
  simp only [xs_mget_into_hashref, hout]
  have hhash : FlaggedHash.hv (mget_into_flagged net state keys get_cb dest_ref).dest_hv =
      override dest_ref.hv (bindingsOf (memcached_mget net state.ptr keys).1.support_cas transform
        (if LMC_RETURN_OK (memcached_mget net state.ptr keys).2 = true then
          deliveries net (memcached_mget net state.ptr keys).1 else [])) := by
    unfold mget_into_flagged
    by_cases hrc : LMC_RETURN_OK (memcached_mget net state.ptr keys).2 = true
    · simp only [hrc, Bool.true_eq_false, if_false, if_true]
      rw [fetch_execute_callAll net _ (plain_flagged get_cb), callAll_hv h]
      rfl
    · simp only [hrc, if_true, Bool.false_eq_true, if_false]
      rfl
  rw [hhash]

/-- On a handle that is in step, what is sent are values of the replies. -/
theorem sent_values_are_values_of_replies (net : Network n) {ptr : memcached_st n}
    {q : State (Fin n) Reply} (h : Synced ptr q) {value : Bytes}
    (hvalue : value ∈ (deliveries net ptr).map (·.value.bytes)) :
    ∃ s, ∃ r ∈ owed q s, value = r.item.value := by
  obtain ⟨es, ptr₁, q₁, ptr', q', rc, hsteady⟩ := fetch_execute_steadily net h
  rw [hsteady.deliveries] at hvalue
  obtain ⟨result, hresult, rfl⟩ := List.mem_map.mp hvalue
  obtain ⟨r, hr, hholds⟩ := of_mem_resultsOf _ _ _ hresult
  obtain ⟨d, hd, rfl⟩ := List.mem_map.mp hr
  exact ⟨d.1, d.2, hsteady.run.steps.mem_owed hd, hholds.value⟩

end Libmemcached
