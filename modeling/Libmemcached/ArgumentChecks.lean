-- Which arguments the multi-key calls take: what they refuse, what they send,
-- and what they write into the key buffer.
import Libmemcached.Hosts
import Libmemcached.KeyBuffer
import Libmemcached.Wrapper

open Chunks

namespace Libmemcached

open memcached_return_t

variable {n : Nat}

/-! ## The calls with their Perl arguments -/

/-- `!` on an integer. -/
def lnot (i : Nat) : Nat := if i = 0 then 1 else 0

/-- T_HVREF, input: whether the argument is turned down. The `!` applies to the
type and not to the comparison. -/
def notHashref (arg : PerlValue) : Bool :=
  match arg.referent with
  | none => true
  | some sv => lnot sv.svtype == SVt_PVHV

/-- A call that takes its keys in a container. -/
inductive ArgCall
  | memcached_mget (keys_rv : PerlValue)
  | memcached_mget_by_key (master_key : SV) (keys_rv : PerlValue)
  | mget_into_hashref (keys_ref dest_ref : PerlValue)

/-- How far a call comes before it fetches: an exception, the return of
MEMCACHED_NO_KEY_PROVIDED, or a request with the code it ended with. -/
inductive ArgRequest (n : Nat)
  | croaked (message : String) (state : lmc_state_st n) (b : KeyBuffer)
  | refused (state : lmc_state_st n) (b : KeyBuffer)
  | sent (state : lmc_state_st n) (rc : memcached_return_t) (b : KeyBuffer)
      (number_of_keys : UInt32) (written : List Nat)
  | faulted

/-- `_prep_keys_lengths`, and `memcached_mget_by_key` with what it gives. -/
def prepareAndSend (net : Network n) (state : lmc_state_st n) (b : KeyBuffer)
    (master_key : Option Bytes) (keys_rv : PerlValue) : ArgRequest n :=
  match prep_keys_lengths b keys_rv with
  | .no_key_provided => .refused (recordReturn state NO_KEY_PROVIDED) b
  | .faulted => .faulted
  | .ready b number_of_keys written =>
    let keys := (b.handed number_of_keys.toNat).map (·.getD [])
    let (ptr, rc) := memcached_mget_by_key net state.ptr master_key keys
    .sent { state with ptr } rc b number_of_keys written

namespace ArgCall

/-- The call up to its request. -/
def request (net : Network n) (state : lmc_state_st n) (b : KeyBuffer) : ArgCall → ArgRequest n
  | .memcached_mget keys_rv => prepareAndSend net state b none keys_rv
  | .memcached_mget_by_key master_key keys_rv =>
    prepareAndSend net state b (some (SvPV master_key)) keys_rv
  | .mget_into_hashref keys_ref dest_ref =>
    if notHashref dest_ref then .croaked "dest_ref is not a hash reference" state b
    else prepareAndSend net state b none keys_ref

/-- The argument with the keys. -/
def keysArg : ArgCall → PerlValue
  | .memcached_mget keys_rv | .memcached_mget_by_key _ keys_rv => keys_rv
  | .mget_into_hashref keys_ref _ => keys_ref

end ArgCall

/-! ## Arguments that may be sent -/

/-- An untied array with every slot present, or an untied hash. -/
def Referent.Plain : Referent → Prop
  | .array slots fetchsize => fetchsize = none ∧ none ∉ slots
  | .hash _ iterated => iterated = none
  | .other _ _ _ => False

/-- No reference, a magical one, or one to neither an array nor a hash. -/
def PerlValue.RefusedKeys (arg : PerlValue) : Prop :=
  arg.referent = none ∨ arg.magical = true ∨
    ∃ sv, arg.referent = some sv ∧ sv.svtype ≠ SVt_PVAV ∧ sv.svtype ≠ SVt_PVHV

/-- A reference to a hash. -/
def PerlValue.IsHashref (arg : PerlValue) : Prop :=
  ∃ sv, arg.referent = some sv ∧ sv.svtype = SVt_PVHV

namespace ArgCall

/-- The destination, where there is one, is a reference to a hash. -/
def DestIsHash : ArgCall → Prop
  | .memcached_mget _ | .memcached_mget_by_key _ _ => True
  | .mget_into_hashref _ dest_ref => dest_ref.IsHashref

/-- The keys are in a plain array or hash, and the destination is a hash. -/
def Valid (call : ArgCall) : Prop :=
  (∃ sv, call.keysArg.referent = some sv ∧ sv.Plain) ∧ call.DestIsHash

/-- What the checks do catch: a destination that is no reference, and keys
that are no reference, a magical one, or one to neither an array nor a hash. -/
def Refused (call : ArgCall) : Prop :=
  (∃ keys_ref dest_ref, call = .mget_into_hashref keys_ref dest_ref ∧ dest_ref.referent = none) ∨
    call.keysArg.RefusedKeys

end ArgCall

/-- A request is sent for valid arguments only, with as many keys as slots were
filled, each in memory that was allocated. Any other end leaves the handle and
the buffer alone. -/
def ArgRequest.Proper (call : ArgCall) (state : lmc_state_st n) (b : KeyBuffer) :
    ArgRequest n → Prop
  | .croaked _ state' b' => state' = state ∧ b' = b
  | .refused state' b' => state' = recordReturn state NO_KEY_PROVIDED ∧ b' = b
  | .sent _ _ b' number_of_keys written =>
    call.Valid ∧ number_of_keys.toNat = written.length ∧
      ∀ i ∈ written, i < b'.strings.length ∧ i < b'.lengths.length
  | .faulted => False

/-- The container is not too large for the `int` of the key buffer, and a hash
not for an `unsigned int` either. -/
def Referent.FitsInto (b : KeyBuffer) (sv : Referent) : Prop :=
  b.Roomy (UInt32.ofNat sv.size).toNat ∧ (sv.svtype = SVt_PVHV → sv.size < 2 ^ 32)

/-! ## What filling says about the buffer -/

/-- Both arrays keep their lengths, and the count stays. -/
structure SameSlots (b b' : KeyBuffer) : Prop where
  strings : b'.strings.length = b.strings.length
  lengths : b'.lengths.length = b.lengths.length
  count : b'.key_alloc_count = b.key_alloc_count

theorem SameSlots.refl (b : KeyBuffer) : SameSlots b b := ⟨rfl, rfl, rfl⟩

theorem SameSlots.trans {a b c : KeyBuffer} (h : SameSlots a b) (h' : SameSlots b c) :
    SameSlots a c :=
  ⟨h'.strings.trans h.strings, h'.lengths.trans h.lengths, h'.count.trans h.count⟩

theorem SameSlots.sound {b b' : KeyBuffer} (h : SameSlots b b') (hsound : b.Sound) : b'.Sound := by
  constructor
  · rw [h.count, h.strings]
    exact hsound.strings
  · rw [h.count, h.lengths]
    exact hsound.lengths

theorem store_some {b b' : KeyBuffer} {i : Nat} {key : Bytes} (h : b.store i key = some b') :
    i < b.strings.length ∧ SameSlots b b' := by
  unfold KeyBuffer.store at h
  split_ifs at h with hi
  cases h
  refine ⟨hi.1, ?_, ?_, rfl⟩
  · simp only [KeyBuffer.strings, Option.getD_some, List.length_set]
  · simp only [KeyBuffer.lengths, Option.getD_some, List.length_set]

/-- A loop that ends has stopped at the first slot that it did not fill. -/
theorem fillUp_done {turn : Nat → Turn} (fuel : Nat) {b b' : KeyBuffer} {i : Nat}
    {written : List Nat} (h : fillUp turn fuel b i = .done b' written) :
    SameSlots b b' ∧
      ∃ m, written = List.range m ∧ turn m = .stop ∧ (m = i ∨ m ≤ b.strings.length) := by
  induction fuel generalizing b i with
  | zero => cases h
  | succ fuel ih =>
    rw [fillUp] at h
    split at h
    · rename_i hstop
      cases h
      exact ⟨.refl _, i, rfl, hstop, Or.inl rfl⟩
    · cases h
    · split at h
      · rename_i b₁ hstore
        obtain ⟨hi, hsame⟩ := store_some hstore
        obtain ⟨hrest, m, hwritten, hstop, hm⟩ := ih h
        refine ⟨hsame.trans hrest, m, hwritten, hstop, Or.inr ?_⟩
        rw [hsame.strings] at hm
        omega
      · cases h

theorem fillDown_done {svs : List SV} (items : Nat) {b b' : KeyBuffer} {written written' : List Nat}
    (h : fillDown svs items b written = .done b' written') : SameSlots b b' := by
  induction items generalizing b written with
  | zero =>
    rw [fillDown] at h
    cases h
    exact .refl _
  | succ items ih =>
    rw [fillDown] at h
    split at h
    · rename_i b₁ hstore
      exact (store_some hstore).2.trans (ih h)
    · cases h

/-- The room that is made is sound. -/
theorem makeRoom_sound {b b' : KeyBuffer} (h : b.Sound) {number_of_keys : UInt32}
    (hroom : makeRoom b number_of_keys = some b') : b'.Sound := by
  unfold makeRoom at hroom
  split_ifs at hroom with habove
  · unfold prep_keys_buffer at hroom
    dsimp only at hroom
    split_ifs at hroom with henough hnull hfits
    · cases hroom
      exact h
    · have hpos : 0 ≤ intOfUnsigned number_of_keys := by
        have := h.strings
        omega
      obtain ⟨k, hk⟩ := Int.eq_ofNat_of_zero_le hpos
      rw [hk] at hroom
      cases hroom
      exact KeyBuffer.sound_newx k
    · cases hroom
      exact KeyBuffer.sound_renew b _
  · cases hroom
    exact h

/-- A number of keys that does not fit: there is no buffer, or it stays too
small. -/
theorem makeRoom_of_not_roomy {b : KeyBuffer} (h : b.Sound) {number_of_keys : UInt32}
    (hnot : ¬ b.Roomy number_of_keys.toNat) :
    makeRoom b number_of_keys = none ∨ makeRoom b number_of_keys = some b := by
  unfold KeyBuffer.Roomy at hnot
  simp only [not_or, not_and, Int.not_le, Nat.not_lt] at hnot
  obtain ⟨habove, hlarge⟩ := hnot
  unfold makeRoom
  rw [if_pos habove]
  rcases Nat.lt_or_ge number_of_keys.toNat (2 ^ 31) with hlt | hge
  · obtain ⟨hnull, hfits⟩ := hlarge hlt
    refine Or.inl ?_
    unfold prep_keys_buffer
    rw [intOfUnsigned_of_lt hlt, if_neg (Int.not_le.mpr habove), if_neg hnull, Int.toNat_natCast]
    exact if_neg (Nat.not_lt.mpr hfits)
  · -- the `int` is negative, so the buffer looks large enough
    have hneg : intOfUnsigned number_of_keys < 0 := by
      unfold intOfUnsigned
      rw [BitVec.toInt_eq_toNat_cond, UInt32.toNat_toBitVec, if_neg (by omega)]
      have := number_of_keys.toNat_lt
      omega
    refine Or.inr ?_
    unfold prep_keys_buffer
    rw [if_pos]
    have := h.strings
    omega

/-- The buffers of a handle, after any calls that came to an end. -/
inductive Reached : KeyBuffer → Prop
  | new : Reached .new
  | container {b b' : KeyBuffer} {keys_sv : Referent} {number_of_keys : UInt32}
      {written : List Nat} (h : Reached b)
      (hready : prep_container b keys_sv = .ready b' number_of_keys written) : Reached b'
  | get_multi {b b' : KeyBuffer} {svs : List SV} {number_of_keys : UInt32} {written : List Nat}
      (h : Reached b) (hready : prep_get_multi b svs = .ready b' number_of_keys written) :
      Reached b'

/-- What a container that was filled says. -/
theorem prep_container_ready {b b' : KeyBuffer} {keys_sv : Referent} {number_of_keys : UInt32}
    {written : List Nat} (hready : prep_container b keys_sv = .ready b' number_of_keys written) :
    number_of_keys = UInt32.ofNat keys_sv.size ∧
      ∃ b₁, makeRoom b number_of_keys = some b₁ ∧ SameSlots b₁ b' ∧
        ∃ m, written = List.range m ∧ keys_sv.turn number_of_keys m = .stop ∧
          m ≤ b₁.strings.length := by
  unfold prep_container at hready
  dsimp only at hready
  split at hready
  · cases hready
  · rename_i b₁ hroom
    split at hready
    · rename_i b₂ written₂ hfill
      cases hready
      obtain ⟨hsame, m, hwritten, hstop, hm⟩ := fillUp_done _ hfill
      exact ⟨rfl, b₁, hroom, hsame, m, hwritten, hstop, by omega⟩
    · cases hready

theorem Reached.sound {b : KeyBuffer} (h : Reached b) : b.Sound := by
  induction h with
  | new => exact KeyBuffer.sound_new
  | container _ hready ih =>
    obtain ⟨-, b₁, hroom, hsame, -⟩ := prep_container_ready hready
    exact hsame.sound (makeRoom_sound ih hroom)
  | get_multi _ hready ih =>
    unfold prep_get_multi at hready
    dsimp only at hready
    split at hready
    · cases hready
    · rename_i b₁ hroom
      split at hready
      · rename_i b₂ written₂ hfill
        cases hready
        exact (fillDown_done _ hfill).sound (makeRoom_sound ih hroom)
      · cases hready

/-! ## Plain containers -/

/-- The strings of an array that has no empty slot. -/
theorem exists_svs {slots : List (Option SV)} (h : none ∉ slots) :
    ∃ svs : List SV, slots = svs.map some := by
  induction slots with
  | nil => exact ⟨[], rfl⟩
  | cons slot slots ih =>
    obtain ⟨svs, rfl⟩ := ih fun hmem => h (List.mem_cons_of_mem _ hmem)
    cases slot with
    | none => exact absurd (List.mem_cons_self ..) h
    | some sv => exact ⟨sv :: svs, rfl⟩

/-- The keys that the loop over a plain container takes, when it is not too
large: those of an array are as many as the `unsigned int` says. -/
theorem plain_turns {sv : Referent} (hplain : sv.Plain)
    (hsize : sv.svtype = SVt_PVHV → sv.size < 2 ^ 32) :
    ∃ keys : List Bytes, (UInt32.ofNat sv.size).toNat = keys.length ∧
      (∀ i key, keys[i]? = some key → sv.turn (UInt32.ofNat sv.size) i = .key key) ∧
      sv.turn (UInt32.ofNat sv.size) keys.length = .stop := by
  cases sv with
  | array slots fetchsize =>
    obtain ⟨rfl, hslots⟩ := hplain
    obtain ⟨svs, rfl⟩ := exists_svs hslots
    simp only [Referent.size, Option.getD_none, List.length_map]
    have hle : (UInt32.ofNat svs.length).toNat ≤ svs.length := by
      rw [UInt32.toNat_ofNat']
      exact Nat.mod_le _ _
    refine ⟨(svs.map SvPV).take (UInt32.ofNat svs.length).toNat, ?_, ?_, ?_⟩
    · rw [List.length_take, List.length_map]
      omega
    · intro i key hkey
      rw [List.getElem?_take] at hkey
      split_ifs at hkey with hi
      obtain ⟨sv, hsv, rfl⟩ := Option.map_eq_some_iff.mp (List.getElem?_map .. ▸ hkey)
      simp only [Referent.turn, hi, if_true, List.getElem?_map, hsv, Option.map_some]
    · rw [List.length_take, List.length_map, Nat.min_eq_left hle]
      simp only [Referent.turn, Nat.lt_irrefl, if_false]
  | hash keys iterated =>
    obtain rfl : iterated = none := hplain
    refine ⟨keys, ?_, ?_, ?_⟩
    · rw [UInt32.toNat_ofNat']
      exact Nat.mod_eq_of_lt (hsize rfl)
    · intro i key hkey
      simp only [Referent.turn, Option.getD_none, hkey]
    · simp only [Referent.turn, Option.getD_none]
      rw [List.getElem?_eq_none (Nat.le_refl _)]
  | other svtype hav hhv => exact absurd hplain (by simp [Referent.Plain])

/-- The loop over a plain container does not stop before the `unsigned int`
says so, and over a hash not before its last key. -/
theorem le_of_plain_stop {sv : Referent} (hplain : sv.Plain) {m : Nat}
    (hstop : sv.turn (UInt32.ofNat sv.size) m = .stop) :
    (UInt32.ofNat sv.size).toNat ≤ m ∧ (sv.svtype = SVt_PVHV → sv.size ≤ m) := by
  have hle : (UInt32.ofNat sv.size).toNat ≤ sv.size := by
    rw [UInt32.toNat_ofNat']
    exact Nat.mod_le _ _
  cases sv with
  | array slots fetchsize =>
    constructor
    · by_contra hlt
      simp only [Referent.turn, Nat.not_le.mp hlt, if_true] at hstop
      split at hstop <;> cases hstop
    · intro h
      cases h
  | hash keys iterated =>
    obtain rfl : iterated = none := hplain
    have hsize : keys.length ≤ m := by
      by_contra hlt
      simp only [Referent.turn, Option.getD_none] at hstop
      rw [List.getElem?_eq_getElem (Nat.not_le.mp hlt)] at hstop
      cases hstop
    exact ⟨Nat.le_trans hle hsize, fun _ => hsize⟩
  | other svtype hav hhv => exact absurd hplain (by simp [Referent.Plain])

/-- As many slots were filled as the number says, all in the buffer. -/
def FilledInside (b : KeyBuffer) (number_of_keys : UInt32) (written : List Nat) : Prop :=
  number_of_keys.toNat = written.length ∧
    ∀ i ∈ written, i < b.strings.length ∧ i < b.lengths.length

theorem plain_filled {b : KeyBuffer} (h : b.Sound) {sv : Referent} (hplain : sv.Plain)
    (hfits : sv.FitsInto b) :
    ∃ b' number_of_keys written, prep_container b sv = .ready b' number_of_keys written ∧
      FilledInside b' number_of_keys written := by
  obtain ⟨hroomy, hsize⟩ := hfits
  obtain ⟨keys, hlength, hturn, hstop⟩ := plain_turns hplain hsize
  rw [hlength] at hroomy
  obtain ⟨b', hready, hsound, -, hroom, -⟩ := prep_container_of_turns h hlength hturn hstop hroomy
  refine ⟨b', _, _, hready, ?_, ?_⟩
  · rw [hlength, List.length_range]
  · intro i hi
    have hi := List.mem_range.mp hi
    have hstrings := hsound.strings
    have hlengths := hsound.lengths
    omega

theorem fits_of_filled {b b' : KeyBuffer} (h : b.Sound) {sv : Referent} (hplain : sv.Plain)
    {number_of_keys : UInt32} {written : List Nat}
    (hready : prep_container b sv = .ready b' number_of_keys written)
    (hfilled : number_of_keys.toNat = written.length) : sv.FitsInto b := by
  obtain ⟨rfl, b₁, hroom, -, m, rfl, hstop, hm⟩ := prep_container_ready hready
  obtain ⟨hnumber, hhash⟩ := le_of_plain_stop hplain hstop
  rw [List.length_range] at hfilled
  constructor
  · by_contra hnot
    rcases makeRoom_of_not_roomy h hnot with hnone | hsame
    · rw [hnone] at hroom
      cases hroom
    · rw [hsame] at hroom
      cases hroom
      apply hnot
      have := h.strings
      exact Or.inl (by omega)
  · intro htype
    have hlt := (UInt32.ofNat sv.size).toNat_lt
    have := hhash htype
    omega

/-! ## The checks -/

/-- Only an argument that is no reference is turned down as a destination. -/
theorem notHashref_iff (arg : PerlValue) : notHashref arg = true ↔ arg.referent = none := by
  unfold notHashref
  cases arg.referent with
  | none => simp
  | some sv =>
    have hne : lnot sv.svtype ≠ SVt_PVHV := by
      unfold lnot
      split_ifs <;> decide
    simp [hne]

theorem prep_keys_lengths_refused (b : KeyBuffer) {arg : PerlValue} (h : arg.RefusedKeys) :
    prep_keys_lengths b arg = .no_key_provided := by
  unfold prep_keys_lengths
  rcases hsv : arg.referent with _ | sv
  · rfl
  · rcases h with h | h | ⟨sv', h, hav, hhv⟩
    · rw [h] at hsv
      cases hsv
    · simp only [h, if_true]
    · rw [h] at hsv
      cases hsv
      simp only [hav, hhv, or_self, if_false, ite_self]

theorem prep_keys_lengths_taken (b : KeyBuffer) {arg : PerlValue} (h : ¬ arg.RefusedKeys) :
    ∃ sv, arg.referent = some sv ∧ prep_keys_lengths b arg = prep_container b sv := by
  unfold PerlValue.RefusedKeys at h
  simp only [not_or, not_exists, not_and, Decidable.not_not] at h
  obtain ⟨hreferent, hmagical, htype⟩ := h
  obtain ⟨sv, hsv⟩ := Option.ne_none_iff_exists'.mp hreferent
  have hcontainer : sv.svtype = SVt_PVAV ∨ sv.svtype = SVt_PVHV := by
    by_cases hav : sv.svtype = SVt_PVAV
    · exact Or.inl hav
    · exact Or.inr (htype sv hsv hav)
  refine ⟨sv, hsv, ?_⟩
  unfold prep_keys_lengths
  simp only [hsv, hmagical, Bool.false_eq_true, if_false, hcontainer, if_true]

theorem prep_container_ne_no_key_provided (b : KeyBuffer) (sv : Referent) :
    prep_container b sv ≠ .no_key_provided := by
  unfold prep_container
  dsimp only
  split
  · simp
  · split <;> simp

/-- A request of a call whose destination, if it has one, is a reference. -/
theorem prepareAndSend_proper_iff (net : Network n) (state : lmc_state_st n) {b : KeyBuffer}
    (h : b.Sound) (master_key : Option Bytes) (call : ArgCall) :
    (prepareAndSend net state b master_key call.keysArg).Proper call state b ↔
      call.keysArg.RefusedKeys ∨
        (call.Valid ∧ ∀ sv, call.keysArg.referent = some sv → sv.FitsInto b) := by
  unfold prepareAndSend
  by_cases hrefused : call.keysArg.RefusedKeys
  · rw [prep_keys_lengths_refused b hrefused]
    exact ⟨fun _ => Or.inl hrefused, fun _ => ⟨rfl, rfl⟩⟩
  · obtain ⟨sv, hsv, hprep⟩ := prep_keys_lengths_taken b hrefused
    rw [hprep]
    constructor
    · intro hproper
      refine Or.inr ?_
      split at hproper
      · rename_i hready
        exact absurd hready (prep_container_ne_no_key_provided b sv)
      · exact absurd hproper (by simp [ArgRequest.Proper])
      · rename_i b' number_of_keys written hready
        obtain ⟨hvalid, hfilled, -⟩ := hproper
        refine ⟨hvalid, ?_⟩
        intro sv' hsv'
        obtain ⟨⟨sv'', hsv'', hplain⟩, -⟩ := hvalid
        rw [hsv] at hsv' hsv''
        cases hsv'
        cases hsv''
        exact fits_of_filled h hplain hready hfilled
    · intro hcondition
      obtain ⟨hvalid, hfits⟩ := hcondition.resolve_left hrefused
      obtain ⟨⟨sv', hsv', hplain⟩, -⟩ := id hvalid
      rw [hsv] at hsv'
      cases hsv'
      obtain ⟨b', number_of_keys, written, hready, hfilled⟩ := plain_filled h hplain (hfits sv hsv)
      rw [hready]
      exact ⟨hvalid, hfilled⟩

/-- On every buffer that calls leave, a call ends properly exactly when its
arguments are ones that the checks refuse, or when its keys are in a plain
array or hash that fits the buffer and its destination is a hash. -/
theorem a_request_is_proper_iff_its_arguments_are_refused_or_plain (net : Network n)
    (state : lmc_state_st n) {b : KeyBuffer} (h : Reached b) (call : ArgCall) :
    (call.request net state b).Proper call state b ↔
      call.Refused ∨ (call.Valid ∧ ∀ sv, call.keysArg.referent = some sv → sv.FitsInto b) := by
  cases call with
  | memcached_mget keys_rv =>
    have hproper := prepareAndSend_proper_iff net state h.sound none (.memcached_mget keys_rv)
    simpa [ArgCall.Refused, ArgCall.request, ArgCall.keysArg] using hproper
  | memcached_mget_by_key master_key keys_rv =>
    have hproper := prepareAndSend_proper_iff net state h.sound (some (SvPV master_key))
      (.memcached_mget_by_key master_key keys_rv)
    simpa [ArgCall.Refused, ArgCall.request, ArgCall.keysArg] using hproper
  | mget_into_hashref keys_ref dest_ref =>
    have hproper := prepareAndSend_proper_iff net state h.sound none
      (.mget_into_hashref keys_ref dest_ref)
    simp only [ArgCall.request]
    by_cases hdest : dest_ref.referent = none
    · rw [if_pos ((notHashref_iff dest_ref).mpr hdest)]
      exact ⟨fun _ => Or.inl (Or.inl ⟨keys_ref, dest_ref, rfl, hdest⟩), fun _ => ⟨rfl, rfl⟩⟩
    · rw [if_neg (mt (notHashref_iff dest_ref).mp hdest)]
      simpa [ArgCall.Refused, ArgCall.keysArg, hdest] using hproper

/-- The buffer that `get_multi` of one key leaves. -/
def bufferOfOne : KeyBuffer := ⟨some [some (keyB ++ [0])], some [some 1], 1⟩

theorem reached_bufferOfOne : Reached bufferOfOne := by
  have hready : prep_get_multi .new [some keyB] = .ready bufferOfOne 1 [0] := rfl
  exact .get_multi .new hready

/-- The theorem for keys in an array that the buffer has to grow for, with a
hash to fetch into. -/
theorem more_keys_than_before_are_proper :
    Reached bufferOfOne ∧
      (ArgCall.request (textHosts pairStores false (fun _ => true)) pairState bufferOfOne
        (.mget_into_hashref ⟨false, some (.array [some (some keyA), some (some keyB)] none)⟩
          ⟨false, some (.hash [] none)⟩)).Proper
        (.mget_into_hashref ⟨false, some (.array [some (some keyA), some (some keyB)] none)⟩
          ⟨false, some (.hash [] none)⟩) pairState bufferOfOne := by
  refine ⟨reached_bufferOfOne, ?_⟩
  apply (a_request_is_proper_iff_its_arguments_are_refused_or_plain _ _ reached_bufferOfOne _).mpr
  refine Or.inr ⟨⟨⟨_, rfl, rfl, by simp⟩, _, rfl, rfl⟩, ?_⟩
  rintro sv hsv
  cases hsv
  refine ⟨bufferOfOne.roomy_of_lt (by decide), ?_⟩
  intro h
  cases h

/-- A reference to an array is taken as the destination, and the request
sent. -/
theorem an_array_as_destination_is_not_proper :
    ¬ (ArgCall.request (textHosts pairStores false (fun _ => true)) pairState .new
      (.mget_into_hashref ⟨false, some (.array [some (some keyA)] none)⟩
        ⟨false, some (.array [] none)⟩)).Proper
      (.mget_into_hashref ⟨false, some (.array [some (some keyA)] none)⟩
        ⟨false, some (.array [] none)⟩) pairState .new := by
  rintro ⟨⟨-, sv, hsv, htype⟩, -⟩
  cases hsv
  cases htype

end Libmemcached
