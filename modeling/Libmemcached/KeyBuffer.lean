-- The buffer for the keys of a multi-key call, which grows and is used again
-- by the later calls on its handle (libmemcached.xs).
import Libmemcached.Callbacks
import Libmemcached.Lib.Rounding

open Chunks Rounding

namespace Libmemcached

open memcached_return_t

/-! ## The buffer -/

/-- The part of `lmc_cb_context_st` with the current set of keys. NULL is
`none`, and so is a slot that was never written. A slot of `key_strings` is
the string that starts there. -/
structure KeyBuffer where
  key_strings : Option (List (Option Bytes))
  key_lengths : Option (List (Option Nat))
  key_alloc_count : Int
deriving DecidableEq

namespace KeyBuffer

/-- The state after `lmc_state_new`. -/
def new : KeyBuffer := ⟨none, none, 0⟩

def strings (b : KeyBuffer) : List (Option Bytes) := b.key_strings.getD []

def lengths (b : KeyBuffer) : List (Option Nat) := b.key_lengths.getD []

/-- Write one key and its length, `none` past the end of an array. The string
of an SV ends with a zero byte. -/
def store (b : KeyBuffer) (i : Nat) (key : Bytes) : Option KeyBuffer :=
  if i < b.strings.length ∧ i < b.lengths.length then
    some { b with
      key_strings := some (b.strings.set i (some (key ++ [0])))
      key_lengths := some (b.lengths.set i (some key.length)) }
  else none

def slot (b : KeyBuffer) (i : Nat) : Option Bytes :=
  match b.strings[i]?, b.lengths[i]? with
  | some (some string), some (some length) => some (string.take length)
  | _, _ => none

/-- The keys that `memcached_mget` reads when it is handed this number. -/
def handed (b : KeyBuffer) (number_of_keys : Nat) : List (Option Bytes) :=
  (List.range number_of_keys).map b.slot

/-- Both arrays have the slots that the count says. -/
structure Sound (b : KeyBuffer) : Prop where
  strings : b.key_alloc_count = b.strings.length
  lengths : b.key_alloc_count = b.lengths.length

end KeyBuffer

/-- `Newx`. -/
def newx {α : Type} (n : Nat) : List (Option α) := List.replicate n none

/-- `Renew`. -/
def renew {α : Type} (slots : List (Option α)) (n : Nat) : List (Option α) :=
  slots.take n ++ List.replicate (n - slots.length) none

/-- `keys_needed *= 1.2`: the product with the double next to 1.2, rounded to
a double and cut off. -/
def timesOnePointTwo (keys_needed : Nat) : Nat :=
  roundTo 53 (keys_needed * 5404319552844595) / 2 ^ 52

/-- An `unsigned int` passed as an `int`. -/
def intOfUnsigned (n : UInt32) : Int := n.toBitVec.toInt

/-- `_prep_keys_buffer`. A product that does not fit an `int` has no defined
value, and gives `none`. -/
def prep_keys_buffer (b : KeyBuffer) (keys_needed : Int) : Option KeyBuffer :=
  if keys_needed ≤ b.key_alloc_count then some b
  else if b.key_strings = none then
    some ⟨some (newx keys_needed.toNat), some (newx keys_needed.toNat), keys_needed⟩
  else
    let keys_needed := timesOnePointTwo keys_needed.toNat
    if keys_needed < 2 ^ 31 then
      some ⟨some (renew b.strings keys_needed), some (renew b.lengths keys_needed), keys_needed⟩
    else none

def makeRoom (b : KeyBuffer) (number_of_keys : UInt32) : Option KeyBuffer :=
  if b.key_alloc_count < number_of_keys.toNat then
    prep_keys_buffer b (intOfUnsigned number_of_keys)
  else some b

/-! ## Filling it -/

/-- What the next turn of a loop over a container finds. -/
inductive Turn
  | key (key : Bytes)
  | stop
  | fault

/-- How filling ends: with the indices that were written, or by an access to
memory that is not there. -/
inductive Filled
  | done (b : KeyBuffer) (written : List Nat)
  | faulted

/-- The loops of `_prep_keys_lengths`, from slot `i` on. A turn that goes on
fills a slot, so the slots bound the turns. -/
def fillUp (turn : Nat → Turn) : Nat → KeyBuffer → Nat → Filled
  | 0, _, _ => .faulted
  | fuel + 1, b, i =>
    match turn i with
    | .stop => .done b (List.range i)
    | .fault => .faulted
    | .key key =>
      match b.store i key with
      | some b => fillUp turn fuel b (i + 1)
      | none => .faulted

/-- The loop of `get_multi`, from the last argument down. -/
def fillDown (svs : List SV) : Nat → KeyBuffer → List Nat → Filled
  | 0, b, written => .done b written
  | items + 1, b, written =>
    match b.store items (SvPV (svs.getD items none)) with
    | some b => fillDown svs items b (written ++ [items])
    | none => .faulted

/-! ## The arguments -/

def SVt_PVAV : Nat := 11
def SVt_PVHV : Nat := 12

/-- What a reference refers to. The slots of an array are NULL where nothing
was assigned; a tied array has a FETCHSIZE, and a tied hash the keys that its
FIRSTKEY and NEXTKEY give. -/
inductive Referent
  | array (slots : List (Option SV)) (fetchsize : Option Nat)
  | hash (keys : List Bytes) (iterated : Option (Nat → Option Bytes))
  | other (svtype : Nat) (hav : svtype ≠ SVt_PVAV) (hhv : svtype ≠ SVt_PVHV)

/-- A Perl value: whether it is magical itself, and what it refers to if it
is a reference. -/
structure PerlValue where
  magical : Bool
  referent : Option Referent

namespace Referent

def svtype : Referent → Nat
  | .array _ _ => SVt_PVAV
  | .hash _ _ => SVt_PVHV
  | .other svtype _ _ => svtype

/-- `AvFILL + 1` and `HvKEYS`: of a tied array what the tie says, of a tied
hash what is in the hash behind it. -/
def size : Referent → Nat
  | .array slots fetchsize => fetchsize.getD slots.length
  | .hash keys _ => keys.length
  | .other _ _ _ => 0

def turn (number_of_keys : UInt32) : Referent → Nat → Turn
  | .array slots _, i =>
    if i < number_of_keys.toNat then
      match slots[i]? with
      | some (some sv) => .key (SvPV sv)
      | _ => .fault
    else .stop
  | .hash keys iterated, i =>
    match iterated.getD (fun i => keys[i]?) i with
    | some key => .key key
    | none => .stop
  | .other _ _ _, _ => .stop

end Referent

/-- What `_prep_keys_lengths` gives: MEMCACHED_NO_KEY_PROVIDED, or the number
of keys for `memcached_mget` with the buffer they are in. -/
inductive Prepared
  | no_key_provided
  | ready (b : KeyBuffer) (number_of_keys : UInt32) (written : List Nat)
  | faulted

/-- Make room for the keys of a container, and fill it. -/
def prep_container (b : KeyBuffer) (keys_sv : Referent) : Prepared :=
  let number_of_keys := UInt32.ofNat keys_sv.size
  match makeRoom b number_of_keys with
  | none => .faulted
  | some b =>
    match fillUp (keys_sv.turn number_of_keys) (b.strings.length + 1) b 0 with
    | .done b written => .ready b number_of_keys written
    | .faulted => .faulted

/-- `_prep_keys_lengths`. The magic it looks at is that of the reference. -/
def prep_keys_lengths (b : KeyBuffer) (keys_rv : PerlValue) : Prepared :=
  match keys_rv.referent with
  | none => .no_key_provided
  | some keys_sv =>
    if keys_rv.magical then .no_key_provided
    else if keys_sv.svtype = SVt_PVAV ∨ keys_sv.svtype = SVt_PVHV then prep_container b keys_sv
    else .no_key_provided

def prep_get_multi (b : KeyBuffer) (svs : List SV) : Prepared :=
  let number_of_keys := UInt32.ofNat svs.length
  match makeRoom b number_of_keys with
  | none => .faulted
  | some b =>
    match fillDown svs svs.length b [] with
    | .done b written => .ready b number_of_keys written
    | .faulted => .faulted

/-! ## Room -/

theorem le_timesOnePointTwo {n : Nat} (h : n < 2 ^ 31) : n ≤ timesOnePointTwo n := by
  have hbits : n < 2 ^ 53 := by omega
  have hlow : n * 2 ^ 52 ≤ roundTo 53 (n * 5404319552844595) := by
    apply le_roundTo (by omega) (representable_mul_two_pow hbits 52)
    apply Nat.mul_le_mul_left
    omega
  unfold timesOnePointTwo
  exact (Nat.le_div_iff_mul_le (Nat.two_pow_pos 52)).mpr hlow

theorem timesOnePointTwo_lt {n : Nat} (h : 6 * n / 5 < 2 ^ 31) : timesOnePointTwo n < 2 ^ 31 := by
  have hbits : 2 ^ 53 - 1 < 2 ^ 53 := by omega
  have hhigh : roundTo 53 (n * 5404319552844595) ≤ (2 ^ 53 - 1) * 2 ^ 30 := by
    apply roundTo_le (by omega) (representable_mul_two_pow hbits 30)
    omega
  unfold timesOnePointTwo
  omega

theorem toNat_ofNat_of_lt {n : Nat} (h : n < 2 ^ 31) : (UInt32.ofNat n).toNat = n := by
  rw [UInt32.toNat_ofNat']
  exact Nat.mod_eq_of_lt (by omega)

theorem intOfUnsigned_of_lt {n : UInt32} (h : n.toNat < 2 ^ 31) : intOfUnsigned n = n.toNat := by
  unfold intOfUnsigned
  rw [BitVec.toInt_eq_toNat_of_lt]
  · rfl
  · rw [UInt32.toNat_toBitVec]
    omega

theorem renew_length {α : Type} (slots : List (Option α)) (n : Nat) : (renew slots n).length = n := by
  unfold renew
  rw [List.length_append, List.length_take, List.length_replicate]
  omega

namespace KeyBuffer

theorem sound_new : new.Sound := ⟨rfl, rfl⟩

theorem sound_newx (n : Nat) : Sound ⟨some (newx n), some (newx n), n⟩ := by
  constructor
  · simp only [strings, newx, Option.getD_some, List.length_replicate]
  · simp only [lengths, newx, Option.getD_some, List.length_replicate]

theorem sound_renew (b : KeyBuffer) (n : Nat) :
    Sound ⟨some (renew b.strings n), some (renew b.lengths n), n⟩ := by
  constructor
  · simp only [strings, Option.getD_some, renew_length]
  · simp only [lengths, Option.getD_some, renew_length]

/-- The number of keys fits the buffer, or fits it once it has grown. -/
def Roomy (b : KeyBuffer) (n : Nat) : Prop :=
  n ≤ b.key_alloc_count ∨ (n < 2 ^ 31 ∧ (b.key_strings = none ∨ timesOnePointTwo n < 2 ^ 31))

theorem roomy_of_lt (b : KeyBuffer) {n : Nat} (h : 6 * n / 5 < 2 ^ 31) : b.Roomy n :=
  Or.inr ⟨by omega, Or.inr (timesOnePointTwo_lt h)⟩

theorem prep_keys_buffer_spec {b : KeyBuffer} {n : Nat} (hroom : b.key_alloc_count < n)
    (hn : n < 2 ^ 31) (hfits : b.key_strings = none ∨ timesOnePointTwo n < 2 ^ 31) :
    ∃ b', prep_keys_buffer b n = some b' ∧ b'.Sound ∧ n ≤ b'.key_alloc_count := by
  have hgrows := le_timesOnePointTwo hn
  unfold prep_keys_buffer
  rw [if_neg (Int.not_le.mpr hroom), Int.toNat_natCast]
  generalize timesOnePointTwo n = grown at hgrows hfits ⊢
  by_cases hnull : b.key_strings = none
  · rw [if_pos hnull]
    exact ⟨_, rfl, sound_newx n, Int.le_refl _⟩
  · rw [if_neg hnull]
    dsimp only
    rw [if_pos (hfits.resolve_left hnull)]
    exact ⟨_, rfl, sound_renew b grown, Int.ofNat_le.mpr hgrows⟩

theorem makeRoom_spec {b : KeyBuffer} (h : b.Sound) {n : UInt32} (hn : b.Roomy n.toNat) :
    ∃ b', makeRoom b n = some b' ∧ b'.Sound ∧
      b.key_alloc_count ≤ b'.key_alloc_count ∧ n.toNat ≤ b'.key_alloc_count := by
  unfold makeRoom
  by_cases hroom : b.key_alloc_count < n.toNat
  · obtain ⟨hsmall, hfits⟩ := hn.resolve_left (Int.not_le.mpr hroom)
    obtain ⟨b', hprep, hsound, hle⟩ := prep_keys_buffer_spec hroom hsmall hfits
    rw [if_pos hroom, intOfUnsigned_of_lt hsmall]
    exact ⟨b', hprep, hsound, Int.le_trans (Int.le_of_lt hroom) hle, hle⟩
  · rw [if_neg hroom]
    exact ⟨b, rfl, h, Int.le_refl _, Int.not_lt.mp hroom⟩

/-! ## The loops -/

structure Stored (b : KeyBuffer) (i : Nat) (key : Bytes) (b' : KeyBuffer) : Prop where
  sound : b'.Sound
  count : b'.key_alloc_count = b.key_alloc_count
  here : b'.slot i = some key
  elsewhere : ∀ j, j ≠ i → b'.slot j = b.slot j

theorem store_spec {b : KeyBuffer} (h : b.Sound) {i : Nat} (hi : i < b.key_alloc_count)
    (key : Bytes) : ∃ b', b.store i key = some b' ∧ Stored b i key b' := by
  have hstrings : i < b.strings.length := by have := h.strings; omega
  have hlengths : i < b.lengths.length := by have := h.lengths; omega
  unfold store
  rw [if_pos ⟨hstrings, hlengths⟩]
  refine ⟨_, rfl, ⟨?_, ?_⟩, rfl, ?_, ?_⟩
  · simpa [strings] using h.strings
  · simpa [lengths] using h.lengths
  · unfold slot
    simp only [strings, lengths, Option.getD_some] at hstrings hlengths ⊢
    rw [List.getElem?_set_self hstrings, List.getElem?_set_self hlengths]
    simp only [List.take_left]
  · intro j hj
    unfold slot
    simp only [strings, lengths, Option.getD_some]
    rw [List.getElem?_set_ne (Ne.symm hj), List.getElem?_set_ne (Ne.symm hj)]

/-- The slots below `n` hold the first `n` of the keys. -/
def HoldsBelow (b : KeyBuffer) (keys : List Bytes) (n : Nat) : Prop :=
  ∀ j, j < n → b.slot j = keys[j]?

theorem handed_of_holds {b : KeyBuffer} {keys : List Bytes} (h : b.HoldsBelow keys keys.length) :
    b.handed keys.length = keys.map some := by
  unfold handed
  apply List.ext_getElem?
  intro j
  rw [List.getElem?_map, List.getElem?_map]
  by_cases hj : j < keys.length
  · rw [List.getElem?_range hj, List.getElem?_eq_getElem hj]
    simp only [Option.map_some, h j hj, List.getElem?_eq_getElem hj]
  · rw [List.getElem?_eq_none (by simpa using hj), List.getElem?_eq_none (by omega)]
    rfl

theorem fillUp_spec {turn : Nat → Turn} {keys : List Bytes}
    (hturn : ∀ i key, keys[i]? = some key → turn i = .key key) (hstop : turn keys.length = .stop)
    (fuel : Nat) {b : KeyBuffer} (h : b.Sound) (hroom : keys.length ≤ b.key_alloc_count) {i : Nat}
    (hi : i ≤ keys.length) (hfuel : keys.length < fuel + i) (hbelow : b.HoldsBelow keys i) :
    ∃ b', fillUp turn fuel b i = .done b' (List.range keys.length) ∧ b'.Sound ∧
      b'.key_alloc_count = b.key_alloc_count ∧ b'.HoldsBelow keys keys.length := by
  induction fuel generalizing b i with
  | zero => omega
  | succ fuel ih =>
    rw [fillUp]
    rcases Nat.lt_or_ge i keys.length with hlt | hge
    · have hkey : keys[i]? = some keys[i] := List.getElem?_eq_getElem hlt
      rw [hturn i _ hkey]
      obtain ⟨b₁, hstore, hstored⟩ := store_spec h (show (i : Int) < _ by omega) keys[i]
      simp only [hstore]
      have hbelow₁ : b₁.HoldsBelow keys (i + 1) := by
        intro j hj
        by_cases hji : j = i
        · rw [hji, hstored.here, hkey]
        · rw [hstored.elsewhere j hji]
          exact hbelow j (by omega)
      have hrest := ih hstored.sound (by rw [hstored.count]; exact hroom) hlt (by omega) hbelow₁
      rw [hstored.count] at hrest
      exact hrest
    · obtain rfl : i = keys.length := by omega
      rw [hstop]
      exact ⟨b, rfl, h, rfl, hbelow⟩

theorem fillDown_spec (svs : List SV) (items : Nat) {b : KeyBuffer} (h : b.Sound)
    (hroom : svs.length ≤ b.key_alloc_count) (hitems : items ≤ svs.length) (written : List Nat)
    (hwritten : ∀ i ∈ written, i < svs.length)
    (habove : ∀ j, items ≤ j → j < svs.length → b.slot j = (svs.map SvPV)[j]?) :
    ∃ b' written', fillDown svs items b written = .done b' written' ∧ b'.Sound ∧
      b'.key_alloc_count = b.key_alloc_count ∧ (∀ i ∈ written', i < svs.length) ∧
      b'.HoldsBelow (svs.map SvPV) svs.length := by
  induction items generalizing b written with
  | zero => exact ⟨b, written, rfl, h, rfl, hwritten, fun j hj => habove j (Nat.zero_le j) hj⟩
  | succ items ih =>
    rw [fillDown]
    obtain ⟨b₁, hstore, hstored⟩ := store_spec h (show (items : Int) < _ by omega)
      (SvPV (svs.getD items none))
    simp only [hstore]
    have hwritten₁ : ∀ i ∈ written ++ [items], i < svs.length := by
      intro i hi
      rcases List.mem_append.mp hi with hi | hi
      · exact hwritten i hi
      · rw [List.mem_singleton.mp hi]
        exact hitems
    have habove₁ : ∀ j, items ≤ j → j < svs.length → b₁.slot j = (svs.map SvPV)[j]? := by
      intro j hj hlt
      by_cases hji : j = items
      · rw [hji, hstored.here, List.getElem?_map, List.getD_eq_getElem?_getD,
          List.getElem?_eq_getElem hitems]
        rfl
      · rw [hstored.elsewhere j hji]
        exact habove j (by omega) hlt
    have hrest := ih hstored.sound (by rw [hstored.count]; exact hroom) (by omega) _ hwritten₁
      habove₁
    rw [hstored.count] at hrest
    exact hrest

end KeyBuffer

/-! ## The calls -/

/-- A plain array with every slot filled, or a plain hash. -/
inductive PlainKeys
  | array (svs : List SV)
  | hash (keys : List Bytes) (distinct : keys.Nodup)

namespace PlainKeys

/-- The keys: the strings of the array in its order, or each key of the hash
once. -/
def keys : PlainKeys → List Bytes
  | .array svs => svs.map SvPV
  | .hash keys _ => keys

def referent : PlainKeys → Referent
  | .array svs => .array (svs.map some) none
  | .hash keys _ => .hash keys none

def value (collection : PlainKeys) : PerlValue := ⟨false, some collection.referent⟩

theorem referent_size (collection : PlainKeys) :
    collection.referent.size = collection.keys.length := by
  cases collection with
  | array svs => simp only [referent, Referent.size, keys, Option.getD_none, List.length_map]
  | hash keys distinct => rfl

theorem referent_turn (collection : PlainKeys) {n : UInt32}
    (hn : n.toNat = collection.keys.length) :
    (∀ i key, collection.keys[i]? = some key → collection.referent.turn n i = .key key) ∧
      collection.referent.turn n collection.keys.length = .stop := by
  cases collection with
  | array svs =>
    constructor
    · intro i key hkey
      simp only [keys, List.getElem?_map, Option.map_eq_some_iff] at hkey
      obtain ⟨sv, hsv, rfl⟩ := hkey
      have hlt : i < n.toNat := by
        obtain ⟨hlt, -⟩ := List.getElem?_eq_some_iff.mp hsv
        rw [hn, keys, List.length_map]
        exact hlt
      simp only [referent, Referent.turn, hlt, if_true, List.getElem?_map, hsv, Option.map_some]
    · simp only [referent, Referent.turn, hn, Nat.lt_irrefl, if_false]
  | hash keys distinct =>
    constructor
    · intro i key hkey
      simp only [PlainKeys.keys] at hkey
      simp only [referent, Referent.turn, Option.getD_none, hkey]
    · simp only [referent, Referent.turn, Option.getD_none, PlainKeys.keys]
      rw [List.getElem?_eq_none (Nat.le_refl _)]

end PlainKeys

/-- The calls that use the buffer. -/
inductive MultiCall
  | get_multi (svs : List SV)
  | memcached_mget (keys : PlainKeys)
  | memcached_mget_by_key (master_key : SV) (keys : PlainKeys)
  | mget_into_hashref (keys : PlainKeys) (dest_ref : HV)

namespace MultiCall

def keys : MultiCall → List Bytes
  | .get_multi svs => svs.map SvPV
  | .memcached_mget keys | .memcached_mget_by_key _ keys | .mget_into_hashref keys _ => keys.keys

/-- What the call does with the buffer before it sends the request. -/
def prepare (b : KeyBuffer) : MultiCall → Prepared
  | .get_multi svs => prep_get_multi b svs
  | .memcached_mget keys | .memcached_mget_by_key _ keys | .mget_into_hashref keys _ =>
    prep_keys_lengths b keys.value

def after (b : KeyBuffer) (call : MultiCall) : KeyBuffer :=
  match call.prepare b with
  | .ready b _ _ => b
  | .no_key_provided | .faulted => b

end MultiCall

/-- The call stays inside the buffer, which does not shrink, and hands exactly
its keys to `memcached_mget`. -/
def HandsOverItsKeys (b : KeyBuffer) (call : MultiCall) : Prop :=
  let b' := call.after b
  ∃ number_of_keys written, call.prepare b = .ready b' number_of_keys written ∧
    (∀ i ∈ written, (i : Int) < b'.key_alloc_count) ∧
    b'.key_alloc_count ≤ b'.strings.length ∧ b'.key_alloc_count ≤ b'.lengths.length ∧
    b.key_alloc_count ≤ b'.key_alloc_count ∧
    number_of_keys.toNat = call.keys.length ∧
    b'.handed number_of_keys.toNat = call.keys.map some

/-- `P` holds of every call of a sequence, and of the buffer before it. -/
def EveryCall (P : KeyBuffer → MultiCall → Prop) : KeyBuffer → List MultiCall → Prop
  | _, [] => True
  | b, call :: calls => P b call ∧ EveryCall P (call.after b) calls

theorem prep_container_of_turns {b : KeyBuffer} (h : b.Sound) {keys_sv : Referent}
    {keys : List Bytes} (hlength : (UInt32.ofNat keys_sv.size).toNat = keys.length)
    (hturn : ∀ i key, keys[i]? = some key →
      keys_sv.turn (UInt32.ofNat keys_sv.size) i = .key key)
    (hstop : keys_sv.turn (UInt32.ofNat keys_sv.size) keys.length = .stop)
    (hroomy : b.Roomy keys.length) :
    ∃ b', prep_container b keys_sv =
        .ready b' (UInt32.ofNat keys_sv.size) (List.range keys.length) ∧
      b'.Sound ∧ b.key_alloc_count ≤ b'.key_alloc_count ∧
      keys.length ≤ b'.key_alloc_count ∧ b'.HoldsBelow keys keys.length := by
  rw [← hlength] at hroomy
  obtain ⟨b₁, hroom, hsound, hgrows, hle⟩ := KeyBuffer.makeRoom_spec h hroomy
  rw [hlength] at hle
  have hfuel : keys.length < b₁.strings.length + 1 := by
    have := hsound.strings
    omega
  obtain ⟨b₂, hfill, hsound₂, hcount, hholds⟩ := KeyBuffer.fillUp_spec hturn hstop _ hsound hle
    (Nat.zero_le _) hfuel (fun j hj => absurd hj (Nat.not_lt_zero j))
  refine ⟨b₂, ?_, hsound₂, by omega, by omega, hholds⟩
  unfold prep_container
  simp only [hroom, hfill]

theorem prep_container_spec {b : KeyBuffer} (h : b.Sound) (collection : PlainKeys)
    (hn : 6 * collection.keys.length / 5 < 2 ^ 31) :
    ∃ b', prep_container b collection.referent =
        .ready b' (UInt32.ofNat collection.keys.length) (List.range collection.keys.length) ∧
      b'.Sound ∧ b.key_alloc_count ≤ b'.key_alloc_count ∧
      collection.keys.length ≤ b'.key_alloc_count ∧
      b'.HoldsBelow collection.keys collection.keys.length := by
  have hlength : (UInt32.ofNat collection.referent.size).toNat = collection.keys.length := by
    rw [collection.referent_size]
    exact toNat_ofNat_of_lt (by omega)
  obtain ⟨hturn, hstop⟩ := collection.referent_turn hlength
  have hprep := prep_container_of_turns h hlength hturn hstop (b.roomy_of_lt hn)
  rw [collection.referent_size] at hprep
  exact hprep

theorem prep_get_multi_spec {b : KeyBuffer} (h : b.Sound) (svs : List SV)
    (hn : 6 * svs.length / 5 < 2 ^ 31) :
    ∃ b' written, prep_get_multi b svs = .ready b' (UInt32.ofNat svs.length) written ∧
      b'.Sound ∧ b.key_alloc_count ≤ b'.key_alloc_count ∧ svs.length ≤ b'.key_alloc_count ∧
      (∀ i ∈ written, i < svs.length) ∧ b'.HoldsBelow (svs.map SvPV) svs.length := by
  have hnat : (UInt32.ofNat svs.length).toNat = svs.length := toNat_ofNat_of_lt (by omega)
  obtain ⟨b₁, hroom, hsound, hgrows, hle⟩ := KeyBuffer.makeRoom_spec h
    (n := UInt32.ofNat svs.length) (by rw [hnat]; exact b.roomy_of_lt hn)
  rw [hnat] at hle
  obtain ⟨b₂, written, hfill, hsound₂, hcount, hwritten, hholds⟩ :=
    KeyBuffer.fillDown_spec svs svs.length hsound hle (Nat.le_refl _) [] (by simp)
      (fun j hj hlt => by omega)
  refine ⟨b₂, written, ?_, hsound₂, by omega, by omega, hwritten, hholds⟩
  unfold prep_get_multi
  simp only [hroom, hfill]

theorem handsOver_of_ready {b b' : KeyBuffer} {call : MultiCall} {written : List Nat}
    (hn : call.keys.length < 2 ^ 31)
    (hready : call.prepare b = .ready b' (UInt32.ofNat call.keys.length) written)
    (hsound : b'.Sound) (hgrows : b.key_alloc_count ≤ b'.key_alloc_count)
    (hroom : call.keys.length ≤ b'.key_alloc_count)
    (hwritten : ∀ i ∈ written, i < call.keys.length)
    (hholds : b'.HoldsBelow call.keys call.keys.length) :
    HandsOverItsKeys b call ∧ (call.after b).Sound := by
  have hnat := toNat_ofNat_of_lt hn
  have hafter : call.after b = b' := by
    unfold MultiCall.after
    rw [hready]
  unfold HandsOverItsKeys
  rw [hafter]
  constructor
  · refine ⟨_, written, hready, ?_, ?_, ?_, hgrows, hnat, ?_⟩
    · intro i hi
      have := hwritten i hi
      omega
    · exact Int.le_of_eq hsound.strings
    · exact Int.le_of_eq hsound.lengths
    · rw [hnat]
      exact KeyBuffer.handed_of_holds hholds
  · exact hsound

theorem call_spec {b : KeyBuffer} (h : b.Sound) (call : MultiCall)
    (hn : 6 * call.keys.length / 5 < 2 ^ 31) :
    HandsOverItsKeys b call ∧ (call.after b).Sound := by
  have hsmall : call.keys.length < 2 ^ 31 := by omega
  -- the three calls with a collection differ only in what they do afterwards
  have hcollection : ∀ collection : PlainKeys, call.keys = collection.keys →
      call.prepare b = prep_container b collection.referent →
      HandsOverItsKeys b call ∧ (call.after b).Sound := by
    intro collection hkeys hprepare
    rw [hkeys] at hn
    obtain ⟨b', hready, hsound, hgrows, hle, hholds⟩ := prep_container_spec h collection hn
    rw [← hkeys] at hready hle hholds
    apply handsOver_of_ready hsmall (hprepare.trans hready) hsound hgrows hle _ hholds
    intro i hi
    exact List.mem_range.mp hi
  have hprep : ∀ keys : PlainKeys, prep_keys_lengths b keys.value = prep_container b keys.referent :=
    fun keys => by cases keys <;> rfl
  cases call with
  | get_multi svs =>
    have hlength : (MultiCall.get_multi svs).keys.length = svs.length := List.length_map _
    rw [hlength] at hn
    obtain ⟨b', written, hready, hsound, hgrows, hle, hwritten, hholds⟩ :=
      prep_get_multi_spec h svs hn
    rw [← hlength] at hready hle hwritten hholds
    exact handsOver_of_ready hsmall hready hsound hgrows hle hwritten hholds
  | memcached_mget keys => exact hcollection keys rfl (hprep keys)
  | memcached_mget_by_key master_key keys => exact hcollection keys rfl (hprep keys)
  | mget_into_hashref keys dest_ref => exact hcollection keys rfl (hprep keys)

/-- In every sequence of multi-key calls on one handle, each call writes below
the count of the buffer, which never decreases, and hands exactly its own keys
to `memcached_mget`. -/
theorem every_call_hands_over_exactly_its_keys (calls : List MultiCall)
    (h : ∀ call ∈ calls, 6 * call.keys.length / 5 < 2 ^ 31) :
    EveryCall HandsOverItsKeys .new calls := by
  have hrun : ∀ b : KeyBuffer, b.Sound → EveryCall HandsOverItsKeys b calls := by
    induction calls with
    | nil => intro _ _; trivial
    | cons call calls ih =>
      intro b hsound
      obtain ⟨hcall, hafter⟩ := call_spec hsound call (h call (List.mem_cons_self ..))
      exact ⟨hcall, ih (fun c hc => h c (List.mem_cons_of_mem _ hc)) _ hafter⟩
  exact hrun .new KeyBuffer.sound_new

/-- The theorem at a shrinking and a growing call. -/
theorem two_keys_then_one_then_three_are_handed_over :
    EveryCall HandsOverItsKeys .new
      [.get_multi [some [97], some [98]], .memcached_mget (.array [some [99]]),
        .mget_into_hashref (.hash [[97], [98], [99]] (by decide)) (fun _ => none)] :=
  every_call_hands_over_exactly_its_keys _ (by simp [MultiCall.keys, PlainKeys.keys])

end Libmemcached
