-- What a well-behaved host sends for a fetch: one block for each item, then
-- the end marker. The readers of Response.lean give back the items, in
-- order, and fail when the bytes stop before the end marker.
import Mathlib.Tactic.IntervalCases
import Libmemcached.Response

open Chunks Decimal

namespace Libmemcached

open memcached_return_t memcached_server_st

/-- An item as a host holds it. A host keeps the length in an `int`. -/
structure Item where
  flags : UInt32
  cas : UInt64
  value : Bytes
  fits : value.length + 2 < 2 ^ 31
deriving DecidableEq

/-- A byte that ends the key in a VALUE line. -/
def isDelimiter (c : UInt8) : Bool := iscntrl c || isspace c

/-- A key that both protocols carry unchanged: 1 to 250 bytes, none of them
white space or a control character. -/
structure ValidKey (key : Bytes) : Prop where
  nonempty : key ≠ []
  short : key.length < MEMCACHED_MAX_KEY
  clean : ∀ c ∈ key, isDelimiter c = false

instance (key : Bytes) : Decidable (ValidKey key) :=
  let _ := List.decidableBAll (fun c => isDelimiter c = false) key
  decidable_of_iff (key ≠ [] ∧ key.length < MEMCACHED_MAX_KEY ∧ ∀ c ∈ key, isDelimiter c = false)
    ⟨fun ⟨h1, h2, h3⟩ => ⟨h1, h2, h3⟩, fun ⟨h1, h2, h3⟩ => ⟨h1, h2, h3⟩⟩

/-- One result of a fetch: the key that the host names, and its item. -/
structure Reply where
  key : Bytes
  item : Item
deriving DecidableEq

/-! ## The bytes of a reply -/

/-- The VALUE line, without its last byte. The host names the cas when it was
asked with `gets`. -/
def valueLine (withCas : Bool) (r : Reply) : Bytes :=
  ascii ['V', 'A', 'L', 'U', 'E', ' '] ++ r.key ++ 32 :: decimal r.item.flags.toNat ++
    32 :: decimal r.item.value.length ++
    (if withCas then 32 :: decimal r.item.cas.toNat else []) ++ [13]

def renderText (withCas : Bool) (r : Reply) : Bytes :=
  valueLine withCas r ++ 10 :: (r.item.value ++ [13, 10])

def endText : Bytes := ascii ['E', 'N', 'D'] ++ [13, 10]

/-- The 24 bytes of a response header. -/
def renderHeader (opcode keylen extlen bodylen cas : Nat) : Bytes :=
  bigEndian 1 PROTOCOL_BINARY_RES ++ bigEndian 1 opcode ++ bigEndian 2 keylen ++
    bigEndian 1 extlen ++ [0] ++ bigEndian 2 0 ++ bigEndian 4 bodylen ++ [0, 0, 0, 0] ++
    bigEndian 8 cas

/-- A GETKQ response. -/
def renderBinary (r : Reply) : Bytes :=
  renderHeader PROTOCOL_BINARY_CMD_GETKQ r.key.length 4
    (4 + r.key.length + r.item.value.length) r.item.cas.toNat ++
  (bigEndian 4 r.item.flags.toNat ++ (r.key ++ r.item.value))

def endBinary : Bytes := renderHeader PROTOCOL_BINARY_CMD_NOOP 0 0 0 0

def render (withCas : Bool) : Protocol → Reply → Bytes
  | .text, r => renderText withCas r
  | .binary, r => renderBinary r

def renderEnd : Protocol → Bytes
  | .text => endText
  | .binary => endBinary

theorem render_length_pos (withCas : Bool) (p : Protocol) (r : Reply) :
    0 < (render withCas p r).length := by
  cases p <;> simp [render, renderText, renderBinary, renderHeader]

theorem renderEnd_length_pos (p : Protocol) : 0 < (renderEnd p).length := by
  cases p <;> simp [renderEnd, endText, endBinary, renderHeader]

/-- The result buffer after `r` was read into it. -/
def storeReply (withCas : Bool) : Protocol → memcached_result_st → Reply → memcached_result_st
  | .text, result, r =>
    ⟨r.item.flags, if withCas then r.item.cas else 0, r.key,
      { memcached_string_check (memcached_string_reset result.value) (r.item.value.length + 2) with
        bytes := r.item.value }⟩
  | .binary, result, r =>
    ⟨r.item.flags, r.item.cas, r.key,
      { memcached_string_check (memcached_string_reset result.value) r.item.value.length with
        bytes := r.item.value }⟩

/-! ## The parse of a VALUE line -/

theorem takeWhile_append_stop {p : UInt8 → Bool} (l : Bytes) (c : UInt8) (rest : Bytes)
    (h : ∀ x ∈ l, p x = true) (hc : p c = false) : (l ++ c :: rest).takeWhile p = l := by
  induction l with
  | nil => simp [hc]
  | cons x xs ih =>
    have hx := h x (by simp)
    simp [hx, ih (fun y hy => h y (by simp [hy]))]

theorem parseValueLine_value (withCas : Bool) (r : Reply)
    (hkey : ∀ c ∈ r.key, isDelimiter c = false) (zeros : Bytes) :
    parseValueLine (valueLine withCas r ++ 10 :: zeros) =
      some ⟨r.key, r.item.flags, r.item.value.length, if withCas then r.item.cas else 0⟩ := by
  have hlen : r.item.value.length < 2 ^ 64 := by have := r.item.fits; omega
  have hflags : r.item.flags.toNat < 2 ^ 64 := by have := r.item.flags.toNat_lt; omega
  have hcas : r.item.cas.toNat < 2 ^ 64 := r.item.cas.toNat_lt
  have hdrop : ∀ t : Bytes, (ascii ['V', 'A', 'L', 'U', 'E', ' '] ++ t).drop 6 = t := fun t => rfl
  have hstop : ∀ t : Bytes, (r.key ++ 32 :: t).takeWhile (fun c => !(iscntrl c || isspace c)) =
      r.key := fun t =>
    takeWhile_append_stop _ _ _ (fun x hx => by simpa [isDelimiter] using hkey x hx) (by decide)
  unfold parseValueLine valueLine
  cases withCas with
  | false =>
    simp only [Bool.false_eq_true, if_false, List.append_nil, List.append_assoc, List.cons_append,
      List.nil_append, hdrop, hstop, List.drop_left]
    rw [if_neg (by simp)]
    simp only [List.drop_succ_cons, List.drop_zero]
    rw [strtoull_decimal hflags 32 _ (by decide)]
    simp only
    rw [if_neg (by simp)]
    simp only [List.drop_succ_cons, List.drop_zero]
    rw [strtoull_decimal hlen 13 _ (by decide)]
    simp [byteAt]
  | true =>
    simp only [if_true, List.append_assoc, List.cons_append,
      List.nil_append, hdrop, hstop, List.drop_left]
    rw [if_neg (by simp)]
    simp only [List.drop_succ_cons, List.drop_zero]
    rw [strtoull_decimal hflags 32 _ (by decide)]
    simp only
    rw [if_neg (by simp)]
    simp only [List.drop_succ_cons, List.drop_zero]
    rw [strtoull_decimal hlen 32 _ (by decide)]
    simp only
    rw [if_neg (by simp)]
    simp only [byteAt, List.getD_cons_zero, List.drop_succ_cons, List.drop_zero]
    rw [if_neg (by decide), strtoull_decimal hcas 13 _ (by decide)]
    simp

/-! ## Reading a text reply -/

theorem isdigit_ne {c x : UInt8} (hc : isdigit c = true) (hx : isdigit x = false) : c ≠ x := by
  rintro rfl
  rw [hc] at hx
  exact absurd hx (by decide)

theorem valueLine_no_newline (withCas : Bool) (r : Reply)
    (hkey : ∀ c ∈ r.key, isDelimiter c = false) : ∀ c ∈ valueLine withCas r, c ≠ 10 := by
  intro c hc
  have hdec : ∀ m : Nat, c ∈ decimal m → c ≠ 10 := fun m hm =>
    isdigit_ne (decimal_digits m c hm) (by decide)
  have hk : c ∈ r.key → c ≠ 10 := fun hm => by
    rintro rfl
    exact absurd (hkey 10 hm) (by decide)
  have hlit : c ∈ ascii ['V', 'A', 'L', 'U', 'E', ' '] → c ≠ 10 := by
    simp only [ascii, List.map_cons, List.map_nil, List.mem_cons, List.not_mem_nil, or_false]
    rintro (h | h | h | h | h | h) <;> rw [h] <;> decide
  simp only [valueLine, List.mem_append, List.mem_cons, List.not_mem_nil, or_false] at hc
  rcases hc with ((((h | h) | h | h) | h | h) | h) | h
  · exact hlit h
  · exact hk h
  · rw [h]; decide
  · exact hdec _ h
  · rw [h]; decide
  · exact hdec _ h
  · split at h
    · rcases List.mem_cons.mp h with h | h
      · rw [h]; decide
      · exact hdec _ h
    · simp at h
  · rw [h]; decide

theorem valueLine_length (withCas : Bool) (r : Reply) (hkey : r.key.length < MEMCACHED_MAX_KEY) :
    (valueLine withCas r).length + 1 < MEMCACHED_DEFAULT_COMMAND_SIZE := by
  have h1 : (decimal r.item.flags.toNat).length ≤ 10 :=
    decimal_length (d := 9) (by have := r.item.flags.toNat_lt; omega)
  have h2 : (decimal r.item.value.length).length ≤ 10 :=
    decimal_length (d := 9) (by have := r.item.fits; omega)
  have h3 : (decimal r.item.cas.toNat).length ≤ 20 :=
    decimal_length (d := 19) (by have := r.item.cas.toNat_lt; omega)
  have h0 : (ascii ['V', 'A', 'L', 'U', 'E', ' ']).length = 6 := rfl
  simp only [MEMCACHED_MAX_KEY] at hkey
  simp only [valueLine, MEMCACHED_DEFAULT_COMMAND_SIZE, List.length_append, List.length_cons,
    List.length_nil, h0]
  cases withCas <;> simp <;> omega

theorem byteAt_lineBuffer {line : Bytes} {i : Nat} (h : i < line.length) :
    byteAt (lineBuffer line) i = byteAt line i := by
  simp only [byteAt, lineBuffer, List.getD_eq_getElem?_getD]
  rw [List.getElem?_append_left h]

theorem textual_read_reply (withCas : Bool) (ptr : memcached_server_st)
    (result : memcached_result_st) (r : Reply) (rest : Bytes) (hkey : ValidKey r.key)
    (h : ptr.input.bytes = renderText withCas r ++ rest) :
    ∃ input, textual_read_one_response ptr result =
        (SUCCESS, { ptr.response_increment with input }, storeReply withCas .text result r) ∧
      input.bytes = rest := by
  have hsplit : ptr.input.bytes =
      valueLine withCas r ++ 10 :: (r.item.value ++ 13 :: 10 :: rest) := by
    rw [h, renderText]; simp
  obtain ⟨j, hline, hj⟩ := readline_append ptr MEMCACHED_DEFAULT_COMMAND_SIZE _ _ hsplit
    (valueLine_no_newline withCas r hkey.clean) (valueLine_length withCas r hkey.short)
  -- the two letters that select the branch stand at the start of the line
  have hat : ∀ i < 2, byteAt (lineBuffer (valueLine withCas r ++ [10])) i =
      byteAt (ascii ['V', 'A']) i := by
    intro i hi
    rw [byteAt_lineBuffer (by simp [valueLine, ascii]; omega)]
    interval_cases i <;> rfl
  have hparse : parseValueLine (lineBuffer (valueLine withCas r ++ [10])) =
      some ⟨r.key, r.item.flags, r.item.value.length, if withCas then r.item.cas else 0⟩ := by
    rw [lineBuffer, List.append_assoc, List.singleton_append]
    exact parseValueLine_value withCas r hkey.clean _
  have hbody : ({ ptr with input := j }.response_increment).input.bytes =
      (r.item.value ++ [13, 10]) ++ rest := by
    simp [hj]
  obtain ⟨k, hread, hk⟩ := io_read_append _ _ _ hbody
  have hlen : (r.item.value ++ [13, 10]).length = r.item.value.length + 2 := by simp
  rw [hlen] at hread
  refine ⟨k, ?_, hk⟩
  simp only [textual_read_one_response, hline, textual_switch]
  rw [hat 0 (by omega), hat 1 (by omega), if_pos (by decide), if_pos (by decide)]
  simp only [textual_value_fetch, hparse, hread, storeReply, memcached_result_reset]
  rw [List.take_append_of_le_length (Nat.le_refl _), List.take_length]
  rfl

theorem textual_read_end (ptr : memcached_server_st) (result : memcached_result_st) (rest : Bytes)
    (h : ptr.input.bytes = endText ++ rest) :
    ∃ input, textual_read_one_response ptr result = (END, { ptr with input }, result) ∧
      input.bytes = rest := by
  have hsplit : ptr.input.bytes = [69, 78, 68, 13] ++ 10 :: rest := by rw [h]; rfl
  obtain ⟨j, hline, hj⟩ := readline_append ptr MEMCACHED_DEFAULT_COMMAND_SIZE _ _ hsplit
    (by simp) (by decide)
  refine ⟨j, ?_, hj⟩
  simp only [textual_read_one_response, hline, textual_switch]
  rfl

/-! ## Reading a binary reply -/

theorem parseHeader_renderHeader (opcode keylen extlen bodylen cas : Nat) (ho : opcode < 256)
    (hk : keylen < 2 ^ 16) (he : extlen < 256) (hb : bodylen < 2 ^ 32) (hc : cas < 2 ^ 64) :
    parseHeader (renderHeader opcode keylen extlen bodylen cas) =
      ⟨PROTOCOL_BINARY_RES, opcode, keylen, extlen, 0, bodylen, cas⟩ := by
  have field : ∀ w m : Nat, m < 256 ^ w → ofBigEndian (bigEndian w m) = m := ofBigEndian_bigEndian
  have hop : ofBigEndian (bigEndian 1 opcode) = opcode := field 1 _ (by omega)
  have hkl : ofBigEndian (bigEndian 2 keylen) = keylen := field 2 _ (by omega)
  have hel : ofBigEndian (bigEndian 1 extlen) = extlen := field 1 _ (by omega)
  have hbl : ofBigEndian (bigEndian 4 bodylen) = bodylen := field 4 _ (by omega)
  have hcl : ofBigEndian (bigEndian 8 cas) = cas := field 8 _ (by omega)
  calc parseHeader (renderHeader opcode keylen extlen bodylen cas)
      = ⟨PROTOCOL_BINARY_RES, ofBigEndian (bigEndian 1 opcode), ofBigEndian (bigEndian 2 keylen),
          ofBigEndian (bigEndian 1 extlen), 0, ofBigEndian (bigEndian 4 bodylen),
          ofBigEndian (bigEndian 8 cas)⟩ := rfl
    _ = _ := by rw [hop, hkl, hel, hbl, hcl]

theorem length_renderHeader (opcode keylen extlen bodylen cas : Nat) :
    (renderHeader opcode keylen extlen bodylen cas).length = 24 := by
  simp [renderHeader]

/-- The header of a GETKQ response, as it is read back. -/
theorem parseHeader_reply (r : Reply) (hkey : r.key.length < MEMCACHED_MAX_KEY) :
    parseHeader (renderHeader PROTOCOL_BINARY_CMD_GETKQ r.key.length 4
        (4 + r.key.length + r.item.value.length) r.item.cas.toNat) =
      ⟨PROTOCOL_BINARY_RES, PROTOCOL_BINARY_CMD_GETKQ, r.key.length, 4, 0,
        4 + r.key.length + r.item.value.length, r.item.cas.toNat⟩ := by
  have hfits := r.item.fits
  simp only [MEMCACHED_MAX_KEY] at hkey
  exact parseHeader_renderHeader _ _ _ _ _ (by decide) (by omega) (by omega) (by omega)
    r.item.cas.toNat_lt

/-- What is left of the body after the flags and the key is the value. -/
theorem bodylen_value (k v : Nat) (h : 4 + k + v < 2 ^ 32) :
    (UInt32.ofNat (4 + k + v) - UInt32.ofNat 4 - UInt32.ofNat k).toNat = v := by
  have h4 : (UInt32.ofNat (4 + k + v)) = UInt32.ofNat 4 + UInt32.ofNat k + UInt32.ofNat v := by
    rw [← UInt32.ofNat_add, ← UInt32.ofNat_add]
  have hsub : UInt32.ofNat (4 + k + v) - UInt32.ofNat 4 - UInt32.ofNat k = UInt32.ofNat v := by
    rw [h4]
    generalize UInt32.ofNat 4 = a
    generalize UInt32.ofNat k = b
    generalize UInt32.ofNat v = c
    rw [show a + b + c = a + (b + c) by rw [UInt32.add_assoc], UInt32.add_comm a (b + c),
      UInt32.add_sub_cancel, UInt32.add_comm b c, UInt32.add_sub_cancel]
  rw [hsub, UInt32.toNat_ofNat', Nat.mod_eq_of_lt (by omega)]

theorem binary_read_reply (fuel : Nat) (ptr : memcached_server_st) (buffer_length : Nat)
    (result : memcached_result_st) (r : Reply) (rest : Bytes) (hkey : ValidKey r.key)
    (h : ptr.input.bytes = renderBinary r ++ rest) :
    ∃ input, binary_read_one_response fuel ptr buffer_length result =
        (SUCCESS, { ptr.response_increment with input }, storeReply false .binary result r) ∧
      input.bytes = rest := by
  have hfits := r.item.fits
  have hshort := hkey.short
  simp only [MEMCACHED_MAX_KEY] at hshort
  have hflagsval : ofBigEndian (bigEndian 4 r.item.flags.toNat) = r.item.flags.toNat :=
    ofBigEndian_bigEndian 4 _ r.item.flags.toNat_lt
  -- the header, the flags, the key and the value come out one after the other
  have hsplit : ptr.input.bytes = renderHeader PROTOCOL_BINARY_CMD_GETKQ r.key.length 4
      (4 + r.key.length + r.item.value.length) r.item.cas.toNat ++
      (bigEndian 4 r.item.flags.toNat ++ (r.key ++ (r.item.value ++ rest))) := by
    rw [h, renderBinary]; simp only [List.append_assoc]
  obtain ⟨j1, hr1, hj1⟩ := io_read_append ptr _ _ hsplit
  obtain ⟨j2, hr2, hj2⟩ := io_read_append ({ ptr with input := j1 }.response_increment) _ _ hj1
  obtain ⟨j3, hr3, hj3⟩ := io_read_append ({ ptr.response_increment with input := j2 }) _ _ hj2
  obtain ⟨j4, hr4, hj4⟩ := io_read_append ({ ptr.response_increment with input := j3 }) _ _ hj3
  rw [length_renderHeader] at hr1
  rw [length_bigEndian] at hr2
  refine ⟨j4, ?_, hj4⟩
  have hitem : binary_read_item ({ ptr with input := j1 }.response_increment) result
      ⟨PROTOCOL_BINARY_RES, PROTOCOL_BINARY_CMD_GETKQ, r.key.length, 4, 0,
        4 + r.key.length + r.item.value.length, r.item.cas.toNat⟩ =
      (SUCCESS, { ptr.response_increment with input := j4 }, storeReply false .binary result r) := by
    simp only [response_increment] at hr2 hr3 hr4 ⊢
    simp only [binary_read_item, hr2, hr3, binary_read_value,
      bodylen_value r.key.length r.item.value.length (by omega), hr4, storeReply,
      memcached_result_reset, hflagsval, UInt32.ofNat_toNat, UInt64.ofNat_toNat]
  rw [binary_read_one_response]
  simp only [hr1, parseHeader_reply r hkey.short]
  rw [if_neg (by simp), if_pos (by simp), binary_read_success, if_pos rfl, hitem]
  rfl

theorem binary_read_end (fuel : Nat) (ptr : memcached_server_st) (buffer_length : Nat)
    (result : memcached_result_st) (rest : Bytes) (h : ptr.input.bytes = endBinary ++ rest) :
    ∃ input, binary_read_one_response fuel ptr buffer_length result =
        (END, { ptr with input }, result) ∧ input.bytes = rest := by
  obtain ⟨j, hr, hj⟩ := io_read_append ptr _ _ h
  have hlen : endBinary.length = 24 := length_renderHeader _ _ _ _ _
  have hheader : parseHeader endBinary =
      ⟨PROTOCOL_BINARY_RES, PROTOCOL_BINARY_CMD_NOOP, 0, 0, 0, 0, 0⟩ :=
    parseHeader_renderHeader _ _ _ _ _ (by decide) (by decide) (by decide) (by decide) (by decide)
  rw [hlen] at hr
  refine ⟨j, ?_, hj⟩
  rw [binary_read_one_response]
  simp only [hr, hheader]
  rw [if_neg (by simp), if_pos (by simp)]
  rfl

/-! ## Bytes that stop too early -/

/-- The bytes end before the next reply, or the end marker, is whole. -/
def Cut (withCas : Bool) (p : Protocol) (bytes : Bytes) : Prop :=
  ∃ more, more ≠ [] ∧
    ((∃ r, ValidKey r.key ∧ bytes ++ more = render withCas p r) ∨ bytes ++ more = renderEnd p)

/-- The codes of a read that failed. -/
def isReadError : memcached_return_t → Bool
  | UNKNOWN_READ_FAILURE | ERRNO | TIMEOUT | FAILURE => true
  | _ => false

theorem isReadError_fault (f : Fault) : isReadError f.code = true := by
  cases f <;> rfl

/-- A proper prefix of a line and a body stops in the line or in the body. -/
theorem prefix_cases {bytes more line body : Bytes} {c : UInt8} (hmore : more ≠ [])
    (h : bytes ++ more = line ++ c :: body) :
    (∃ t, line = bytes ++ t) ∨
      ∃ b, bytes = line ++ c :: b ∧ b.length < body.length := by
  rcases List.append_eq_append_iff.mp h with ⟨t, ht, -⟩ | ⟨t, ht, hc⟩
  · exact Or.inl ⟨t, ht⟩
  · rcases t with _ | ⟨d, b⟩
    · exact Or.inl ⟨[], by simpa using ht.symm⟩
    · simp only [List.cons_append, List.cons.injEq] at hc
      obtain ⟨rfl, hb⟩ := hc
      refine Or.inr ⟨b, ht, ?_⟩
      have := List.length_pos_iff.mpr hmore
      simp only [hb, List.length_append]
      omega

theorem textual_read_line_cut (ptr : memcached_server_st) (result : memcached_result_st)
    (line : Bytes) (hline : ∀ c ∈ line, c ≠ 10)
    (hsize : line.length < MEMCACHED_DEFAULT_COMMAND_SIZE) (t : Bytes)
    (h : line = ptr.input.bytes ++ t) :
    textual_read_one_response ptr result =
      (ptr.fault.code, memcached_quit_server ptr, result) := by
  obtain ⟨l, hl⟩ := readline_short ptr MEMCACHED_DEFAULT_COMMAND_SIZE
    (fun c hc => hline c (by rw [h]; exact List.mem_append_left _ hc))
    (by rw [h, List.length_append] at hsize; omega)
  rw [textual_read_one_response, hl]
  cases ptr.fault <;> rfl

theorem textual_read_cut (withCas : Bool) (ptr : memcached_server_st)
    (result : memcached_result_st) (h : Cut withCas .text ptr.input.bytes) :
    ∃ result', textual_read_one_response ptr result =
      (ptr.fault.code, memcached_quit_server ptr, result') := by
  obtain ⟨more, hmore, ⟨r, hkey, hr⟩ | hend⟩ := h
  · rcases prefix_cases hmore hr with ⟨t, ht⟩ | ⟨b, hb, hlt⟩
    · exact ⟨result, textual_read_line_cut ptr result _
        (valueLine_no_newline withCas r hkey.clean)
        (by have := valueLine_length withCas r hkey.short; omega) t ht⟩
    · obtain ⟨j, hline, hj⟩ := readline_append ptr MEMCACHED_DEFAULT_COMMAND_SIZE _ _ hb
        (valueLine_no_newline withCas r hkey.clean) (valueLine_length withCas r hkey.short)
      have hat : ∀ i < 2, byteAt (lineBuffer (valueLine withCas r ++ [10])) i =
          byteAt (ascii ['V', 'A']) i := by
        intro i hi
        rw [byteAt_lineBuffer (by simp [valueLine, ascii]; omega)]
        interval_cases i <;> rfl
      have hparse : parseValueLine (lineBuffer (valueLine withCas r ++ [10])) =
          some ⟨r.key, r.item.flags, r.item.value.length, if withCas then r.item.cas else 0⟩ := by
        rw [lineBuffer, List.append_assoc, List.singleton_append]
        exact parseValueLine_value withCas r hkey.clean _
      have hshort : ({ ptr with input := j }.response_increment).input.bytes.length <
          r.item.value.length + 2 := by
        simp only [response_increment_input, hj]
        simpa using hlt
      have hread := io_read_short _ _ hshort
      refine ⟨{ memcached_result_reset result with
        item_key := r.key
        item_flags := r.item.flags
        item_cas := if withCas then r.item.cas else 0
        value := memcached_string_check (memcached_string_reset result.value)
          (r.item.value.length + 2) }, ?_⟩
      simp only [textual_read_one_response, hline, textual_switch]
      rw [hat 0 (by omega), hat 1 (by omega), if_pos (by decide), if_pos (by decide)]
      simp only [textual_value_fetch, hparse, hread, memcached_result_reset]
      cases ptr.fault <;> simp [response_increment, Fault.code, memcached_quit_server]
  · have hsplit : ptr.input.bytes ++ more = [69, 78, 68, 13] ++ 10 :: [] := hend
    rcases prefix_cases hmore hsplit with ⟨t, ht⟩ | ⟨b, -, hlt⟩
    · exact ⟨result, textual_read_line_cut ptr result _ (by simp) (by decide) t ht⟩
    · simp at hlt

/-- The first of two parts is whole, or the bytes stop in it. -/
theorem part_cases {bytes more first second : Bytes}
    (h : bytes ++ more = first ++ second) :
    bytes.length < first.length ∨ ∃ b, bytes = first ++ b ∧ b ++ more = second := by
  rcases List.append_eq_append_iff.mp h with ⟨t, ht, -⟩ | ⟨t, ht, hc⟩
  · rcases t with _ | ⟨d, t⟩
    · have : bytes = first := by simpa using ht.symm
      exact Or.inr ⟨[], by simp [this], by simpa [this] using h⟩
    · exact Or.inl (by simp [ht])
  · exact Or.inr ⟨t, ht, hc.symm⟩

theorem io_read_cut (ptr : memcached_server_st) (length : Nat)
    (h : ptr.input.bytes.length < length) :
    ∃ rc, isReadError rc = true ∧
      memcached_io_read ptr length = (rc, [], memcached_quit_server ptr) :=
  ⟨_, isReadError_fault ptr.fault, io_read_short ptr length h⟩

theorem ne_success_of_isReadError {rc : memcached_return_t} (h : isReadError rc = true) :
    rc ≠ SUCCESS := by
  rintro rfl
  exact absurd h (by decide)

/-- A body that stops too early ends the read of a binary item. -/
theorem binary_read_item_cut (ptr : memcached_server_st) (result : memcached_result_st)
    (r : Reply) (more : Bytes) (hkey : r.key.length < MEMCACHED_MAX_KEY) (hmore : more ≠ [])
    (h : ptr.input.bytes ++ more = bigEndian 4 r.item.flags.toNat ++ (r.key ++ r.item.value)) :
    ∃ result', binary_read_item ptr result
        ⟨PROTOCOL_BINARY_RES, PROTOCOL_BINARY_CMD_GETKQ, r.key.length, 4, 0,
          4 + r.key.length + r.item.value.length, r.item.cas.toNat⟩ =
      (UNKNOWN_READ_FAILURE, memcached_quit_server ptr, result') := by
  have hfits := r.item.fits
  simp only [MEMCACHED_MAX_KEY] at hkey
  unfold binary_read_item
  rcases part_cases h with hlt | ⟨b, hb, hbm⟩
  · obtain ⟨rc, hrc, hread⟩ := io_read_cut ptr 4 (by simpa using hlt)
    simp only [hread]
    cases rc <;> first | exact ⟨_, rfl⟩ | exact absurd hrc (by decide)
  · obtain ⟨j2, hr2, hj2⟩ := io_read_append ptr _ _ hb
    rw [length_bigEndian] at hr2
    simp only [hr2]
    rcases part_cases hbm with hlt | ⟨b', hb', hbm'⟩
    · obtain ⟨rc, hrc, hread⟩ := io_read_cut { ptr with input := j2 } r.key.length
        (by simpa [hj2] using hlt)
      simp only [hread]
      cases rc <;> first | exact ⟨_, rfl⟩ | exact absurd hrc (by decide)
    · obtain ⟨j3, hr3, hj3⟩ := io_read_append { ptr with input := j2 } r.key b' (by rw [hj2, hb'])
      simp only [hr3, binary_read_value, bodylen_value r.key.length r.item.value.length (by omega)]
      have hlt : ({ ptr with input := j3 } : memcached_server_st).input.bytes.length <
          r.item.value.length := by
        have := List.length_pos_iff.mpr hmore
        simp only [hj3, ← hbm', List.length_append]
        omega
      obtain ⟨rc, hrc, hread⟩ := io_read_cut _ _ hlt
      simp only [hread]
      cases rc <;> first | exact ⟨_, rfl⟩ | exact absurd hrc (by decide)

theorem binary_read_cut (fuel : Nat) (withCas : Bool) (ptr : memcached_server_st)
    (buffer_length : Nat) (result : memcached_result_st)
    (h : Cut withCas .binary ptr.input.bytes) :
    ∃ rc result', isReadError rc = true ∧
      binary_read_one_response fuel ptr buffer_length result =
        (rc, memcached_quit_server ptr, result') := by
  -- a header that stops too early fails as the socket does
  have hheader : ptr.input.bytes.length < 24 → ∃ rc result', isReadError rc = true ∧
      binary_read_one_response fuel ptr buffer_length result =
        (rc, memcached_quit_server ptr, result') := by
    intro hlt
    obtain ⟨rc, hrc, hread⟩ := io_read_cut ptr 24 hlt
    refine ⟨rc, result, hrc, ?_⟩
    rw [binary_read_one_response, hread]
    cases rc <;> first | rfl | exact absurd hrc (by decide)
  obtain ⟨more, hmore, ⟨r, hkey, hr⟩ | hend⟩ := h
  · rcases part_cases hr with hlt | ⟨b, hb, hbm⟩
    · exact hheader (by rwa [length_renderHeader] at hlt)
    · obtain ⟨j, hr1, hj⟩ := io_read_append ptr _ _ hb
      rw [length_renderHeader] at hr1
      obtain ⟨result', hitem⟩ := binary_read_item_cut ({ ptr with input := j }.response_increment)
        result r more hkey.short hmore (by simpa [hj] using hbm)
      refine ⟨UNKNOWN_READ_FAILURE, result', rfl, ?_⟩
      rw [binary_read_one_response]
      simp only [hr1, parseHeader_reply r hkey.short]
      rw [if_neg (by simp), if_pos (by simp), binary_read_success, if_pos rfl, hitem]
      rfl
  · refine hheader ?_
    have hlen : (ptr.input.bytes ++ more).length = 24 := by
      rw [hend]; exact length_renderHeader _ _ _ _ _
    have := List.length_pos_iff.mpr hmore
    simp only [List.length_append] at hlen
    omega

end Libmemcached
