-- The strings of Perl, in their two internal forms: one byte for each
-- character, or the extended UTF-8 of the characters with the UTF8 flag on.
import Libmemcached.Lib.Chunks
import Mathlib.Algebra.Group.Nat.Defs

open Chunks

namespace PerlString

/-! ## Characters -/

/-- The `n` continuation bytes with the low bits of a character. -/
def continuation (c : Nat) : Nat → Bytes
  | 0 => []
  | n + 1 => UInt8.ofNat (0x80 + c / 64 ^ n % 64) :: continuation c n

/-- A character in UTF-8, with the longer forms that Perl adds. -/
def utf8Char (c : Nat) : Bytes :=
  if c < 0x80 then [UInt8.ofNat c]
  else if c < 0x800 then UInt8.ofNat (0xc0 + c / 64) :: continuation c 1
  else if c < 0x10000 then UInt8.ofNat (0xe0 + c / 64 ^ 2) :: continuation c 2
  else if c < 0x200000 then UInt8.ofNat (0xf0 + c / 64 ^ 3) :: continuation c 3
  else if c < 0x4000000 then UInt8.ofNat (0xf8 + c / 64 ^ 4) :: continuation c 4
  else if c < 0x80000000 then UInt8.ofNat (0xfc + c / 64 ^ 5) :: continuation c 5
  else if c < 0x1000000000 then 0xfe :: continuation c 6
  else 0xff :: continuation c 12

theorem continuation_high (c n : Nat) : ∀ b ∈ continuation c n, 128 ≤ b.toNat := by
  induction n with
  | zero =>
    intro b hb
    cases hb
  | succ n ih =>
    intro b hb
    rw [continuation] at hb
    rcases List.mem_cons.mp hb with rfl | hb
    · have hmod : c / 64 ^ n % 64 < 64 := Nat.mod_lt _ (by decide)
      rw [UInt8.toNat_ofNat']
      omega
    · exact ih b hb

theorem length_continuation (c n : Nat) : (continuation c n).length = n := by
  induction n with
  | zero => rfl
  | succ n ih => rw [continuation, List.length_cons, ih]

/-- A lead byte and its continuation. -/
theorem lead_high {b : UInt8} (hb : 128 ≤ b.toNat) (c n : Nat) (hn : 0 < n) :
    (∀ x ∈ b :: continuation c n, 128 ≤ x.toNat) ∧ 2 ≤ (b :: continuation c n).length := by
  constructor
  · intro x hx
    rcases List.mem_cons.mp hx with rfl | hx
    · exact hb
    · exact continuation_high c n x hx
  · rw [List.length_cons, length_continuation]
    omega

/-- A character above ASCII takes two bytes or more, all of them high. -/
theorem utf8Char_high {c : Nat} (h : 128 ≤ c) :
    (∀ b ∈ utf8Char c, 128 ≤ b.toNat) ∧ 2 ≤ (utf8Char c).length := by
  have hlead : ∀ base top : Nat, 128 ≤ base → base + top ≤ 256 → ∀ x, x < top →
      128 ≤ (UInt8.ofNat (base + x)).toNat := by
    intro base top hbase htop x hx
    rw [UInt8.toNat_ofNat', Nat.mod_eq_of_lt (by omega)]
    omega
  unfold utf8Char
  rw [if_neg (by omega)]
  split_ifs
  · exact lead_high (hlead 0xc0 32 (by decide) (by decide) _ (by omega)) c 1 (by decide)
  · exact lead_high (hlead 0xe0 16 (by decide) (by decide) _ (by omega)) c 2 (by decide)
  · exact lead_high (hlead 0xf0 8 (by decide) (by decide) _ (by omega)) c 3 (by decide)
  · exact lead_high (hlead 0xf8 4 (by decide) (by decide) _ (by omega)) c 4 (by decide)
  · exact lead_high (hlead 0xfc 2 (by decide) (by decide) _ (by omega)) c 5 (by decide)
  · exact lead_high (by decide) c 6 (by decide)
  · exact lead_high (by decide) c 12 (by decide)

theorem utf8Char_ascii {c : Nat} (h : c < 128) : utf8Char c = [UInt8.ofNat c] := if_pos h

/-- The UTF-8 of some characters. -/
def utf8 (cs : List Nat) : Bytes := cs.flatMap utf8Char

/-- The characters that single bytes stand for. -/
def latin1 (bs : Bytes) : List Nat := bs.map UInt8.toNat

/-- Single bytes for characters below 256. -/
def toLatin1 (cs : List Nat) : Bytes := cs.map UInt8.ofNat

def Ascii (cs : List Nat) : Prop := ∀ c ∈ cs, c < 128

instance (cs : List Nat) : Decidable (Ascii cs) := List.decidableBAll _ cs

theorem toLatin1_latin1 (bs : Bytes) : toLatin1 (latin1 bs) = bs := by
  unfold toLatin1 latin1
  rw [List.map_map]
  exact (List.map_congr_left fun b _ => UInt8.ofNat_toNat).trans (List.map_id bs)

/-- ASCII is the same in both forms. -/
theorem utf8_ascii {cs : List Nat} (h : Ascii cs) : utf8 cs = toLatin1 cs := by
  unfold utf8 toLatin1
  induction cs with
  | nil => rfl
  | cons c cs ih =>
    rw [List.flatMap_cons, List.map_cons, utf8Char_ascii (h c (List.mem_cons_self ..)),
      ih fun c hc => h c (List.mem_cons_of_mem _ hc)]
    rfl

theorem length_utf8_ge (cs : List Nat) : cs.length ≤ (utf8 cs).length := by
  unfold utf8
  induction cs with
  | nil => exact Nat.le_refl _
  | cons c cs ih =>
    have hone : 1 ≤ (utf8Char c).length := by
      rcases Nat.lt_or_ge c 128 with hlt | hge
      · rw [utf8Char_ascii hlt]
        exact Nat.le_refl _
      · have := (utf8Char_high hge).2
        omega
    rw [List.flatMap_cons, List.length_append, List.length_cons]
    omega

/-- Other text is longer in UTF-8 than it has characters. -/
theorem length_utf8_gt {cs : List Nat} (h : ¬ Ascii cs) : cs.length < (utf8 cs).length := by
  induction cs with
  | nil => exact absurd (fun c hc => absurd hc (by simp)) h
  | cons c cs ih =>
    have hcons : utf8 (c :: cs) = utf8Char c ++ utf8 cs := List.flatMap_cons
    have hrest := length_utf8_ge cs
    rw [hcons, List.length_append, List.length_cons]
    rcases Nat.lt_or_ge c 128 with hlt | hge
    · have htail : ¬ Ascii cs := by
        intro hcs
        apply h
        intro d hd
        rcases List.mem_cons.mp hd with rfl | hd
        · exact hlt
        · exact hcs d hd
      have := ih htail
      rw [utf8Char_ascii hlt, List.length_singleton]
      omega
    · have := (utf8Char_high hge).2
      omega

theorem utf8Char_two {c : Nat} (h : 128 ≤ c) (hc : c < 0x800) :
    utf8Char c = [UInt8.ofNat (0xc0 + c / 64), UInt8.ofNat (0x80 + c / 64 ^ 0 % 64)] := by
  unfold utf8Char
  rw [if_neg (by omega), if_pos hc]
  rfl

/-- The UTF-8 of bytes tells which bytes they were. -/
theorem utf8_latin1_injective {as bs : Bytes} (h : utf8 (latin1 as) = utf8 (latin1 bs)) :
    as = bs := by
  unfold utf8 latin1 at h
  induction as generalizing bs with
  | nil =>
    cases bs with
    | nil => rfl
    | cons b bs =>
      have hlength := length_utf8_ge (latin1 (b :: bs))
      unfold utf8 latin1 at hlength
      rw [← h] at hlength
      simp at hlength
  | cons a as ih =>
    cases bs with
    | nil =>
      have hlength := length_utf8_ge (latin1 (a :: as))
      unfold utf8 latin1 at hlength
      rw [h] at hlength
      simp at hlength
    | cons b bs =>
      simp only [List.map_cons, List.flatMap_cons] at h
      have ha := a.toNat_lt
      have hb := b.toNat_lt
      -- an ASCII byte is itself, and a high one a pair of high bytes
      have hmixed : ∀ c d : UInt8, c.toNat < 128 → 128 ≤ d.toNat → ∀ xs ys : Bytes,
          utf8Char c.toNat ++ xs ≠ utf8Char d.toNat ++ ys := by
        intro c d hc hd xs ys he
        rw [utf8Char_ascii hc, utf8Char_two hd (by have := d.toNat_lt; omega)] at he
        have hhead := congrArg UInt8.toNat (List.cons.inj he).1
        rw [UInt8.toNat_ofNat', UInt8.toNat_ofNat'] at hhead
        have := d.toNat_lt
        omega
      rcases Nat.lt_or_ge a.toNat 128 with ha' | ha' <;> rcases Nat.lt_or_ge b.toNat 128 with hb' | hb'
      · rw [utf8Char_ascii ha', utf8Char_ascii hb', UInt8.ofNat_toNat, UInt8.ofNat_toNat] at h
        obtain ⟨rfl, hrest⟩ := List.cons.inj h
        rw [ih hrest]
      · exact absurd h (hmixed a b ha' hb' _ _)
      · exact absurd h.symm (hmixed b a hb' ha' _ _)
      · rw [utf8Char_two ha' (by omega), utf8Char_two hb' (by omega)] at h
        simp only [List.cons_append, List.nil_append, List.cons.injEq] at h
        obtain ⟨hlead, hlow, hrest⟩ := h
        have hlead := congrArg UInt8.toNat hlead
        have hlow := congrArg UInt8.toNat hlow
        rw [UInt8.toNat_ofNat', UInt8.toNat_ofNat'] at hlead hlow
        have hsame : a.toNat = b.toNat := by omega
        rw [UInt8.toNat_inj.mp hsame, ih hrest]

/-- The bytes of UTF-8 are its ASCII characters, and high ones. -/
theorem utf8_bytes {cs : List Nat} {b : UInt8} (h : b ∈ utf8 cs) :
    128 ≤ b.toNat ∨ ∃ c ∈ cs, c < 128 ∧ b = UInt8.ofNat c := by
  obtain ⟨c, hc, hb⟩ := List.mem_flatMap.mp h
  rcases Nat.lt_or_ge c 128 with hlt | hge
  · rw [utf8Char_ascii hlt] at hb
    exact Or.inr ⟨c, hc, hlt, List.mem_singleton.mp hb⟩
  · exact Or.inl ((utf8Char_high hge).1 b hb)

end PerlString

open PerlString

/-! ## Strings -/

/-- A string: its characters and the UTF8 flag. Without the flag every
character is one byte. -/
structure PerlString where
  chars : List Nat
  flag : Bool
  fits : flag = false → ∀ c ∈ chars, c < 256

namespace PerlString

/-- The internal bytes (`SvPV`). -/
def bytes (s : PerlString) : Bytes := if s.flag then utf8 s.chars else toLatin1 s.chars

/-- The bytes under which a hash keeps the string as a key: its Latin-1 form
where there is one. -/
def hashBytes (s : PerlString) : Bytes :=
  if ∀ c ∈ s.chars, c < 256 then toLatin1 s.chars else utf8 s.chars

theorem bytes_of_flag_off {s : PerlString} (h : s.flag = false) : s.bytes = toLatin1 s.chars := by
  unfold bytes
  rw [h]
  rfl

theorem bytes_of_ascii {s : PerlString} (h : Ascii s.chars) : s.bytes = toLatin1 s.chars := by
  unfold bytes
  split_ifs
  · exact utf8_ascii h
  · rfl

/-! ## Raw strings

What a scalar holds: bytes, and the flag that says how to read them. -/

structure Raw where
  bytes : Bytes
  flag : Bool
deriving DecidableEq

/-- The UTF-8 form of a raw string. -/
def Raw.upgraded (s : Raw) : Bytes := if s.flag then s.bytes else utf8 (latin1 s.bytes)

/-- `sv_eq`: the strings are compared in their UTF-8 form. -/
def Raw.Eq (s t : Raw) : Prop := s.upgraded = t.upgraded

instance (s t : Raw) : Decidable (s.Eq t) := inferInstanceAs (Decidable (_ = _))

/-- The same bytes with the flag on are another string, unless they are
ASCII. -/
theorem flagged_eq_iff (bs : Bytes) : Raw.Eq ⟨bs, true⟩ ⟨bs, false⟩ ↔ Ascii (latin1 bs) := by
  unfold Raw.Eq Raw.upgraded
  simp only [if_true, Bool.false_eq_true, if_false]
  constructor
  · intro h
    by_contra hnot
    have hlength := length_utf8_gt hnot
    rw [← h] at hlength
    unfold latin1 at hlength
    rw [List.length_map] at hlength
    omega
  · intro h
    rw [utf8_ascii h, toLatin1_latin1]

/-- Strings without the flag are equal when their bytes are. -/
theorem unflagged_eq_iff (as bs : Bytes) : Raw.Eq ⟨as, false⟩ ⟨bs, false⟩ ↔ as = bs := by
  unfold Raw.Eq Raw.upgraded
  simp only [Bool.false_eq_true, if_false]
  exact ⟨utf8_latin1_injective, fun h => by rw [h]⟩

end PerlString
