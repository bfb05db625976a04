-- Numbers as text and as big-endian bytes: how a peer writes them, and how
-- the C library reads them back.
import Mathlib.Data.List.Basic
import Mathlib.Tactic.Common
import Mathlib.Tactic.Ring
import Libmemcached.Lib.Chunks

open Chunks

namespace Decimal

/-! ## The character classes of the C locale -/

def isspace (c : UInt8) : Bool := c == 32 || (9 ≤ c && c ≤ 13)

def iscntrl (c : UInt8) : Bool := c < 32 || c == 127

def isdigit (c : UInt8) : Bool := 48 ≤ c && c ≤ 57

def isgraph (c : UInt8) : Bool := 33 ≤ c && c ≤ 126

/-- The bytes of a list of ASCII characters. -/
def ascii (cs : List Char) : Bytes := cs.map fun c => UInt8.ofNat c.toNat

/-! ## Decimal text -/

def digit (d : Nat) : UInt8 := UInt8.ofNat (48 + d)

/-- The decimal digits of `n`, written before `acc`. The fuel bounds their
number. -/
def decimalFrom : Nat → Nat → Bytes → Bytes
  | 0, _, acc => acc
  | fuel + 1, n, acc =>
    if n < 10 then digit n :: acc else decimalFrom fuel (n / 10) (digit (n % 10) :: acc)

/-- `n` as `%llu` prints it. -/
def decimal (n : Nat) : Bytes := decimalFrom (n + 1) n []

/-- Read digits from the left, and stop at the first byte that is none. -/
def readDigits (acc : Nat) : Bytes → Nat × Bytes
  | [] => (acc, [])
  | c :: cs =>
    if isdigit c then readDigits (acc * 10 + (c.toNat - 48)) cs else (acc, c :: cs)

/-- What `strtoull` makes of the digits: too large a number saturates, and a
minus sign negates modulo 2^64. -/
def clamp (negative : Bool) (v : Nat) : Nat :=
  if 2 ^ 64 ≤ v then 2 ^ 64 - 1 else if negative then (2 ^ 64 - v) % 2 ^ 64 else v

/-- An optional sign, and what comes after it. -/
def sign : Bytes → Bool × Bytes
  | [] => (false, [])
  | c :: cs => if c = 45 then (true, cs) else if c = 43 then (false, cs) else (false, c :: cs)

/-- `strtoull(s, &end, 10)`: the number and the bytes from `end` on. With no
digits the number is 0 and `end` is `s`. -/
def strtoull (s : Bytes) : Nat × Bytes :=
  match sign (s.dropWhile isspace) with
  | (negative, c :: cs) =>
    if isdigit c then
      let (v, rest) := readDigits 0 (c :: cs)
      (clamp negative v, rest)
    else (0, s)
  | (_, []) => (0, s)

theorem isdigit_digit : ∀ d < 10, isdigit (digit d) = true := by decide

theorem toNat_digit : ∀ d < 10, (digit d).toNat - 48 = d := by decide

/-- Every byte of the decimal text of a number is a digit. -/
theorem decimalFrom_digits (fuel n : Nat) (acc : Bytes) (h : ∀ c ∈ acc, isdigit c = true) :
    ∀ c ∈ decimalFrom fuel n acc, isdigit c = true := by
  induction fuel generalizing n acc with
  | zero => exact h
  | succ fuel ih =>
    unfold decimalFrom
    split
    · rename_i hn
      intro c hc
      rcases List.mem_cons.mp hc with rfl | hc
      · exact isdigit_digit n hn
      · exact h c hc
    · apply ih
      intro c hc
      rcases List.mem_cons.mp hc with rfl | hc
      · exact isdigit_digit _ (Nat.mod_lt _ (by omega))
      · exact h c hc

theorem decimal_digits (n : Nat) : ∀ c ∈ decimal n, isdigit c = true :=
  decimalFrom_digits (n + 1) n [] (by simp)

theorem decimalFrom_ne_nil (fuel n : Nat) (acc : Bytes) : decimalFrom (fuel + 1) n acc ≠ [] := by
  induction fuel generalizing n acc with
  | zero => unfold decimalFrom; split <;> simp [decimalFrom]
  | succ fuel ih =>
    unfold decimalFrom
    split
    · simp
    · exact ih _ _

theorem decimal_ne_nil (n : Nat) : decimal n ≠ [] := decimalFrom_ne_nil n n []

/-- A number below `10 ^ d` has at most `d` digits. -/
theorem decimalFrom_length (fuel n d : Nat) (acc : Bytes) (h : n < 10 ^ (d + 1)) :
    (decimalFrom fuel n acc).length ≤ d + 1 + acc.length := by
  induction fuel generalizing n d acc with
  | zero => simp only [decimalFrom]; omega
  | succ fuel ih =>
    unfold decimalFrom
    split
    · simp only [List.length_cons]; omega
    · cases d with
      | zero => simp only [Nat.zero_add, Nat.pow_one] at h; omega
      | succ d =>
        have hdiv : n / 10 < 10 ^ (d + 1) := by
          rw [Nat.pow_succ] at h; omega
        have := ih (n / 10) d (digit (n % 10) :: acc) hdiv
        simp only [List.length_cons] at this
        omega

theorem decimal_length {n d : Nat} (h : n < 10 ^ (d + 1)) : (decimal n).length ≤ d + 1 := by
  exact decimalFrom_length (n + 1) n d [] h

theorem readDigits_decimalFrom (fuel n a : Nat) (acc : Bytes) (h : n < fuel) :
    ∃ m, readDigits a (decimalFrom fuel n acc) = readDigits (a * m + n) acc := by
  induction fuel generalizing n acc with
  | zero => omega
  | succ fuel ih =>
    unfold decimalFrom
    split
    · rename_i hn
      refine ⟨10, ?_⟩
      rw [readDigits, if_pos (isdigit_digit n hn), toNat_digit n hn]
    · rename_i hn
      obtain ⟨m, hm⟩ := ih (n / 10) (digit (n % 10) :: acc) (by omega)
      have hd : n % 10 < 10 := Nat.mod_lt _ (by omega)
      refine ⟨m * 10, ?_⟩
      rw [hm, readDigits, if_pos (isdigit_digit _ hd), toNat_digit _ hd]
      congr 1
      have : n = 10 * (n / 10) + n % 10 := (Nat.div_add_mod n 10).symm
      calc (a * m + n / 10) * 10 + n % 10 = a * (m * 10) + (10 * (n / 10) + n % 10) := by ring
        _ = a * (m * 10) + n := by rw [← this]

theorem readDigits_append (a : Nat) (ds rest : Bytes) (hd : ∀ c ∈ ds, isdigit c = true) :
    readDigits a (ds ++ rest) = readDigits (readDigits a ds).1 rest := by
  induction ds generalizing a with
  | nil => rfl
  | cons c cs ih =>
    have hc := hd c (by simp)
    simp only [List.cons_append, readDigits, hc, if_true]
    exact ih _ (fun x hx => hd x (by simp [hx]))

/-- A number that stands alone is read back. -/
theorem readDigits_decimal_end (n : Nat) : readDigits 0 (decimal n) = (n, []) := by
  obtain ⟨m, hm⟩ := readDigits_decimalFrom (n + 1) n 0 [] (by omega)
  simpa [decimal, readDigits] using hm

/-- Digits that were printed read back as the number, up to the first byte
that is not a digit. -/
theorem readDigits_decimal (n : Nat) (c : UInt8) (rest : Bytes) (hc : isdigit c = false) :
    readDigits 0 (decimal n ++ c :: rest) = (n, c :: rest) := by
  rw [readDigits_append 0 _ _ (decimal_digits n), readDigits_decimal_end]
  simp [readDigits, hc]

theorem isspace_of_isdigit : ∀ c : UInt8, isdigit c = true → isspace c = false := by
  intro c h
  simp only [isdigit, isspace, Bool.and_eq_true, decide_eq_true_eq, UInt8.le_iff_toNat_le] at *
  simp only [Bool.or_eq_false_iff, Bool.and_eq_false_iff, decide_eq_false_iff_not,
    beq_eq_false_iff_ne, ne_eq, ← UInt8.toNat_inj]
  simp at h ⊢
  omega

/-- `strtoull` reads back what `%llu` printed. -/
theorem strtoull_decimal {n : Nat} (hn : n < 2 ^ 64) (c : UInt8) (rest : Bytes)
    (hc : isdigit c = false) : strtoull (decimal n ++ c :: rest) = (n, c :: rest) := by
  have hr := readDigits_decimal n c rest hc
  have hdig := decimal_digits n
  rcases hd : decimal n with _ | ⟨d, ds⟩
  · exact absurd hd (decimal_ne_nil n)
  · have hdd : isdigit d = true := hdig d (by simp [hd])
    have hspace := isspace_of_isdigit d hdd
    have h45 : d ≠ 45 := by rintro rfl; exact absurd hdd (by decide)
    have h43 : d ≠ 43 := by rintro rfl; exact absurd hdd (by decide)
    rw [hd, List.cons_append] at hr
    unfold strtoull
    simp only [List.cons_append, List.dropWhile_cons, hspace, Bool.false_eq_true, if_false, sign,
      h45, h43, hdd, if_true, hr, clamp, if_neg (Nat.not_le.mpr hn)]

/-! ## Big-endian bytes -/

/-- The number that big-endian bytes give. -/
def ofBigEndian (bs : Bytes) : Nat := bs.foldl (fun acc b => acc * 256 + b.toNat) 0

/-- The `w` low bytes of `n`, the highest first. -/
def bigEndian : Nat → Nat → Bytes
  | 0, _ => []
  | w + 1, n => bigEndian w (n / 256) ++ [UInt8.ofNat (n % 256)]

@[simp] theorem length_bigEndian (w n : Nat) : (bigEndian w n).length = w := by
  induction w generalizing n with
  | zero => rfl
  | succ w ih => simp [bigEndian, ih]

theorem ofBigEndian_bigEndian (w n : Nat) (h : n < 256 ^ w) : ofBigEndian (bigEndian w n) = n := by
  induction w generalizing n with
  | zero => simp only [Nat.pow_zero] at h; simp [bigEndian, ofBigEndian]; omega
  | succ w ih =>
    have hdiv : n / 256 < 256 ^ w := by rw [Nat.pow_succ] at h; omega
    have hi := ih (n / 256) hdiv
    unfold ofBigEndian at hi ⊢
    rw [bigEndian, List.foldl_append, hi]
    simp only [List.foldl_cons, List.foldl_nil]
    have : (UInt8.ofNat (n % 256)).toNat = n % 256 := by simp
    rw [this]
    omega

end Decimal
