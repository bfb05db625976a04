-- Bytes that arrive in chunks. A reader that takes bytes one by one, or a
-- fixed number of them, sees the same bytes however they were cut.
import Mathlib.Data.List.Basic
import Mathlib.Tactic.Common

namespace Chunks

abbrev Bytes := List UInt8

/-- What one successful read brings: at least one byte. -/
structure Chunk where
  first : UInt8
  rest : Bytes
deriving DecidableEq

def Chunk.bytes (c : Chunk) : Bytes := c.first :: c.rest

/-- The bytes of a list of chunks, in the order they arrive. -/
def bytesOf (cs : List Chunk) : Bytes := cs.flatMap Chunk.bytes

@[simp] theorem bytesOf_nil : bytesOf [] = [] := rfl

@[simp] theorem bytesOf_cons (c : Chunk) (cs : List Chunk) :
    bytesOf (c :: cs) = c.bytes ++ bytesOf cs := rfl

@[simp] theorem bytesOf_append (cs ds : List Chunk) :
    bytesOf (cs ++ ds) = bytesOf cs ++ bytesOf ds := by
  simp [bytesOf]

/-- One chunk that holds all the bytes, or none when there is no byte. -/
def whole : Bytes → List Chunk
  | [] => []
  | b :: bs => [⟨b, bs⟩]

@[simp] theorem bytesOf_whole (bs : Bytes) : bytesOf (whole bs) = bs := by
  cases bs <;> simp [whole, Chunk.bytes]

/-- The reading side of a connection: the bytes already taken from the
socket, and the chunks that later reads will bring. -/
structure Input where
  buffered : Bytes
  arriving : List Chunk
deriving DecidableEq

namespace Input

/-- Every byte still to be consumed. -/
def bytes (i : Input) : Bytes := i.buffered ++ bytesOf i.arriving

def empty : Input := ⟨[], []⟩

@[simp] theorem bytes_empty : empty.bytes = [] := rfl

theorem buffered_eq_nil_of_bytes {i : Input} (h : i.bytes = []) : i.buffered = [] := by
  simp only [bytes, List.append_eq_nil_iff] at h
  exact h.1

/-- The peer sends more. -/
def feed (i : Input) (cs : List Chunk) : Input := { i with arriving := i.arriving ++ cs }

@[simp] theorem bytes_feed (i : Input) (cs : List Chunk) :
    (i.feed cs).bytes = i.bytes ++ bytesOf cs := by
  simp [feed, bytes]

/-! ## One byte -/

/-- The next byte: from the buffer, or from the next chunk, which then
fills the buffer. -/
def next (i : Input) : Option (UInt8 × Input) :=
  match i.buffered with
  | b :: bs => some (b, { i with buffered := bs })
  | [] =>
    match i.arriving with
    | c :: cs => some (c.first, ⟨c.rest, cs⟩)
    | [] => none

theorem next_none {i : Input} : i.next = none ↔ i.bytes = [] := by
  obtain ⟨buf, arr⟩ := i
  cases buf with
  | cons b bs => simp [next, bytes]
  | nil =>
    cases arr with
    | nil => simp [next, bytes]
    | cons c cs => simp [next, bytes, Chunk.bytes]

theorem next_some {i : Input} {b : UInt8} {bs : Bytes} (h : i.bytes = b :: bs) :
    ∃ j, i.next = some (b, j) ∧ j.bytes = bs := by
  obtain ⟨buf, arr⟩ := i
  cases buf with
  | cons c cs =>
    simp only [bytes, List.cons_append, List.cons.injEq] at h
    exact ⟨⟨cs, arr⟩, by simp [next, h.1], h.2⟩
  | nil =>
    cases arr with
    | nil => simp [bytes] at h
    | cons c cs =>
      simp only [bytes, List.nil_append, bytesOf_cons, Chunk.bytes, List.cons_append,
        List.cons.injEq] at h
      exact ⟨⟨c.rest, cs⟩, by simp [next, h.1], h.2⟩

/-! ## A fixed number of bytes -/

/-- Empty the buffer, then take the chunks one after the other, until `n`
bytes are there. -/
def takeFrom : List Chunk → Bytes → Nat → Option (Bytes × Input)
  | cs, buf, n =>
    if n ≤ buf.length then some (buf.take n, ⟨buf.drop n, cs⟩)
    else
      match cs with
      | [] => none
      | c :: cs => (takeFrom cs c.bytes (n - buf.length)).map fun (bs, i) => (buf ++ bs, i)

def take (i : Input) (n : Nat) : Option (Bytes × Input) := takeFrom i.arriving i.buffered n

theorem takeFrom_some (cs : List Chunk) (buf : Bytes) (n : Nat)
    (h : n ≤ (buf ++ bytesOf cs).length) :
    ∃ j, takeFrom cs buf n = some ((buf ++ bytesOf cs).take n, j) ∧
      j.bytes = (buf ++ bytesOf cs).drop n := by
  induction cs generalizing buf n with
  | nil =>
    have hn : n ≤ buf.length := by simpa using h
    exact ⟨⟨buf.drop n, []⟩, by simp [takeFrom, hn], by simp [bytes]⟩
  | cons c cs ih =>
    by_cases hn : n ≤ buf.length
    · refine ⟨⟨buf.drop n, c :: cs⟩, ?_, ?_⟩
      · simp [takeFrom, hn, List.take_append_of_le_length hn]
      · simp [bytes, List.drop_append_of_le_length hn]
    · have hle : n - buf.length ≤ (c.bytes ++ bytesOf cs).length := by
        simp only [bytesOf_cons, List.length_append] at h ⊢
        omega
      obtain ⟨j, hj, hb⟩ := ih c.bytes (n - buf.length) hle
      refine ⟨j, ?_, ?_⟩
      · rw [takeFrom, if_neg hn]
        have htake : (buf ++ bytesOf (c :: cs)).take n =
            buf ++ (c.bytes ++ bytesOf cs).take (n - buf.length) := by
          rw [List.take_append, List.take_of_length_le (by omega), bytesOf_cons]
        simp only [hj, Option.map_some, htake]
      · have hdrop : (buf ++ bytesOf (c :: cs)).drop n =
            (c.bytes ++ bytesOf cs).drop (n - buf.length) := by
          rw [List.drop_append, List.drop_of_length_le (by omega), bytesOf_cons, List.nil_append]
        rw [hb, hdrop]

theorem takeFrom_none (cs : List Chunk) (buf : Bytes) (n : Nat)
    (h : (buf ++ bytesOf cs).length < n) : takeFrom cs buf n = none := by
  induction cs generalizing buf n with
  | nil =>
    have hn : ¬ n ≤ buf.length := by simpa using h
    simp [takeFrom, hn]
  | cons c cs ih =>
    simp only [bytesOf_cons, List.length_append] at h
    rw [takeFrom, if_neg (by omega)]
    simp only
    rw [ih c.bytes (n - buf.length) (by simp only [List.length_append]; omega)]
    rfl

/-- Enough bytes: the first `n` come out, and the rest stays. -/
theorem take_some {i : Input} {n : Nat} (h : n ≤ i.bytes.length) :
    ∃ j, i.take n = some (i.bytes.take n, j) ∧ j.bytes = i.bytes.drop n :=
  takeFrom_some i.arriving i.buffered n h

theorem take_none {i : Input} {n : Nat} (h : i.bytes.length < n) : i.take n = none :=
  takeFrom_none i.arriving i.buffered n h

theorem take_append {i : Input} {bs rest : Bytes} (h : i.bytes = bs ++ rest) :
    ∃ j, i.take bs.length = some (bs, j) ∧ j.bytes = rest := by
  obtain ⟨j, hj, hb⟩ := take_some (i := i) (n := bs.length) (by simp [h])
  exact ⟨j, by simpa [h] using hj, by simpa [h] using hb⟩

/-- A fixed-size read takes the first bytes, or finds fewer than it needs. -/
theorem take_cases (i : Input) (n : Nat) :
    (∃ bs j, i.take n = some (bs, j) ∧ bs.length = n ∧ i.bytes = bs ++ j.bytes) ∨
      (i.take n = none ∧ i.bytes.length < n) := by
  by_cases h : n ≤ i.bytes.length
  · obtain ⟨j, hj, hb⟩ := take_some h
    exact Or.inl ⟨_, j, hj, by simp [h], by rw [hb, List.take_append_drop]⟩
  · exact Or.inr ⟨take_none (by omega), by omega⟩

end Input

end Chunks
