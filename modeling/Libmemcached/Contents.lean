-- What the hosts hold, and what a host answers to a get: one reply for each
-- requested key that it holds, then the end marker, or a part of that when the
-- connection breaks.
import Libmemcached.Handle
import Libmemcached.Pending

open Chunks Decimal Queues

namespace Libmemcached

variable {n : Nat}

/-- The items of a host. A host holds items only under keys that the protocol
allows. -/
structure Store where
  get : Bytes → Option Item
  valid : ∀ key item, get key = some item → ValidKey key

namespace Store

def empty : Store := ⟨fun _ => none, by simp⟩

/-- A host that holds one item. -/
def single (key : Bytes) (h : ValidKey key) (item : Item) : Store where
  get k := if k = key then some item else none
  valid k i hk := by
    split at hk
    · rename_i he; rw [he]; exact h
    · cases hk

def reply (store : Store) (key : Bytes) : Option Reply := (store.get key).map (Reply.mk key)

/-- The replies to a get, in the order of the request. -/
def replies (store : Store) (keys : List Bytes) : List Reply := keys.filterMap store.reply

theorem mem_replies {store : Store} {keys : List Bytes} {r : Reply} :
    r ∈ store.replies keys ↔ r.key ∈ keys ∧ store.get r.key = some r.item := by
  simp only [replies, reply, List.mem_filterMap, Option.map_eq_some_iff]
  constructor
  · rintro ⟨k, hk, i, hi, rfl⟩
    exact ⟨hk, hi⟩
  · rintro ⟨hk, hi⟩
    exact ⟨r.key, hk, r.item, hi, rfl⟩

end Store

/-! ## The keys of a text request -/

/-- The words of a line, which spaces separate. `word` is the beginning of
the current one. -/
def wordsFrom (word : Bytes) : Bytes → List Bytes
  | [] => if word = [] then [] else [word]
  | c :: cs =>
    if c = 32 then (if word = [] then wordsFrom [] cs else word :: wordsFrom [] cs)
    else wordsFrom (word ++ [c]) cs

def words (line : Bytes) : List Bytes := wordsFrom [] line

/-- A space ends a word. -/
theorem wordsFrom_append (word a rest : Bytes) :
    wordsFrom word (a ++ 32 :: rest) = wordsFrom word a ++ words rest := by
  induction a generalizing word with
  | nil => by_cases h : word = [] <;> simp [wordsFrom, words, h]
  | cons c cs ih =>
    rw [List.cons_append, wordsFrom, wordsFrom]
    split_ifs
    · exact ih []
    · rw [ih, List.cons_append]
    · exact ih _

/-- A list of keys has the words of its keys, in order. -/
theorem words_keys (keys : List Bytes) : words (keys.flatMap (· ++ [32])) = keys.flatMap words := by
  induction keys with
  | nil => rfl
  | cons k ks ih =>
    have hline : (k :: ks).flatMap (· ++ [32]) = k ++ 32 :: ks.flatMap (· ++ [32]) := by simp
    rw [hline, words, wordsFrom_append, ih, List.flatMap_cons, words]

theorem wordsFrom_no_space (word k : Bytes) (hk : ∀ c ∈ k, c ≠ 32) :
    wordsFrom word k = if word ++ k = [] then [] else [word ++ k] := by
  induction k generalizing word with
  | nil => simp [wordsFrom]
  | cons c cs ih =>
    rw [wordsFrom, if_neg (hk c (by simp)), ih _ fun x hx => hk x (by simp [hx])]
    simp

/-- A key without spaces is the one word of its own. -/
theorem words_no_space {k : Bytes} (hk : ∀ c ∈ k, c ≠ 32) :
    words k = if k = [] then [] else [k] := wordsFrom_no_space [] k hk

/-- The text of a get for some keys. -/
def textRequest (withCas : Bool) (keys : List Bytes) : Bytes :=
  getCommand withCas ++ keys.flatMap (· ++ [32]) ++ [13, 10]

/-- The keys that a host finds in a text request: the words of its first line
after the command. -/
def requestKeys (request : Bytes) : List Bytes := (words (request.takeWhile (· ≠ 13))).drop 1

/-- A key that stays on the line of its request. -/
def OneLine (key : Bytes) : Prop := ∀ c ∈ key, iscntrl c = false

/-- A key without white space and control characters. -/
def Clean (key : Bytes) : Prop := ∀ c ∈ key, isDelimiter c = false

instance (key : Bytes) : Decidable (OneLine key) := List.decidableBAll _ key

instance (key : Bytes) : Decidable (Clean key) := List.decidableBAll _ key

theorem Clean.oneLine {key : Bytes} (h : Clean key) : OneLine key := by
  intro c hc
  have := h c hc
  simp only [isDelimiter, Bool.or_eq_false_iff] at this
  exact this.1

theorem Clean.no_space {key : Bytes} (h : Clean key) : ∀ c ∈ key, c ≠ 32 := by
  rintro c hc rfl
  exact absurd (h 32 hc) (by decide)

theorem takeWhile_keys (keys : List Bytes) (hkeys : ∀ k ∈ keys, OneLine k) (rest : Bytes) :
    (keys.flatMap (· ++ [32]) ++ 13 :: rest).takeWhile (· ≠ 13) = keys.flatMap (· ++ [32]) := by
  refine takeWhile_append_stop _ 13 rest ?_ (by decide)
  intro c hc
  simp only [List.mem_flatMap, List.mem_append, List.mem_singleton] at hc
  obtain ⟨k, hk, hc | rfl⟩ := hc
  · have := hkeys k hk c hc
    simp only [ne_eq, decide_eq_true_eq]
    rintro rfl
    exact absurd this (by decide)
  · decide

theorem requestKeys_textRequest (withCas : Bool) (keys : List Bytes)
    (hkeys : ∀ k ∈ keys, OneLine k) :
    requestKeys (textRequest withCas keys) = words (keys.flatMap (· ++ [32])) := by
  have hline := takeWhile_keys keys hkeys [10]
  cases withCas with
  | false =>
    have hreq : textRequest false keys =
        103 :: 101 :: 116 :: 32 :: (keys.flatMap (· ++ [32]) ++ [13, 10]) := rfl
    rw [requestKeys, hreq]
    simp only [List.takeWhile_cons, hline]
    rfl
  | true =>
    have hreq : textRequest true keys =
        103 :: 101 :: 116 :: 115 :: 32 :: (keys.flatMap (· ++ [32]) ++ [13, 10]) := rfl
    rw [requestKeys, hreq]
    simp only [List.takeWhile_cons, hline]
    rfl

/-! ## The answers -/

/-- The bytes of a binary get for some keys, less the NOOP at its end. -/
def binaryRequest (keys : List Bytes) : Bytes :=
  keys.flatMap fun key =>
    requestHeader PROTOCOL_BINARY_CMD_GETKQ key.length 0 key.length 0 ++ key

def noopRequest : Bytes := requestHeader PROTOCOL_BINARY_CMD_NOOP 0 0 0 0

/-- The keys that a host finds in a request for `keys`. -/
def keysAsked (withCas : Bool) (p : Protocol) (keys : List Bytes) : List Bytes :=
  match p with
  | .text => requestKeys (textRequest withCas keys)
  | .binary => keys

/-- The bytes that a host sends for such a request. -/
def replyBytes (net : Network n) (withCas : Bool) (p : Protocol) (s : Fin n) (keys : List Bytes) :
    Bytes :=
  match p with
  | .text => bytesOf (net.answer s (textRequest withCas keys)).1
  | .binary =>
    bytesOf (net.answer s (binaryRequest keys)).1 ++ bytesOf (net.answer s noopRequest).1

/-- The bytes are the replies and the end marker, or break off in the middle. -/
structure Answered (withCas : Bool) (p : Protocol) (replies : List Reply) (bytes : Bytes)
    (q : Queue Reply) : Prop where
  items : q.items <+: replies
  all : q.whole = true → q.items = replies
  input : ∃ tail, bytes = q.items.flatMap (render withCas p) ++ tail ∧
    if q.whole then tail = renderEnd p else Cut withCas p tail

/-- `answers` is what each host sends for a get: it answers from what it
holds. -/
def Serves (net : Network n) (stores : Fin n → Store) (withCas : Bool) (p : Protocol)
    (answers : Fin n → List Bytes → Queue Reply) : Prop :=
  ∀ s keys, (∀ k ∈ keys, OneLine k) →
    Answered withCas p ((stores s).replies (keysAsked withCas p keys))
      (replyBytes net withCas p s keys) (answers s keys)

/-- The whole answer to a get. -/
def wholeAnswer (stores : Fin n → Store) (withCas : Bool) (p : Protocol) (s : Fin n)
    (keys : List Bytes) : Queue Reply :=
  ⟨(stores s).replies (keysAsked withCas p keys), true⟩

/-- A get asks for each of its keys that is one word. -/
theorem mem_keysAsked {withCas : Bool} {p : Protocol} {keys : List Bytes} {k : Bytes}
    (hkeys : ∀ k ∈ keys, OneLine k) (hclean : Clean k) (hne : k ≠ []) (hk : k ∈ keys) :
    k ∈ keysAsked withCas p keys := by
  cases p with
  | binary => exact hk
  | text =>
    rw [keysAsked, requestKeys_textRequest _ _ hkeys, words_keys, List.mem_flatMap]
    exact ⟨k, hk, by rw [words_no_space hclean.no_space, if_neg hne]; simp⟩

/-- The words of keys without white space are these keys. -/
theorem of_mem_keysAsked {withCas : Bool} {p : Protocol} {keys : List Bytes} {word : Bytes}
    (hkeys : ∀ k ∈ keys, Clean k) (h : word ∈ keysAsked withCas p keys) : word ∈ keys := by
  cases p with
  | binary => exact h
  | text =>
    rw [keysAsked, requestKeys_textRequest _ _ fun k hk => (hkeys k hk).oneLine, words_keys,
      List.mem_flatMap] at h
    obtain ⟨k, hk, hmem⟩ := h
    rw [words_no_space (hkeys k hk).no_space] at hmem
    split_ifs at hmem
    · cases hmem
    · rwa [List.mem_singleton.mp hmem]

/-- A get for clean keys asks for these keys, in order, less the empty ones
that no text request can carry. -/
theorem keysAsked_clean {withCas : Bool} {p : Protocol} {keys : List Bytes}
    (hkeys : ∀ k ∈ keys, Clean k) (hne : ∀ k ∈ keys, k ≠ []) : keysAsked withCas p keys = keys := by
  cases p with
  | binary => rfl
  | text =>
    rw [keysAsked, requestKeys_textRequest _ _ fun k hk => (hkeys k hk).oneLine, words_keys]
    have hone : ∀ k ∈ keys, words k = [k] := fun k hk => by
      rw [words_no_space (hkeys k hk).no_space, if_neg (hne k hk)]
    rw [List.flatMap_congr hone]
    simp

end Libmemcached
