-- What a host reads in a storage command: the words of its line, which are
-- those that the command was made of.
import Libmemcached.Contents
import Libmemcached.Storage
import Mathlib.Data.List.TakeWhile

open Chunks Decimal

namespace Libmemcached

open memcached_storage_action_t

/-- A word: some bytes that neither end a line nor separate words. -/
structure IsWord (word : Bytes) : Prop where
  nonempty : word ≠ []
  plain : ∀ c ∈ word, c ≠ 32 ∧ c ≠ 13

theorem isWord_decimal (n : Nat) : IsWord (decimal n) where
  nonempty := decimal_ne_nil n
  plain := by
    intro c hc
    have hdigit := decimal_digits n c hc
    constructor
    · rintro rfl
      exact absurd hdigit (by decide)
    · rintro rfl
      exact absurd hdigit (by decide)

theorem isWord_of_valid {key : Bytes} (h : ValidKey key) : IsWord key where
  nonempty := h.nonempty
  plain := by
    intro c hc
    have hclean := h.clean c hc
    constructor
    · rintro rfl
      exact absurd hclean (by decide)
    · rintro rfl
      exact absurd hclean (by decide)

/-- The words of a request that is a line of words, up to its end. -/
def lineWords (request : Bytes) : List Bytes := words (request.takeWhile (· ≠ 13))

theorem words_word {word : Bytes} (h : IsWord word) : words word = [word] := by
  rw [words_no_space fun c hc => (h.plain c hc).1, if_neg h.nonempty]

/-- A word before the rest of its line. -/
theorem words_word_append {word : Bytes} (h : IsWord word) (rest : Bytes) :
    words (word ++ 32 :: rest) = word :: words rest := by
  rw [words, wordsFrom_append, ← words, words_word h]
  rfl

/-- A space at the start of a line. -/
theorem words_space (rest : Bytes) : words (32 :: rest) = words rest := by
  have := wordsFrom_append [] [] rest
  rwa [List.nil_append] at this

/-- Words on a line, one space between two. -/
def spaced : List Bytes → Bytes
  | [] => []
  | [word] => word
  | word :: rest => word ++ 32 :: spaced rest

theorem words_spaced {line : List Bytes} (h : ∀ word ∈ line, IsWord word) :
    words (spaced line) = line := by
  induction line with
  | nil => rfl
  | cons word rest ih =>
    have hword := h word (List.mem_cons_self ..)
    cases rest with
    | nil => exact words_word hword
    | cons next rest =>
      have hrest := ih fun w hw => h w (List.mem_cons_of_mem _ hw)
      rw [spaced, words_word_append hword, hrest]
      simp

theorem spaced_plain {line : List Bytes} (h : ∀ word ∈ line, IsWord word) :
    ∀ c ∈ spaced line, c ≠ 13 := by
  induction line with
  | nil =>
    intro c hc
    cases hc
  | cons word rest ih =>
    have hword := h word (List.mem_cons_self ..)
    cases rest with
    | nil => exact fun c hc => (hword.plain c hc).2
    | cons next rest =>
      intro c hc
      rw [spaced, List.mem_append, List.mem_cons] at hc
      · rcases hc with hc | rfl | hc
        · exact (hword.plain c hc).2
        · decide
        · exact ih (fun w hw => h w (List.mem_cons_of_mem _ hw)) c hc
      · simp

theorem takeWhile_line {line : Bytes} (h : ∀ c ∈ line, c ≠ 13) (rest : Bytes) :
    (line ++ 13 :: rest).takeWhile (· ≠ 13) = line := by
  refine takeWhile_append_stop line 13 rest ?_ (by decide)
  intro c hc
  simpa using h c hc

theorem cString_valid {key : Bytes} (h : ValidKey key) : cString key = key := by
  unfold cString
  rw [List.takeWhile_eq_self_iff]
  intro c hc
  have hclean := h.clean c hc
  simp only [ne_eq, decide_eq_true_eq]
  rintro rfl
  exact absurd hclean (by decide)

/-- The word that names a storage command. -/
def verbWord : memcached_storage_action_t → Bytes
  | SET_OP => ascii ['s', 'e', 't']
  | REPLACE_OP => ascii ['r', 'e', 'p', 'l', 'a', 'c', 'e']
  | ADD_OP => ascii ['a', 'd', 'd']
  | PREPEND_OP => ascii ['p', 'r', 'e', 'p', 'e', 'n', 'd']
  | APPEND_OP => ascii ['a', 'p', 'p', 'e', 'n', 'd']
  | CAS_OP => ascii ['c', 'a', 's']

theorem storage_op_string_eq (verb : memcached_storage_action_t) :
    storage_op_string verb = verbWord verb ++ [32] := by
  cases verb <;> rfl

theorem isWord_verb (verb : memcached_storage_action_t) : IsWord (verbWord verb) := by
  constructor
  · cases verb <;> simp [verbWord, ascii]
  · cases verb <;> simp [verbWord, ascii]

/-- The words of the line of a storage command. The cas is one of them unless
it is 0. -/
def storageWords (verb : memcached_storage_action_t) (key : Bytes) (flags : UInt32)
    (expiration : UInt64) (value_length : Nat) (cas : UInt64) : List Bytes :=
  [verbWord verb, key, decimal flags.toNat, decimal expiration.toNat, decimal value_length] ++
    if cas ≠ 0 then [decimal cas.toNat] else []

theorem storageWords_zero (verb : memcached_storage_action_t) (key : Bytes) (flags : UInt32)
    (expiration : UInt64) (value_length : Nat) :
    storageWords verb key flags expiration value_length 0 = [verbWord verb, key,
      decimal flags.toNat, decimal expiration.toNat, decimal value_length] := rfl

/-- The line is a text of these words, and its end. -/
theorem storageLine_eq (verb : memcached_storage_action_t) {key : Bytes} (hkey : ValidKey key)
    (flags : UInt32) (expiration : UInt64) (value_length : Nat) (cas : UInt64) :
    ∃ text, storageLine verb key flags expiration value_length cas = text ++ [13, 10] ∧
      (∀ c ∈ text, c ≠ 13) ∧
      words text = storageWords verb key flags expiration value_length cas := by
  have hnumbers : ∀ word ∈ [key, decimal flags.toNat, decimal expiration.toNat,
      decimal value_length] ++ (if cas ≠ 0 then [decimal cas.toNat] else []), IsWord word := by
    intro word hword
    rw [List.mem_append] at hword
    rcases hword with hword | hword
    · simp only [List.mem_cons, List.not_mem_nil, or_false] at hword
      rcases hword with rfl | rfl | rfl | rfl
      · exact isWord_of_valid hkey
      all_goals exact isWord_decimal _
    · split_ifs at hword
      · rw [List.mem_singleton.mp hword]
        exact isWord_decimal _
      · cases hword
  have hverb := isWord_verb verb
  have hplain := spaced_plain hnumbers
  have hwords := words_spaced hnumbers
  unfold storageWords
  by_cases hcas : cas = 0
  · rw [if_neg (not_not.mpr hcas)] at hplain hwords ⊢
    refine ⟨verbWord verb ++ 32 :: spaced ([key, decimal flags.toNat, decimal expiration.toNat,
      decimal value_length] ++ []), ?_, ?_, ?_⟩
    · unfold storageLine
      rw [if_neg (not_not.mpr hcas), storage_op_string_eq]
      simp [spaced]
    · intro c hc
      rw [List.mem_append, List.mem_cons] at hc
      rcases hc with hc | rfl | hc
      · exact (hverb.plain c hc).2
      · decide
      · exact hplain c hc
    · rw [words_word_append hverb, hwords]
      rfl
  · -- the text of a cas has two spaces behind its verb
    rw [if_pos hcas] at hplain hwords ⊢
    refine ⟨verbWord verb ++ 32 :: 32 :: spaced ([key, decimal flags.toNat,
      decimal expiration.toNat, decimal value_length] ++ [decimal cas.toNat]), ?_, ?_, ?_⟩
    · unfold storageLine
      rw [if_pos hcas, storage_op_string_eq, cString_valid hkey]
      simp [spaced]
    · intro c hc
      rw [List.mem_append, List.mem_cons, List.mem_cons] at hc
      rcases hc with hc | rfl | rfl | hc
      · exact (hverb.plain c hc).2
      · decide
      · decide
      · exact hplain c hc
    · rw [words_word_append hverb, words_space, hwords]
      rfl

theorem lineWords_storageLine (verb : memcached_storage_action_t) {key : Bytes} (hkey : ValidKey key)
    (flags : UInt32) (expiration : UInt64) (value_length : Nat) (cas : UInt64) (rest : Bytes) :
    lineWords (storageLine verb key flags expiration value_length cas ++ rest) =
      storageWords verb key flags expiration value_length cas := by
  obtain ⟨text, hline, hplain, hwords⟩ :=
    storageLine_eq verb hkey flags expiration value_length cas
  unfold lineWords
  rw [hline, List.append_assoc]
  exact (congrArg words (takeWhile_line hplain _)).trans hwords

/-- The first of them names the command. -/
theorem head_storageLine (verb : memcached_storage_action_t) {key : Bytes} (hkey : ValidKey key)
    (flags : UInt32) (expiration : UInt64) (value_length : Nat) (cas : UInt64) (rest : Bytes) :
    (lineWords (storageLine verb key flags expiration value_length cas ++ rest)).head? =
      some (verbWord verb) := by
  rw [lineWords_storageLine verb hkey]
  rfl

/-- The data block behind the line of a request. -/
def dataBlock (request : Bytes) (length : Nat) : Bytes :=
  (request.drop ((request.takeWhile (· ≠ 13)).length + 2)).take length

/-- The data block behind the line of a storage command is the value. -/
theorem dataBlock_storageLine (verb : memcached_storage_action_t) {key : Bytes}
    (hkey : ValidKey key) (flags : UInt32) (expiration : UInt64) (value : Bytes) (cas : UInt64) :
    dataBlock (storageLine verb key flags expiration value.length cas ++ value ++ [13, 10])
      (readDigits 0 (decimal value.length)).1 = value := by
  obtain ⟨text, hline, hplain, -⟩ := storageLine_eq verb hkey flags expiration value.length cas
  have htext : (text ++ ([13, 10] ++ (value ++ [13, 10]))).takeWhile (· ≠ 13) = text :=
    takeWhile_line hplain _
  unfold dataBlock
  rw [readDigits_decimal_end, hline, List.append_assoc, List.append_assoc, htext,
    ← List.drop_drop, List.drop_left]
  exact List.take_left

end Libmemcached
