-- The statistics of a host: how the lines of its answer fill a
-- memcached_stat_st, and how a value of it is printed again (stats.c).
import Libmemcached.Exchanges
import Mathlib.Data.List.TakeWhile

open Chunks Decimal

namespace Libmemcached

open memcached_return_t memcached_server_st

/-! ## Keys -/

/-- The statistics that a `memcached_stat_st` holds. -/
inductive StatKey
  | pid
  | uptime
  | time
  | version
  | pointer_size
  | rusage_user
  | rusage_system
  | curr_items
  | total_items
  | bytes
  | curr_connections
  | total_connections
  | connection_structures
  | cmd_get
  | cmd_set
  | get_hits
  | get_misses
  | evictions
  | bytes_read
  | bytes_written
  | limit_maxbytes
  | threads
deriving DecidableEq

namespace StatKey

def name : StatKey → Bytes
  | pid => ascii ['p', 'i', 'd']
  | uptime => ascii ['u', 'p', 't', 'i', 'm', 'e']
  | time => ascii ['t', 'i', 'm', 'e']
  | version => ascii ['v', 'e', 'r', 's', 'i', 'o', 'n']
  | pointer_size => ascii ['p', 'o', 'i', 'n', 't', 'e', 'r', '_', 's', 'i', 'z', 'e']
  | rusage_user => ascii ['r', 'u', 's', 'a', 'g', 'e', '_', 'u', 's', 'e', 'r']
  | rusage_system => ascii ['r', 'u', 's', 'a', 'g', 'e', '_', 's', 'y', 's', 't', 'e', 'm']
  | curr_items => ascii ['c', 'u', 'r', 'r', '_', 'i', 't', 'e', 'm', 's']
  | total_items => ascii ['t', 'o', 't', 'a', 'l', '_', 'i', 't', 'e', 'm', 's']
  | bytes => ascii ['b', 'y', 't', 'e', 's']
  | curr_connections =>
    ascii ['c', 'u', 'r', 'r', '_', 'c', 'o', 'n', 'n', 'e', 'c', 't', 'i', 'o', 'n', 's']
  | total_connections =>
    ascii ['t', 'o', 't', 'a', 'l', '_', 'c', 'o', 'n', 'n', 'e', 'c', 't', 'i', 'o', 'n', 's']
  | connection_structures =>
    ascii ['c', 'o', 'n', 'n', 'e', 'c', 't', 'i', 'o', 'n', '_', 's', 't', 'r', 'u', 'c', 't',
      'u', 'r', 'e', 's']
  | cmd_get => ascii ['c', 'm', 'd', '_', 'g', 'e', 't']
  | cmd_set => ascii ['c', 'm', 'd', '_', 's', 'e', 't']
  | get_hits => ascii ['g', 'e', 't', '_', 'h', 'i', 't', 's']
  | get_misses => ascii ['g', 'e', 't', '_', 'm', 'i', 's', 's', 'e', 's']
  | evictions => ascii ['e', 'v', 'i', 'c', 't', 'i', 'o', 'n', 's']
  | bytes_read => ascii ['b', 'y', 't', 'e', 's', '_', 'r', 'e', 'a', 'd']
  | bytes_written => ascii ['b', 'y', 't', 'e', 's', '_', 'w', 'r', 'i', 't', 't', 'e', 'n']
  | limit_maxbytes =>
    ascii ['l', 'i', 'm', 'i', 't', '_', 'm', 'a', 'x', 'b', 'y', 't', 'e', 's']
  | threads => ascii ['t', 'h', 'r', 'e', 'a', 'd', 's']

/-- How a value is kept: a number of 32 bits, one of 64 bits, seconds and
microseconds, or text. -/
inductive Kind
  | narrow
  | wide
  | rusage
  | text
deriving DecidableEq

/-- The casts of `set_data`. The fields `bytes`, `bytes_read` and
`bytes_written` have 64 bits, and are given 32. -/
def kind : StatKey → Kind
  | version => .text
  | rusage_user | rusage_system => .rusage
  | cmd_get | cmd_set | get_hits | get_misses | evictions | limit_maxbytes => .wide
  | _ => .narrow

end StatKey

open StatKey

/-- `memcached_stat_keys`, without its NULL. -/
def memcached_stat_keys : List StatKey :=
  [pid, uptime, time, version, pointer_size, rusage_user, rusage_system, curr_items, total_items,
    bytes, curr_connections, total_connections, connection_structures, cmd_get, cmd_set, get_hits,
    get_misses, evictions, bytes_read, bytes_written, limit_maxbytes, threads]

/-- The keys in the order in which `memcached_stat_get_value` tries them. -/
def getValueOrder : List StatKey :=
  [pid, uptime, time, version, pointer_size, rusage_user, rusage_system, curr_items, total_items,
    curr_connections, total_connections, connection_structures, cmd_get, cmd_set, get_hits,
    get_misses, evictions, bytes_read, bytes_written, bytes, limit_maxbytes, threads]

/-! ## Values -/

/-- What is kept of one statistic. -/
inductive StatField
  | number (n : Nat)
  | rusage (seconds microseconds : Nat)
  | text (s : Bytes)
deriving DecidableEq

/-- `memcached_stat_st`: the field or fields of each key. -/
abbrev memcached_stat_st := StatKey → StatField

/-- The structure after `calloc`. -/
def zeroedStat : memcached_stat_st := fun key =>
  match key.kind with
  | .narrow | .wide => .number 0
  | .rusage => .rusage 0 0
  | .text => .text []

/-- `MEMCACHED_VERSION_STRING_LENGTH`. -/
def MEMCACHED_VERSION_STRING_LENGTH : Nat := 24

def ispunct (c : UInt8) : Bool :=
  (33 ≤ c && c ≤ 47) || (58 ≤ c && c ≤ 64) || (91 ≤ c && c ≤ 96) || (123 ≤ c && c ≤ 126)

/-- `strtoll(s, NULL, 10)`, and `strtol` where a `long` has 64 bits. -/
def strtoll (s : Bytes) : Int :=
  match sign (s.dropWhile isspace) with
  | (negative, digits) =>
    let v : Int := (readDigits 0 digits).1
    if negative then max (-2 ^ 63) (-v) else min (2 ^ 63 - 1) v

/-- The casts to `uint32_t` and `uint64_t`. -/
def castTo (bits : Nat) (v : Int) : Nat := (v % 2 ^ bits).toNat

/-- The seconds and microseconds on both sides of the first punctuation mark.
Without one the walk leaves the value. -/
def rusageFrom (value : Bytes) : Option StatField :=
  let seconds := value.takeWhile fun c => !ispunct c
  if seconds.length = value.length then none
  else some (.rusage (castTo 32 (strtoll seconds))
    (castTo 32 (strtoll (value.drop (seconds.length + 1)))))

/-- What `set_data` makes of the value of a known key. `none` stands for an
access outside of the value, or of the field of the version. -/
def fieldFrom (key : StatKey) (value : Bytes) : Option StatField :=
  match key.kind with
  | .narrow => some (.number (castTo 32 (strtoll value)))
  | .wide => some (.number (castTo 64 (strtoll value)))
  | .rusage => rusageFrom value
  | .text => if value.length < MEMCACHED_VERSION_STRING_LENGTH then some (.text value) else none

/-- `set_data`. Other keys are swallowed: MEMCACHED_UNKNOWN_STAT_KEY is looked
at in a debug build only. -/
def set_data (stat : memcached_stat_st) (key value : Bytes) : Option memcached_stat_st :=
  match memcached_stat_keys.find? (·.name = key) with
  | none => some stat
  | some k => (fieldFrom k value).map (Function.update stat k)

/-- The `snprintf` of one field. -/
def printField : StatField → Bytes
  | .number n => decimal n
  | .rusage seconds microseconds => decimal seconds ++ ascii ['.'] ++ decimal microseconds
  | .text s => s

/-- `memcached_stat_get_value`: the first key that `key` begins with. -/
def memcached_stat_get_value (stat : memcached_stat_st) (key : Bytes) : Option Bytes :=
  (getValueOrder.find? fun k => k.name.isPrefixOf key).map fun k => printField (stat k)

/-! ## The request -/

/-- The line that is sent. -/
def statsCommand (args : Option Bytes) : Bytes :=
  match args with
  | some args => ascii ['s', 't', 'a', 't', 's', ' '] ++ args ++ [13, 10]
  | none => ascii ['s', 't', 'a', 't', 's'] ++ [13, 10]

/-- The key and the value of a STAT line. -/
def parseStatLine (buffer : Bytes) : Bytes × Bytes :=
  let string_ptr := buffer.drop 5
  let key := string_ptr.takeWhile isgraph
  let value := (string_ptr.drop (key.length + 1)).takeWhile fun c => !isspace c
  (key, cString value)

namespace memcached_stat_st

/-- The loop over the responses, one STAT line after the other. Nothing else
is pending, so the buffer holds the line of the response. -/
def readLines : Nat → memcached_server_st → memcached_result_st → memcached_stat_st →
    Option (memcached_stat_st × memcached_return_t)
  | 0, _, _, stat => some (stat, STAT)
  | fuel + 1, host, result, stat =>
    let buffer := lineBuffer (memcached_io_readline host MEMCACHED_DEFAULT_COMMAND_SIZE).2.1
    match memcached_response .text host MEMCACHED_DEFAULT_COMMAND_SIZE result with
    | (rc, host, result) =>
      if rc = STAT then
        match set_data stat (parseStatLine buffer).1 (parseStatLine buffer).2 with
        | none => none
        | some stat => readLines fuel host result stat
      else some (stat, if rc = END then SUCCESS else rc)

/-- `ascii_stats_fetch` on a new connection, with the figures. `none` stands
for undefined behaviour. -/
def ascii_stats_fetch (net : Network 1) (args : Option Bytes) (stat : memcached_stat_st) :
    Option (memcached_stat_st × memcached_return_t) :=
  if MEMCACHED_DEFAULT_COMMAND_SIZE ≤ (statsCommand args).length then some (stat, WRITE_FAILURE)
  else
    match memcached_vdo net 0 .init (statsCommand args) true with
    | (rc, host) =>
      if rc = SUCCESS then readLines (host.input.bytes.length + 1) host memcached_result_create stat
      else some (stat, if rc = END then SUCCESS else rc)

end memcached_stat_st

/-! ## The lines of an answer -/

/-- One statistic as a host sends it: a word, and the rest of the line. -/
structure StatPair where
  key : Bytes
  value : Bytes
  word : ∀ c ∈ key, isgraph c = true
  one_line : ∀ c ∈ value, c ≠ 10

namespace StatPair

def text (p : StatPair) : Bytes := ascii ['S', 'T', 'A', 'T', ' '] ++ p.key ++ [32] ++ p.value

def line (p : StatPair) : Bytes := p.text ++ [13, 10]

/-- The line fits the buffer. -/
def Fits (p : StatPair) : Prop := p.text.length + 2 < MEMCACHED_DEFAULT_COMMAND_SIZE

/-- The value as `set_data` is given it. -/
def word_value (p : StatPair) : Bytes := cString (p.value.takeWhile fun c => !isspace c)

theorem text_one_line (p : StatPair) : ∀ c ∈ p.text, c ≠ 10 := by
  intro c hc
  unfold text at hc
  rcases List.mem_append.mp hc with hc | hc
  · rcases List.mem_append.mp hc with hc | hc
    · rcases List.mem_append.mp hc with hc | hc
      · simp only [ascii, List.map_cons, List.map_nil, List.mem_cons, List.not_mem_nil,
          or_false] at hc
        rcases hc with rfl | rfl | rfl | rfl | rfl <;> decide
      · rintro rfl
        exact absurd (p.word _ hc) (by decide)
    · rw [List.mem_singleton.mp hc]
      decide
  · exact p.one_line c hc

theorem byteAt_text (p : StatPair) (rest : Bytes) :
    byteAt (p.text ++ rest) 0 = 83 ∧ byteAt (p.text ++ rest) 2 = 65 := by
  unfold text byteAt
  exact ⟨rfl, rfl⟩

theorem line_eq (p : StatPair) : p.line = (p.text ++ [13]) ++ [10] := by
  unfold line
  rw [List.append_assoc]
  rfl

/-- A line that fits is a STAT response. -/
def response (p : StatPair) (h : p.Fits) : ResponseLine where
  text := p.text
  one_line := p.text_one_line
  short := h
  no_value := by
    unfold lineBuffer
    rw [List.append_assoc, (p.byteAt_text _).1]
    simp

theorem response_code (p : StatPair) (h : p.Fits) : (p.response h).code = STAT := by
  unfold ResponseLine.code ResponseLine.bytes response replyCode lineBuffer
  rw [List.append_assoc, (p.byteAt_text _).1, (p.byteAt_text _).2]
  rfl

/-- What the parser finds in the line. -/
theorem parse_line (p : StatPair) : parseStatLine (lineBuffer p.line) = (p.key, p.word_value) := by
  have hbuffer : (lineBuffer p.line).drop 5 = p.key ++ 32 :: (p.value ++ 13 ::
      (10 :: List.replicate (MEMCACHED_DEFAULT_COMMAND_SIZE - p.line.length) 0)) := by
    unfold lineBuffer line text
    simp only [List.append_assoc]
    rfl
  have hkey : ∀ rest, (p.key ++ 32 :: rest).takeWhile isgraph = p.key := by
    intro rest
    rw [List.takeWhile_append_of_pos p.word, List.takeWhile_cons_of_neg (by decide),
      List.append_nil]
  have hvalue : ∀ rest, (p.value ++ 13 :: rest).takeWhile (fun c => !isspace c) =
      p.value.takeWhile fun c => !isspace c := by
    intro rest
    rw [List.takeWhile_append, List.takeWhile_cons_of_neg (by decide), List.append_nil]
    split_ifs with hall
    · exact (List.takeWhile_prefix _).eq_of_length hall |>.symm
    · rfl
  unfold parseStatLine
  simp only [hbuffer, hkey]
  have hdrop : ∀ rest : Bytes, (p.key ++ 32 :: rest).drop (p.key.length + 1) = rest := by
    intro rest
    rw [← List.drop_drop, List.drop_left]
    rfl
  rw [hdrop, hvalue]
  rfl

end StatPair

/-! ## Reading them -/

/-- A line that does not fit the buffer is a protocol error. -/
theorem readline_long (ptr : memcached_server_st) (size : Nat) (line rest : Bytes)
    (h : ptr.input.bytes = line ++ 10 :: rest) (hline : ∀ c ∈ line, c ≠ 10)
    (hsize : size ≤ line.length + 1) : (memcached_io_readline ptr size).1 = PROTOCOL_ERROR := by
  induction line generalizing ptr size with
  | nil =>
    cases size with
    | zero => rfl
    | succ size =>
      obtain ⟨j, hj, -⟩ := Input.next_some h
      have hzero : size = 0 := by
        simp only [List.length_nil] at hsize
        omega
      simp [memcached_io_readline, hj, hzero]
  | cons c cs ih =>
    cases size with
    | zero => rfl
    | succ size =>
      obtain ⟨j, hj, hb⟩ := Input.next_some h
      have hc : c ≠ 10 := hline c (by simp)
      have hrec := ih { ptr with input := j } size hb (fun x hx => hline x (by simp [hx]))
        (by simp only [List.length_cons] at hsize; omega)
      simp [memcached_io_readline, hj, hc, hrec]

section

variable {host : memcached_server_st} (result : memcached_result_st) (stat : memcached_stat_st)
  (fuel : Nat)

/-- The buffer after a response line. -/
theorem buffer_of_line {line : ResponseLine} {rest : Bytes}
    (h : host.input.bytes = line.bytes ++ rest) :
    (memcached_io_readline host MEMCACHED_DEFAULT_COMMAND_SIZE).2.1 = line.bytes := by
  have hsplit : host.input.bytes = (line.text ++ [13]) ++ 10 :: rest := by
    rw [h, ResponseLine.bytes]
    simp
  have hno : ∀ c ∈ line.text ++ [13], c ≠ 10 := by
    intro c hc
    rcases List.mem_append.mp hc with hc | hc
    · exact line.one_line c hc
    · rw [List.mem_singleton.mp hc]
      decide
  have hshort := line.short
  obtain ⟨j, hline, -⟩ := readline_append host MEMCACHED_DEFAULT_COMMAND_SIZE _ _ hsplit hno
    (by simp only [List.length_append, List.length_singleton]; omega)
  rw [hline]
  simp [ResponseLine.bytes]

theorem readLines_stat (hcount : host.cursor_active = 1) (p : StatPair) (hfits : p.Fits)
    {rest : Bytes} (h : host.input.bytes = p.line ++ rest) :
    ∃ input : Input, input.bytes = rest ∧
      memcached_stat_st.readLines (fuel + 1) host result stat =
        (set_data stat p.key p.word_value).bind
          (memcached_stat_st.readLines fuel { host with input } result) := by
  have hbytes : host.input.bytes = (p.response hfits).bytes ++ rest := h
  obtain ⟨j, hr, hj⟩ := textual_read_line host.response_decrement result (p.response hfits) rest
    hbytes
  have hresponse : memcached_response .text host MEMCACHED_DEFAULT_COMMAND_SIZE result =
      (STAT, { host with input := j }, result) := by
    rw [memcached_response_one _ _ _ _ hcount]
    rw [p.response_code hfits] at hr
    simp only [memcached_read_one_response, hr, outOfStep, stillPending, true_or, if_true,
      Bool.false_eq_true, if_false]
    simp [response_decrement, response_increment, hcount, UINT32_MAX]
  refine ⟨j, hj, ?_⟩
  rw [memcached_stat_st.readLines, hresponse, buffer_of_line hbytes]
  simp only [if_true]
  have hparse : parseStatLine (lineBuffer (p.response hfits).bytes) = (p.key, p.word_value) :=
    p.parse_line
  rw [hparse]
  cases set_data stat p.key p.word_value <;> rfl

theorem readLines_long (hcount : host.cursor_active = 1) (p : StatPair) (hlong : ¬ p.Fits)
    {rest : Bytes} (h : host.input.bytes = p.line ++ rest) :
    memcached_stat_st.readLines (fuel + 1) host result stat = some (stat, PROTOCOL_ERROR) := by
  have hsplit : host.response_decrement.input.bytes = (p.text ++ [13]) ++ 10 :: rest := by
    rw [response_decrement_input, h, p.line_eq, List.append_assoc]
    rfl
  have hno : ∀ c ∈ p.text ++ [13], c ≠ 10 := by
    intro c hc
    rcases List.mem_append.mp hc with hc | hc
    · exact p.text_one_line c hc
    · rw [List.mem_singleton.mp hc]
      decide
  have hline := readline_long _ MEMCACHED_DEFAULT_COMMAND_SIZE _ _ hsplit hno (by
    unfold StatPair.Fits at hlong
    simp only [List.length_append, List.length_singleton]
    omega)
  have hresponse : (memcached_response .text host MEMCACHED_DEFAULT_COMMAND_SIZE result).1 =
      PROTOCOL_ERROR := by
    rw [memcached_response_one _ _ _ _ hcount]
    unfold memcached_read_one_response textual_read_one_response
    rcases hread : memcached_io_readline host.response_decrement MEMCACHED_DEFAULT_COMMAND_SIZE
      with ⟨rc, line, ptr⟩
    rw [hread] at hline
    obtain rfl : rc = PROTOCOL_ERROR := hline
    dsimp only
    rw [hread]
    rfl
  unfold memcached_stat_st.readLines
  rcases hout : memcached_response .text host MEMCACHED_DEFAULT_COMMAND_SIZE result
    with ⟨rc, host', result'⟩
  rw [hout] at hresponse
  obtain rfl : rc = PROTOCOL_ERROR := hresponse
  rfl

/-- The end marker as a response line. -/
def endLine : ResponseLine where
  text := ascii ['E', 'N', 'D']
  one_line := by simp [ascii]
  short := by simp [ascii, MEMCACHED_DEFAULT_COMMAND_SIZE]
  no_value := by decide

theorem readLines_end (hcount : host.cursor_active = 1) (h : host.input.bytes = endText) :
    memcached_stat_st.readLines (fuel + 1) host result stat = some (stat, SUCCESS) := by
  have hbytes : host.response_decrement.input.bytes = endLine.bytes ++ [] := by
    rw [response_decrement_input, h, List.append_nil]
    rfl
  obtain ⟨j, hr, -⟩ := textual_read_line host.response_decrement result endLine [] hbytes
  have hcode : endLine.code = END := by decide
  rw [hcode] at hr
  unfold memcached_stat_st.readLines
  rw [memcached_response_one _ _ _ _ hcount]
  simp only [memcached_read_one_response, hr]
  rfl

end

/-! ## A whole answer -/

/-- The bytes of a whole answer. -/
def statsText (pairs : List StatPair) : Bytes := pairs.flatMap StatPair.line ++ endText

/-- `set_data` for one pair after the other. -/
def storePairs (stat : memcached_stat_st) : List StatPair → Option memcached_stat_st
  | [] => some stat
  | p :: ps => (set_data stat p.key p.word_value).bind fun stat => storePairs stat ps

theorem statsText_cons (p : StatPair) (pairs : List StatPair) :
    statsText (p :: pairs) = p.line ++ statsText pairs := by
  unfold statsText
  rw [List.flatMap_cons, List.append_assoc]

/-- Lines that fit are all stored. -/
theorem readLines_pairs {pairs : List StatPair} (hfits : ∀ p ∈ pairs, p.Fits)
    (host : memcached_server_st) (result : memcached_result_st) (stat : memcached_stat_st)
    {fuel : Nat} (hcount : host.cursor_active = 1) (h : host.input.bytes = statsText pairs)
    (hfuel : pairs.length < fuel) :
    memcached_stat_st.readLines fuel host result stat =
      (storePairs stat pairs).map fun stat => (stat, SUCCESS) := by
  obtain ⟨fuel, rfl⟩ : ∃ k, fuel = k + 1 := ⟨fuel - 1, by omega⟩
  induction pairs generalizing host stat fuel with
  | nil => exact readLines_end result stat fuel hcount h
  | cons p pairs ih =>
    obtain ⟨hp, hpairs⟩ := List.forall_mem_cons.mp hfits
    rw [statsText_cons] at h
    obtain ⟨input, hinput, hread⟩ := readLines_stat result stat fuel hcount p hp h
    rw [hread, storePairs]
    cases hset : set_data stat p.key p.word_value with
    | none => rfl
    | some stat₁ =>
      simp only [List.length_cons] at hfuel
      obtain ⟨fuel, rfl⟩ : ∃ k, fuel = k + 1 := ⟨fuel - 1, by omega⟩
      exact ih hpairs { host with input } stat₁ hcount hinput fuel (by omega)

/-- When the answer is read to its end, all lines fit. -/
theorem fits_of_readLines {pairs : List StatPair} (host : memcached_server_st)
    {result : memcached_result_st} {stat stat' : memcached_stat_st} {fuel : Nat}
    (hcount : host.cursor_active = 1) (h : host.input.bytes = statsText pairs)
    (hfuel : pairs.length < fuel)
    (hread : memcached_stat_st.readLines fuel host result stat = some (stat', SUCCESS)) :
    ∀ p ∈ pairs, p.Fits := by
  obtain ⟨fuel, rfl⟩ : ∃ k, fuel = k + 1 := ⟨fuel - 1, by omega⟩
  induction pairs generalizing host stat fuel with
  | nil => simp
  | cons p pairs ih =>
    rw [statsText_cons] at h
    by_cases hp : p.Fits
    · obtain ⟨input, hinput, hline⟩ := readLines_stat result stat fuel hcount p hp h
      rw [hline] at hread
      obtain ⟨stat₁, -, hrest⟩ := Option.bind_eq_some_iff.mp hread
      simp only [List.length_cons] at hfuel
      obtain ⟨fuel, rfl⟩ : ∃ k, fuel = k + 1 := ⟨fuel - 1, by omega⟩
      exact List.forall_mem_cons.mpr
        ⟨hp, ih { host with input } hcount hinput fuel (by omega) hrest⟩
    · rw [readLines_long result stat fuel hcount p hp h] at hread
      cases hread

/-! ## What is stored -/

theorem keys_find {k : StatKey} :
    memcached_stat_keys.find? (fun j => j.name = k.name) = some k := by
  cases k <;> decide

theorem get_value_find {k : StatKey} :
    getValueOrder.find? (fun j => j.name.isPrefixOf k.name) = some k := by
  cases k <;> decide

/-- Every key of the table is printed. -/
theorem get_value_of_key (stat : memcached_stat_st) (k : StatKey) :
    memcached_stat_get_value stat k.name = some (printField (stat k)) := by
  unfold memcached_stat_get_value
  rw [get_value_find]
  rfl

theorem set_data_of_key (stat : memcached_stat_st) (k : StatKey) (value : Bytes) :
    set_data stat k.name value = (fieldFrom k value).map (Function.update stat k) := by
  unfold set_data
  rw [keys_find]

/-- Once every key has one pair, each field is that of its pair. -/
theorem storePairs_iff {pairs : List StatPair} {ks : List StatKey} (hnodup : ks.Nodup)
    (hkeys : pairs.map (·.key) = ks.map (·.name)) (stat stat' : memcached_stat_st) :
    storePairs stat pairs = some stat' ↔
      (∀ kp ∈ ks.zip pairs, fieldFrom kp.1 kp.2.word_value = some (stat' kp.1)) ∧
        ∀ k ∉ ks, stat' k = stat k := by
  induction pairs generalizing ks stat with
  | nil =>
    obtain rfl : ks = [] := by simpa using hkeys.symm
    simp only [storePairs, Option.some.injEq, List.zip_nil_left, List.not_mem_nil, not_false_eq_true,
      forall_true_left]
    constructor
    · rintro rfl
      exact ⟨by simp, fun _ => rfl⟩
    · rintro ⟨-, h⟩
      exact (funext h).symm
  | cons p pairs ih =>
    rcases ks with _ | ⟨k, ks⟩
    · simp at hkeys
    · simp only [List.map_cons, List.cons.injEq] at hkeys
      obtain ⟨hkey, hkeys⟩ := hkeys
      obtain ⟨hnot, hnodup⟩ := List.nodup_cons.mp hnodup
      rw [storePairs, hkey, set_data_of_key]
      simp only [List.zip_cons_cons, List.forall_mem_cons]
      cases hfield : fieldFrom k p.word_value with
      | none => simp
      | some f =>
        simp only [Option.map_some, Option.bind_some, Option.some.injEq]
        rw [ih hnodup hkeys]
        constructor
        · rintro ⟨hzip, hrest⟩
          have hk : f = stat' k := by
            rw [hrest k hnot, Function.update_self]
          refine ⟨⟨hk, hzip⟩, fun j hj => ?_⟩
          obtain ⟨hne, hj⟩ := not_or.mp (mt List.mem_cons.mpr hj)
          rw [hrest j hj, Function.update_of_ne hne]
        · rintro ⟨⟨hk, hzip⟩, hrest⟩
          refine ⟨hzip, fun j hj => ?_⟩
          by_cases hne : j = k
          · subst hne
            rw [Function.update_self, hk]
          · rw [Function.update_of_ne hne]
            exact hrest j fun hmem => (List.mem_cons.mp hmem).elim hne hj

/-! ## Values that are printed as they were sent -/

/-- The value is printed as it was sent: a number without superfluous digits
that the field has room for, or a short word. -/
def PrintsBack (k : StatKey) (value : Bytes) : Prop :=
  match k.kind with
  | .narrow => ∃ n < 2 ^ 32, value = decimal n
  | .wide => ∃ n < 2 ^ 63, value = decimal n
  | .rusage => ∃ a < 2 ^ 32, ∃ b < 2 ^ 32, value = decimal a ++ ascii ['.'] ++ decimal b
  | .text => value.length < MEMCACHED_VERSION_STRING_LENGTH ∧ ∀ c ∈ value, isspace c = false ∧ c ≠ 0

/-- Bytes without white space and NULs are one word. -/
theorem word_of_plain {value : Bytes} (h : ∀ c ∈ value, isspace c = false ∧ c ≠ 0) :
    cString (value.takeWhile fun c => !isspace c) = value := by
  have hword : value.takeWhile (fun c => !isspace c) = value := by
    apply List.takeWhile_eq_self_iff.mpr
    intro c hc
    rw [(h c hc).1]
    rfl
  rw [hword]
  unfold cString
  apply List.takeWhile_eq_self_iff.mpr
  intro c hc
  simpa using (h c hc).2

theorem plain_of_word {value : Bytes} (h : cString (value.takeWhile fun c => !isspace c) = value) :
    ∀ c ∈ value, isspace c = false ∧ c ≠ 0 := by
  intro c hc
  rw [← h] at hc
  unfold cString at hc
  have hnul := List.mem_takeWhile_imp hc
  have hspace := List.mem_takeWhile_imp ((List.takeWhile_prefix _).subset hc)
  exact ⟨by simpa using hspace, by simpa using hnul⟩

theorem plain_of_isdigit {c : UInt8} (h : isdigit c = true) : isspace c = false ∧ c ≠ 0 := by
  refine ⟨isspace_of_isdigit c h, ?_⟩
  rintro rfl
  exact absurd h (by decide)

theorem not_punct_of_isdigit {c : UInt8} (h : isdigit c = true) : ispunct c = false := by
  simp only [isdigit, Bool.and_eq_true, decide_eq_true_eq, UInt8.le_iff_toNat_le] at h
  simp only [ispunct, Bool.or_eq_false_iff, Bool.and_eq_false_iff, decide_eq_false_iff_not,
    UInt8.le_iff_toNat_le]
  simp at h ⊢
  omega

/-- `strtoll` reads back what was printed, up to the largest `long long`. -/
theorem strtoll_decimal (n : Nat) : strtoll (decimal n) = min (2 ^ 63 - 1) (n : Int) := by
  have hread := readDigits_decimal_end n
  have hdigits := decimal_digits n
  rcases hd : decimal n with _ | ⟨d, ds⟩
  · exact absurd hd (decimal_ne_nil n)
  · have hdd : isdigit d = true := hdigits d (by simp [hd])
    have h45 : d ≠ 45 := by
      rintro rfl
      exact absurd hdd (by decide)
    have h43 : d ≠ 43 := by
      rintro rfl
      exact absurd hdd (by decide)
    rw [hd] at hread
    unfold strtoll
    simp only [List.dropWhile_cons, isspace_of_isdigit d hdd, Bool.false_eq_true, if_false, sign,
      h45, h43, hread]

theorem castTo_lt (bits : Nat) (v : Int) : castTo bits v < 2 ^ bits := by
  have hpos : (0 : Int) < 2 ^ bits := Int.pow_pos (by decide)
  have hlt := Int.emod_lt_of_pos v hpos
  have hnonneg := Int.emod_nonneg v (Int.ne_of_gt hpos)
  unfold castTo
  rw [Int.toNat_lt hnonneg]
  push_cast
  exact hlt

theorem castTo_strtoll_decimal {n : Nat} (h : n < 2 ^ 32) :
    castTo 32 (strtoll (decimal n)) = n := by
  rw [strtoll_decimal]
  unfold castTo
  omega

/-- A number is printed back when nothing of it is lost. -/
theorem number_prints_back {value : Bytes} {bits : Nat} :
    decimal (castTo bits (strtoll (cString (value.takeWhile fun c => !isspace c)))) = value ↔
      ∃ n, value = decimal n ∧ castTo bits (min (2 ^ 63 - 1) (n : Int)) = n := by
  have hplain : ∀ n, ∀ c ∈ decimal n, isspace c = false ∧ c ≠ 0 := fun n c hc =>
    plain_of_isdigit (decimal_digits n c hc)
  have hback : ∀ n, strtoll (cString ((decimal n).takeWhile fun c => !isspace c)) =
      min (2 ^ 63 - 1) (n : Int) := by
    intro n
    rw [word_of_plain (hplain n), strtoll_decimal]
  constructor
  · intro h
    refine ⟨_, h.symm, ?_⟩
    rw [← hback, h]
  · rintro ⟨n, rfl, hn⟩
    rw [hback, hn]

theorem rusageFrom_decimal {a b : Nat} (ha : a < 2 ^ 32) (hb : b < 2 ^ 32) :
    rusageFrom (decimal a ++ ascii ['.'] ++ decimal b) = some (.rusage a b) := by
  have hseconds : (decimal a ++ ascii ['.'] ++ decimal b).takeWhile (fun c => !ispunct c) =
      decimal a := by
    rw [List.append_assoc, List.takeWhile_append_of_pos fun c hc => by
      rw [not_punct_of_isdigit (decimal_digits a c hc)]
      rfl]
    exact List.append_nil _
  have hlength : (decimal a).length ≠ (decimal a ++ ascii ['.'] ++ decimal b).length := by
    simp only [List.length_append]
    have : (ascii ['.']).length = 1 := rfl
    omega
  have hrest : (decimal a ++ ascii ['.'] ++ decimal b).drop ((decimal a).length + 1) =
      decimal b := by
    rw [List.append_assoc, ← List.drop_drop, List.drop_left]
    rfl
  unfold rusageFrom
  simp only [hseconds, hlength, if_false, hrest, castTo_strtoll_decimal ha,
    castTo_strtoll_decimal hb]

theorem prints_back_iff (k : StatKey) (p : StatPair) :
    (∃ f, fieldFrom k p.word_value = some f ∧ printField f = p.value) ↔ PrintsBack k p.value := by
  unfold fieldFrom PrintsBack StatPair.word_value
  cases k.kind with
  | narrow =>
    simp only [Option.some.injEq, exists_eq_left', printField]
    rw [number_prints_back]
    constructor
    · rintro ⟨n, hn, hcast⟩
      have := castTo_lt 32 (min (2 ^ 63 - 1) (n : Int))
      exact ⟨n, by omega, hn⟩
    · rintro ⟨n, hlt, hn⟩
      refine ⟨n, hn, ?_⟩
      unfold castTo
      omega
  | wide =>
    simp only [Option.some.injEq, exists_eq_left', printField]
    rw [number_prints_back]
    unfold castTo
    constructor
    · rintro ⟨n, hn, hcast⟩
      exact ⟨n, by omega, hn⟩
    · rintro ⟨n, hlt, hn⟩
      exact ⟨n, hn, by omega⟩
  | rusage =>
    simp only
    constructor
    · rintro ⟨f, hf, hprint⟩
      unfold rusageFrom at hf
      dsimp only at hf
      split_ifs at hf
      cases hf
      exact ⟨_, castTo_lt _ _, _, castTo_lt _ _, hprint.symm⟩
    · rintro ⟨a, ha, b, hb, hvalue⟩
      have hplain : ∀ c ∈ p.value, isspace c = false ∧ c ≠ 0 := by
        intro c hc
        rw [hvalue] at hc
        rcases List.mem_append.mp hc with hc | hc
        · rcases List.mem_append.mp hc with hc | hc
          · exact plain_of_isdigit (decimal_digits a c hc)
          · obtain rfl : c = 46 := List.mem_singleton.mp hc
            decide
        · exact plain_of_isdigit (decimal_digits b c hc)
      rw [word_of_plain hplain, hvalue]
      exact ⟨_, rusageFrom_decimal ha hb, rfl⟩
  | text =>
    simp only
    constructor
    · rintro ⟨f, hf, hprint⟩
      split_ifs at hf with hshort
      cases hf
      have hword : cString (p.value.takeWhile fun c => !isspace c) = p.value := hprint
      rw [hword] at hshort
      exact ⟨hshort, plain_of_word hword⟩
    · rintro ⟨hshort, hplain⟩
      rw [word_of_plain hplain, if_pos hshort]
      exact ⟨_, rfl, rfl⟩

theorem storePairs_some {pairs : List StatPair} {ks : List StatKey}
    (hkeys : pairs.map (·.key) = ks.map (·.name)) (stat : memcached_stat_st)
    (h : ∀ kp ∈ ks.zip pairs, PrintsBack kp.1 kp.2.value) :
    ∃ stat', storePairs stat pairs = some stat' := by
  induction pairs generalizing ks stat with
  | nil => exact ⟨stat, rfl⟩
  | cons p pairs ih =>
    rcases ks with _ | ⟨k, ks⟩
    · simp at hkeys
    · simp only [List.map_cons, List.cons.injEq] at hkeys
      simp only [List.zip_cons_cons, List.forall_mem_cons] at h
      obtain ⟨f, hf, -⟩ := (prints_back_iff k p).mpr h.1
      rw [storePairs, hkeys.1, set_data_of_key, hf]
      exact ih hkeys.2 _ h.2

/-- Such values are short. -/
theorem PrintsBack.short {k : StatKey} {value : Bytes} (h : PrintsBack k value) :
    value.length < 24 := by
  unfold PrintsBack at h
  cases hkind : k.kind with
  | narrow =>
    rw [hkind] at h
    obtain ⟨n, hn, rfl⟩ := h
    have := decimal_length (n := n) (d := 9) (by omega)
    omega
  | wide =>
    rw [hkind] at h
    obtain ⟨n, hn, rfl⟩ := h
    have := decimal_length (n := n) (d := 18) (by omega)
    omega
  | rusage =>
    rw [hkind] at h
    obtain ⟨a, ha, b, hb, rfl⟩ := h
    have hseconds := decimal_length (n := a) (d := 9) (by omega)
    have hmicroseconds := decimal_length (n := b) (d := 9) (by omega)
    have hdot : (ascii ['.']).length = 1 := rfl
    simp only [List.length_append]
    omega
  | text =>
    rw [hkind] at h
    exact h.1

theorem length_name (k : StatKey) : k.name.length ≤ 21 := by
  cases k <;> decide

theorem PrintsBack.fits {k : StatKey} {p : StatPair} (h : PrintsBack k p.value)
    (hkey : p.key = k.name) : p.Fits := by
  have hvalue := h.short
  have hname := length_name k
  have hstat : (ascii ['S', 'T', 'A', 'T', ' ']).length = 5 := rfl
  unfold StatPair.Fits StatPair.text MEMCACHED_DEFAULT_COMMAND_SIZE
  rw [hkey]
  simp only [List.length_append, List.length_singleton]
  omega

theorem fits_of_prints_back {pairs : List StatPair} {ks : List StatKey}
    (hkeys : pairs.map (·.key) = ks.map (·.name))
    (h : ∀ kp ∈ ks.zip pairs, PrintsBack kp.1 kp.2.value) : ∀ p ∈ pairs, p.Fits := by
  induction pairs generalizing ks with
  | nil => simp
  | cons p pairs ih =>
    rcases ks with _ | ⟨k, ks⟩
    · simp at hkeys
    · simp only [List.map_cons, List.cons.injEq] at hkeys
      simp only [List.zip_cons_cons, List.forall_mem_cons] at h
      exact List.forall_mem_cons.mpr ⟨h.1.fits hkeys.1, ih hkeys.2 h.2⟩

end Libmemcached
