-- How one response is read from a host, in the text and in the binary
-- protocol (string.c, result.c, response.c).
import Libmemcached.Server

open Chunks Decimal

namespace Libmemcached

open memcached_return_t memcached_server_st

/-! ## The result buffer -/

/-- `memcached_string_st`: the bytes between `string` and `end`, and the size
of the allocation. The pointer `string` is NULL while the size is 0. -/
structure memcached_string_st where
  bytes : Bytes
  current_size : Nat
deriving DecidableEq

/-- `memcached_string_check`: room for `need` more bytes. Memory never runs
out here. -/
def memcached_string_check (string : memcached_string_st) (need : Nat) : memcached_string_st :=
  if need ≠ 0 ∧ string.current_size - string.bytes.length < need then
    let adjust := (need - (string.current_size - string.bytes.length)) / MEMCACHED_BLOCK_SIZE + 1
    { string with current_size := string.current_size + MEMCACHED_BLOCK_SIZE * adjust }
  else string

/-- `memcached_string_reset` moves `end` back and keeps the allocation. -/
def memcached_string_reset (string : memcached_string_st) : memcached_string_st :=
  { string with bytes := [] }

/-- `memcached_string_value`: NULL when nothing was ever allocated. -/
def memcached_string_value (string : memcached_string_st) : Option Bytes :=
  if string.current_size = 0 then none else some string.bytes

/-- `memcached_result_st`. -/
structure memcached_result_st where
  item_flags : UInt32
  item_cas : UInt64
  item_key : Bytes
  value : memcached_string_st
deriving DecidableEq

/-- The state after `memcached_result_create`. -/
def memcached_result_create : memcached_result_st := ⟨0, 0, [], ⟨[], 0⟩⟩

def memcached_result_reset (result : memcached_result_st) : memcached_result_st :=
  ⟨0, 0, [], memcached_string_reset result.value⟩

/-- What reading one response gives: the code, the host, and the result
buffer of the handle. -/
abbrev Reading := memcached_return_t × memcached_server_st × memcached_result_st

/-! ## The text protocol -/

/-- The line buffer after `memcached_io_readline`: the bytes of the line, and
zeros in the place of what the stack held behind it. -/
def lineBuffer (line : Bytes) : Bytes :=
  line ++ List.replicate (MEMCACHED_DEFAULT_COMMAND_SIZE - line.length) 0

/-- The byte `buffer[i]`. -/
def byteAt (buffer : Bytes) (i : Nat) : UInt8 := buffer.getD i 0

/-- What `textual_value_fetch` finds in a VALUE line: the key, the flags, the
length of the value and the cas, which is 0 when the line has none. -/
structure ValueLine where
  item_key : Bytes
  item_flags : UInt32
  value_length : Nat
  item_cas : UInt64

/-- The parse of a VALUE line. `none` stands for `goto read_error`, which each
test for the end of the buffer leads to. -/
def parseValueLine (buffer : Bytes) : Option ValueLine :=
  let string_ptr := buffer.drop 6
  let key := string_ptr.takeWhile fun c => !(iscntrl c || isspace c)
  let string_ptr := string_ptr.drop key.length
  if string_ptr.length ≤ 1 then none
  else
    let (flags, string_ptr) := strtoull (string_ptr.drop 1)
    if string_ptr.length ≤ 1 then none
    else
      let (value_length, string_ptr) := strtoull (string_ptr.drop 1)
      if string_ptr.length = 0 then none
      else if byteAt string_ptr 0 = 13 then
        if string_ptr.length < 2 then none
        else some ⟨key, UInt32.ofNat flags, value_length, 0⟩
      else
        let (cas, _) := strtoull (string_ptr.drop 1)
        some ⟨key, UInt32.ofNat flags, value_length, UInt64.ofNat cas⟩

/-- `textual_value_fetch`: the value comes with the two bytes of its line
end. -/
def textual_value_fetch (ptr : memcached_server_st) (buffer : Bytes)
    (result : memcached_result_st) : Reading :=
  let result := memcached_result_reset result
  match parseValueLine buffer with
  | none => (PARTIAL_READ, memcached_io_reset ptr, result)
  | some line =>
    let result := { result with
      item_key := line.item_key
      item_flags := line.item_flags
      item_cas := line.item_cas
      value := memcached_string_check result.value (line.value_length + 2) }
    match memcached_io_read ptr (line.value_length + 2) with
    | (SUCCESS, bytes, ptr) =>
      (SUCCESS, ptr, { result with value.bytes := bytes.take line.value_length })
    | (rrc, _, ptr) => (rrc, ptr, result)

/-- The switch of `textual_read_one_response`: the first letters of the line
decide. -/
def textual_switch (ptr : memcached_server_st) (buffer : Bytes) (result : memcached_result_st) :
    Reading :=
  if byteAt buffer 0 = 86 then -- VALUE || VERSION
    if byteAt buffer 1 = 65 then textual_value_fetch ptr.response_increment buffer result
    else if byteAt buffer 1 = 69 then (SUCCESS, ptr, result)
    else (UNKNOWN_READ_FAILURE, ptr, result)
  else if byteAt buffer 0 = 79 then (SUCCESS, ptr, result) -- OK
  else if byteAt buffer 0 = 83 then -- STORED STATS SERVER_ERROR
    if byteAt buffer 2 = 65 then (STAT, ptr.response_increment, result)
    else if byteAt buffer 1 = 69 then (SERVER_ERROR, ptr, result)
    else if byteAt buffer 1 = 84 then (STORED, ptr, result)
    else (UNKNOWN_READ_FAILURE, ptr, result)
  else if byteAt buffer 0 = 68 then (DELETED, ptr, result)
  else if byteAt buffer 0 = 78 then -- NOT_FOUND NOT_STORED
    if byteAt buffer 4 = 70 then (NOTFOUND, ptr, result)
    else if byteAt buffer 4 = 83 then (NOTSTORED, ptr, result)
    else (UNKNOWN_READ_FAILURE, ptr, result)
  else if byteAt buffer 0 = 69 then -- END ERROR EXISTS
    if byteAt buffer 1 = 78 then (END, ptr, result)
    else if byteAt buffer 1 = 82 then (PROTOCOL_ERROR, ptr, result)
    else if byteAt buffer 1 = 88 then (DATA_EXISTS, ptr, result)
    else (UNKNOWN_READ_FAILURE, ptr, result)
  else if byteAt buffer 0 = 73 then (ITEM, ptr.response_increment, result)
  else if byteAt buffer 0 = 67 then (CLIENT_ERROR, ptr, result)
  -- sscanf(buffer, "%llu") finds a number when `strtoull` moves
  else if (strtoull buffer).2 ≠ buffer then (SUCCESS, ptr, result)
  else (UNKNOWN_READ_FAILURE, ptr, result)

/-- `textual_read_one_response`. -/
def textual_read_one_response (ptr : memcached_server_st) (result : memcached_result_st) :
    Reading :=
  match memcached_io_readline ptr MEMCACHED_DEFAULT_COMMAND_SIZE with
  | (SUCCESS, line, ptr) => textual_switch ptr (lineBuffer line) result
  | (rc, _, ptr) => (rc, ptr, result)

/-! ## The binary protocol -/

def PROTOCOL_BINARY_RES : Nat := 0x81
def PROTOCOL_BINARY_RESPONSE_AUTH_CONTINUE : Nat := 0x21

def PROTOCOL_BINARY_CMD_SET : Nat := 0x01
def PROTOCOL_BINARY_CMD_ADD : Nat := 0x02
def PROTOCOL_BINARY_CMD_REPLACE : Nat := 0x03
def PROTOCOL_BINARY_CMD_DELETE : Nat := 0x04
def PROTOCOL_BINARY_CMD_INCREMENT : Nat := 0x05
def PROTOCOL_BINARY_CMD_DECREMENT : Nat := 0x06
def PROTOCOL_BINARY_CMD_QUIT : Nat := 0x07
def PROTOCOL_BINARY_CMD_FLUSH : Nat := 0x08
def PROTOCOL_BINARY_CMD_NOOP : Nat := 0x0a
def PROTOCOL_BINARY_CMD_VERSION : Nat := 0x0b
def PROTOCOL_BINARY_CMD_GETK : Nat := 0x0c
def PROTOCOL_BINARY_CMD_GETKQ : Nat := 0x0d
def PROTOCOL_BINARY_CMD_APPEND : Nat := 0x0e
def PROTOCOL_BINARY_CMD_PREPEND : Nat := 0x0f
def PROTOCOL_BINARY_CMD_STAT : Nat := 0x10
def PROTOCOL_BINARY_CMD_SETQ : Nat := 0x11
def PROTOCOL_BINARY_CMD_ADDQ : Nat := 0x12
def PROTOCOL_BINARY_CMD_REPLACEQ : Nat := 0x13
def PROTOCOL_BINARY_CMD_APPENDQ : Nat := 0x19
def PROTOCOL_BINARY_CMD_PREPENDQ : Nat := 0x1a
def PROTOCOL_BINARY_CMD_SASL_LIST_MECHS : Nat := 0x20
def PROTOCOL_BINARY_CMD_SASL_AUTH : Nat := 0x21
def PROTOCOL_BINARY_CMD_SASL_STEP : Nat := 0x22

/-- `protocol_binary_response_header`, in host byte order. -/
structure Header where
  magic : Nat
  opcode : Nat
  keylen : Nat
  extlen : Nat
  status : Nat
  bodylen : Nat
  cas : Nat

/-- The fields of the 24 bytes of a header. -/
def parseHeader (bytes : Bytes) : Header where
  magic := ofBigEndian (bytes.take 1)
  opcode := ofBigEndian ((bytes.drop 1).take 1)
  keylen := ofBigEndian ((bytes.drop 2).take 2)
  extlen := ofBigEndian ((bytes.drop 4).take 1)
  status := ofBigEndian ((bytes.drop 6).take 2)
  bodylen := ofBigEndian ((bytes.drop 8).take 4)
  cas := ofBigEndian ((bytes.drop 16).take 8)

/-- The code for the status of a response (the last switch of
`binary_read_one_response`). -/
def statusCode (status : Nat) : memcached_return_t :=
  if status = 0x00 then SUCCESS
  else if status = 0x01 then NOTFOUND
  else if status = 0x02 then DATA_EXISTS
  else if status = 0x05 then NOTSTORED
  else if status = 0x03 then E2BIG
  else if status = 0x82 then MEMORY_ALLOCATION_FAILURE
  else if status = 0x21 then AUTH_CONTINUE
  else if status = 0x20 then AUTH_FAILURE
  else PROTOCOL_ERROR

/-- Read `size` bytes of a body into the value of the result. -/
def binary_read_value (ptr : memcached_server_st) (result : memcached_result_st) (size : Nat) :
    Reading :=
  let result := { result with value := memcached_string_check result.value size }
  match memcached_io_read ptr size with
  | (SUCCESS, bytes, ptr) => (SUCCESS, ptr, { result with value.bytes := bytes })
  | (_, _, ptr) => (UNKNOWN_READ_FAILURE, ptr, result)

/-- The body of a GETK or GETKQ response: flags, key and value. `bodylen` is a
`uint32_t`. -/
def binary_read_item (ptr : memcached_server_st) (result : memcached_result_st) (header : Header) :
    Reading :=
  let result := { memcached_result_reset result with item_cas := UInt64.ofNat header.cas }
  match memcached_io_read ptr 4 with
  | (SUCCESS, flags, ptr) =>
    let result := { result with item_flags := UInt32.ofNat (ofBigEndian flags) }
    match memcached_io_read ptr header.keylen with
    | (SUCCESS, key, ptr) =>
      binary_read_value ptr { result with item_key := key }
        ((UInt32.ofNat header.bodylen - UInt32.ofNat header.extlen -
          UInt32.ofNat header.keylen).toNat)
    | (_, _, ptr) => (UNKNOWN_READ_FAILURE, ptr, result)
  | (_, _, ptr) => (UNKNOWN_READ_FAILURE, ptr, result)

/-- Read `size` bytes that go elsewhere: into the caller's buffer, or into
the hole that swallows an error text. -/
def binary_read_elsewhere (ptr : memcached_server_st) (result : memcached_result_st) (size : Nat)
    (rc : memcached_return_t) : Reading :=
  match memcached_io_read ptr size with
  | (SUCCESS, _, ptr) => (rc, ptr, result)
  | (_, _, ptr) => (UNKNOWN_READ_FAILURE, ptr, result)

/-- The responses to the quiet storage commands. -/
def isQuietStorage (opcode : Nat) : Bool :=
  opcode = PROTOCOL_BINARY_CMD_SETQ || opcode = PROTOCOL_BINARY_CMD_ADDQ ||
    opcode = PROTOCOL_BINARY_CMD_REPLACEQ || opcode = PROTOCOL_BINARY_CMD_APPENDQ ||
    opcode = PROTOCOL_BINARY_CMD_PREPENDQ

/-- The switch over the opcode of a response whose status is success or a
continued authentication. -/
def binary_read_success (ptr : memcached_server_st) (buffer_length : Nat)
    (result : memcached_result_st) (header : Header) : Reading :=
  let op := header.opcode
  let last := statusCode header.status
  -- only the code of a completed read is replaced by that of the status
  let settle : Reading → Reading
    | (SUCCESS, ptr, result) => (last, ptr, result)
    | reading => reading
  if op = PROTOCOL_BINARY_CMD_GETKQ then
    settle (binary_read_item ptr.response_increment result header)
  else if op = PROTOCOL_BINARY_CMD_GETK then settle (binary_read_item ptr result header)
  else if op = PROTOCOL_BINARY_CMD_INCREMENT ∨ op = PROTOCOL_BINARY_CMD_DECREMENT then
    if header.bodylen ≠ 8 ∨ buffer_length ≠ 8 then (PROTOCOL_ERROR, ptr, result)
    else binary_read_elsewhere ptr result 8 last
  else if op = PROTOCOL_BINARY_CMD_SASL_LIST_MECHS ∨ op = PROTOCOL_BINARY_CMD_VERSION then
    if buffer_length ≤ header.bodylen then (UNKNOWN_READ_FAILURE, ptr, result)
    else binary_read_elsewhere ptr result header.bodylen last
  else if op = PROTOCOL_BINARY_CMD_FLUSH ∨ op = PROTOCOL_BINARY_CMD_QUIT ∨
      op = PROTOCOL_BINARY_CMD_SET ∨ op = PROTOCOL_BINARY_CMD_ADD ∨
      op = PROTOCOL_BINARY_CMD_REPLACE ∨ op = PROTOCOL_BINARY_CMD_APPEND ∨
      op = PROTOCOL_BINARY_CMD_PREPEND ∨ op = PROTOCOL_BINARY_CMD_DELETE then
    (SUCCESS, ptr, result)
  else if op = PROTOCOL_BINARY_CMD_NOOP then (END, ptr, result)
  else if op = PROTOCOL_BINARY_CMD_STAT then
    if header.bodylen = 0 then (END, ptr, result)
    else if buffer_length < header.bodylen + 1 then (UNKNOWN_READ_FAILURE, ptr, result)
    else binary_read_elsewhere ptr result header.bodylen last
  else if op = PROTOCOL_BINARY_CMD_SASL_AUTH ∨ op = PROTOCOL_BINARY_CMD_SASL_STEP then
    settle (binary_read_value ptr
      { memcached_result_reset result with item_cas := UInt64.ofNat header.cas } header.bodylen)
  else (PROTOCOL_ERROR, ptr, result)

/-- `binary_read_one_response`. The fuel bounds the quiet errors that it skips
before the response it returns: each is longer than a header. -/
def binary_read_one_response (fuel : Nat) (ptr : memcached_server_st) (buffer_length : Nat)
    (result : memcached_result_st) : Reading :=
  match memcached_io_read ptr 24 with
  | (SUCCESS, bytes, ptr) =>
    let header := parseHeader bytes
    if header.magic ≠ PROTOCOL_BINARY_RES then (PROTOCOL_ERROR, ptr, result)
    else if header.status = 0 ∨ header.status = PROTOCOL_BINARY_RESPONSE_AUTH_CONTINUE then
      binary_read_success ptr buffer_length result header
    else if header.bodylen ≠ 0 then
      match memcached_io_read ptr header.bodylen with
      | (SUCCESS, _, ptr) =>
        match fuel, isQuietStorage header.opcode with
        | fuel + 1, true => binary_read_one_response fuel ptr buffer_length result
        | _, _ => (statusCode header.status, ptr, result)
      | (_, _, ptr) => (UNKNOWN_READ_FAILURE, ptr, result)
    else (statusCode header.status, ptr, result)
  | (rc, _, ptr) => (rc, ptr, result)

/-! ## Either protocol -/

/-- The protocol of a handle (`flags.binary_protocol`). -/
inductive Protocol
  | text
  | binary
deriving DecidableEq

/-- The codes after which `memcached_read_one_response` closes the
connection. -/
def outOfStep : memcached_return_t → Bool
  | UNKNOWN_READ_FAILURE | PROTOCOL_ERROR | CLIENT_ERROR | MEMORY_ALLOCATION_FAILURE => true
  | _ => false

/-- `memcached_read_one_response`. -/
def memcached_read_one_response (p : Protocol) (ptr : memcached_server_st) (buffer_length : Nat)
    (result : memcached_result_st) : Reading :=
  let ptr := ptr.response_decrement
  let (rc, ptr, result) := match p with
    | .binary => binary_read_one_response ptr.input.bytes.length ptr buffer_length result
    | .text => textual_read_one_response ptr result
  if outOfStep rc then (rc, memcached_io_reset ptr, result) else (rc, ptr, result)

/-- The codes that let `memcached_response` go on to the next pending text
response. -/
def isExpected : memcached_return_t → Bool
  | END | STORED | SUCCESS | STAT | DELETED | NOTFOUND | NOTSTORED | DATA_EXISTS => true
  | _ => false

/-- The loop of `memcached_response`: in the text protocol the older pending
responses are read first. Each turn reads a byte or closes the connection, so
the bytes that are there bound the number of turns. -/
def purgePending (fuel : Nat) (p : Protocol) (ptr : memcached_server_st) (buffer_length : Nat)
    (result : memcached_result_st) : Reading :=
  match fuel with
  | 0 => memcached_read_one_response p ptr buffer_length result
  | fuel + 1 =>
    if p = .text ∧ 1 < ptr.cursor_active then
      let (rc, ptr, result) := memcached_read_one_response p ptr buffer_length result
      if isExpected rc then purgePending fuel p ptr buffer_length result else (rc, ptr, result)
    else memcached_read_one_response p ptr buffer_length result

/-- `memcached_response`. -/
def memcached_response (p : Protocol) (ptr : memcached_server_st) (buffer_length : Nat)
    (result : memcached_result_st) : Reading :=
  purgePending (ptr.input.bytes.length + 1) p ptr buffer_length result

end Libmemcached
