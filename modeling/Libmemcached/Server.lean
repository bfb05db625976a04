-- One host of a handle: its socket, its two buffers, and the count of the
-- responses it still owes (io.c, connect.c, quit.c, do.c).
import Libmemcached.Constants
import Libmemcached.Lib.Chunks
import Libmemcached.Lib.Decimal

open Chunks

namespace Libmemcached

open memcached_return_t

/-- Why nothing more can be read from a socket. -/
inductive Fault
  | closed
  | errno
  | timeout
  | wait_failed
deriving DecidableEq

/-- What `memcached_io_read` returns for it. -/
def Fault.code : Fault → memcached_return_t
  | .closed => UNKNOWN_READ_FAILURE
  | .errno => ERRNO
  | .timeout => TIMEOUT
  | .wait_failed => FAILURE

/-- `memcached_server_st`. `input` is the read buffer with what the socket
will still deliver, and `fault` is what `read` reports after that. No code
reads `sent`: it keeps what the host took, flush by flush, for the statements
about what a call sends and where. -/
structure memcached_server_st where
  fd : Bool
  cursor_active : Nat
  input : Input
  fault : Fault
  write_buffer : Bytes
  sent : List Bytes
deriving DecidableEq

/-- The codes of a connect that failed (connect.c). -/
def isConnectFailure : memcached_return_t → Bool
  | ERRNO | TIMEOUT | HOST_LOOKUP_FAILURE | FAILURE | CONNECTION_FAILURE
  | CONNECTION_SOCKET_CREATE_FAILURE | SERVER_MARKED_DEAD => true
  | _ => false

/-- What the hosts and the network do during one call: the code that a
connect gives, whether the socket of a connect that failed is left open,
whether a host takes the bytes written to it, what it sends for the bytes of a
flush, and which of the polled hosts the poll number `i` of the handle finds
readable (none when it times out or is interrupted). -/
structure Network (n : Nat) where
  connect : Fin n → memcached_return_t
  connect_code : ∀ s, connect s = SUCCESS ∨ isConnectFailure (connect s) = true
  -- network_connect closes the socket, unix_socket_connect does not
  leaves_open : Fin n → Bool := fun _ => false
  accepts : Fin n → Bytes → Bool
  answer : Fin n → Bytes → List Chunk × Fault
  poll : Nat → List (Fin n) → List (Fin n)

variable {n : Nat}

theorem connects_at_once (_ : Fin n) : SUCCESS = SUCCESS ∨ isConnectFailure SUCCESS = true := .inl rfl

/-- The largest `uint32_t`. -/
def UINT32_MAX : Nat := 4294967295

namespace memcached_server_st

/-- The state after `_server_init`. -/
def init : memcached_server_st := ⟨false, 0, Input.empty, .closed, [], []⟩

/-! ## The count of the responses

`cursor_active` is a `uint32_t`, which wraps around at both ends. -/

def response_increment (ptr : memcached_server_st) : memcached_server_st :=
  { ptr with cursor_active := if ptr.cursor_active = UINT32_MAX then 0 else ptr.cursor_active + 1 }

def response_decrement (ptr : memcached_server_st) : memcached_server_st :=
  { ptr with cursor_active := if ptr.cursor_active = 0 then UINT32_MAX else ptr.cursor_active - 1 }

def response_reset (ptr : memcached_server_st) : memcached_server_st :=
  { ptr with cursor_active := 0 }

@[simp] theorem response_increment_input (ptr : memcached_server_st) :
    ptr.response_increment.input = ptr.input := rfl

@[simp] theorem response_decrement_input (ptr : memcached_server_st) :
    ptr.response_decrement.input = ptr.input := rfl

@[simp] theorem response_decrement_fault (ptr : memcached_server_st) :
    ptr.response_decrement.fault = ptr.fault := rfl

/-- A response that is read and then counted again leaves the count. -/
theorem response_decrement_increment (ptr : memcached_server_st)
    (h : ptr.cursor_active ≤ UINT32_MAX) : ptr.response_decrement.response_increment = ptr := by
  obtain ⟨fd, c, input, fault, wb, sent⟩ := ptr
  simp only [response_decrement, response_increment, memcached_server_st.mk.injEq, true_and,
    and_true]
  simp only at h
  split_ifs <;> omega

end memcached_server_st

/-- `memcached_quit_server`: the socket is closed, and what was buffered in
either direction is gone. -/
def memcached_quit_server (ptr : memcached_server_st) : memcached_server_st :=
  { memcached_server_st.init with sent := ptr.sent }

/-- `memcached_io_reset`. -/
def memcached_io_reset (ptr : memcached_server_st) : memcached_server_st :=
  memcached_quit_server ptr

/-- `memcached_connect`: an open socket is used as it is, also when it was
left open by a connect that failed. -/
def memcached_connect (net : Network n) (s : Fin n) (ptr : memcached_server_st) :
    memcached_return_t × memcached_server_st :=
  if ptr.fd then (SUCCESS, ptr)
  else
    match net.connect s with
    | SUCCESS => (SUCCESS, { ptr with fd := true })
    | rc => (rc, { ptr with fd := net.leaves_open s })

/-! ## Reading -/

/-- `memcached_io_read`, and `memcached_safe_read`, which repeats it until
all `length` bytes are there. A read error closes the connection. -/
def memcached_io_read (ptr : memcached_server_st) (length : Nat) :
    memcached_return_t × Bytes × memcached_server_st :=
  match ptr.input.take length with
  | some (bytes, input) => (SUCCESS, bytes, { ptr with input })
  | none => (ptr.fault.code, [], memcached_quit_server ptr)

/-- `memcached_io_readline`, with room for `size` bytes: a line that fills
the room is a protocol error. -/
def memcached_io_readline (ptr : memcached_server_st) :
    (size : Nat) → memcached_return_t × Bytes × memcached_server_st
  | 0 => (PROTOCOL_ERROR, [], ptr)
  | size + 1 =>
    match ptr.input.next with
    | none => (ptr.fault.code, [], memcached_quit_server ptr)
    | some (c, input) =>
      if c = 10 then
        (if size = 0 then PROTOCOL_ERROR else SUCCESS, [c], { ptr with input })
      else
        let (rc, line, ptr') := memcached_io_readline { ptr with input } size
        (rc, c :: line, ptr')

theorem io_read_append (ptr : memcached_server_st) (bs rest : Bytes)
    (h : ptr.input.bytes = bs ++ rest) :
    ∃ input, memcached_io_read ptr bs.length = (SUCCESS, bs, { ptr with input }) ∧
      input.bytes = rest := by
  obtain ⟨j, hj, hb⟩ := Input.take_append h
  exact ⟨j, by simp [memcached_io_read, hj], hb⟩

theorem io_read_short (ptr : memcached_server_st) (length : Nat)
    (h : ptr.input.bytes.length < length) :
    memcached_io_read ptr length = (ptr.fault.code, [], memcached_quit_server ptr) := by
  simp [memcached_io_read, Input.take_none h]

/-- A whole line that leaves room in the buffer is read, and nothing more. -/
theorem readline_append (ptr : memcached_server_st) (size : Nat) (line rest : Bytes)
    (h : ptr.input.bytes = line ++ 10 :: rest) (hline : ∀ c ∈ line, c ≠ 10)
    (hsize : line.length + 1 < size) :
    ∃ input, memcached_io_readline ptr size = (SUCCESS, line ++ [10], { ptr with input }) ∧
      input.bytes = rest := by
  induction line generalizing ptr size with
  | nil =>
    obtain ⟨size, rfl⟩ : ∃ k, size = k + 1 := ⟨size - 1, by omega⟩
    obtain ⟨j, hj, hb⟩ := Input.next_some h
    refine ⟨j, ?_, hb⟩
    have hs : size ≠ 0 := by simp only [List.length_nil] at hsize; omega
    simp [memcached_io_readline, hj, hs]
  | cons c cs ih =>
    obtain ⟨size, rfl⟩ : ∃ k, size = k + 1 := ⟨size - 1, by omega⟩
    obtain ⟨j, hj, hb⟩ := Input.next_some h
    have hc : c ≠ 10 := hline c (by simp)
    obtain ⟨input, hrec, hrest⟩ := ih { ptr with input := j } size hb
      (fun x hx => hline x (by simp [hx])) (by simp only [List.length_cons] at hsize; omega)
    exact ⟨input, by simp [memcached_io_readline, hj, hc, hrec], hrest⟩

/-- When the bytes end before the line does, the read fails as the socket
does. -/
theorem readline_short (ptr : memcached_server_st) (size : Nat)
    (hbytes : ∀ c ∈ ptr.input.bytes, c ≠ 10) (hsize : ptr.input.bytes.length < size) :
    ∃ line, memcached_io_readline ptr size = (ptr.fault.code, line, memcached_quit_server ptr) := by
  induction size generalizing ptr with
  | zero => omega
  | succ size ih =>
    rcases hb : ptr.input.bytes with _ | ⟨c, cs⟩
    · exact ⟨[], by simp [memcached_io_readline, Input.next_none.mpr hb]⟩
    · obtain ⟨j, hj, hjb⟩ := Input.next_some hb
      rw [hb] at hbytes hsize
      have hc : c ≠ 10 := hbytes c (by simp)
      obtain ⟨line, hrec⟩ := ih { ptr with input := j }
        (fun x hx => hbytes x (by simp only [hjb] at hx; simp [hx]))
        (by simp only [hjb]; simp only [List.length_cons] at hsize; omega)
      exact ⟨c :: line, by simp [memcached_io_readline, hj, hc, hrec, memcached_quit_server]⟩

/-! ## Writing -/

/-- `memcached_io_write` and `memcached_io_writev`: the bytes go behind those
already in the write buffer, and a flush hands them all to the host, which
answers. A failed write closes the connection. When a long request fills the
buffer the kernel takes a part of it earlier, which nothing here can see. -/
def memcached_io_write (net : Network n) (s : Fin n) (ptr : memcached_server_st) (buffer : Bytes)
    (with_flush : Bool) : Bool × memcached_server_st :=
  let request := ptr.write_buffer ++ buffer
  if net.accepts s request = false then (false, memcached_quit_server ptr)
  else if with_flush = false then (true, { ptr with write_buffer := request })
  else if request = [] then (true, ptr)
  else
    let (chunks, fault) := net.answer s request
    (true, { ptr with
      write_buffer := []
      input := ptr.input.feed chunks
      fault
      sent := ptr.sent ++ [request] })

/-- `memcached_do` and `memcached_vdo`: connect, write, and count the
response (no_reply is off). -/
def memcached_vdo (net : Network n) (s : Fin n) (ptr : memcached_server_st) (command : Bytes)
    (with_flush : Bool) : memcached_return_t × memcached_server_st :=
  match memcached_connect net s ptr with
  | (SUCCESS, ptr) =>
    match memcached_io_write net s ptr command with_flush with
    | (false, ptr) => (WRITE_FAILURE, ptr)
    | (true, ptr) => (SUCCESS, ptr.response_increment)
  | (rc, ptr) => (rc, ptr)

end Libmemcached
