-- The same run of calls on two `$memc`, one of the text and one of the binary
-- protocol.
import Libmemcached.BinaryCommands
import Libmemcached.Histories

open Chunks Queues

namespace Libmemcached

open memcached_return_t memcached_server_st

variable {n : Nat}

/-! ## The calls -/

/-- One call with its arguments. `rc` is a code that the call records and that
the model leaves out. -/
inductive WrapperCall
  | plain (call : KeyedCall) (key : SV)
  | byKey (call : KeyedCall) (master_key key : SV)
  | mget (master_key : Option SV) (keys : List Bytes)
  | fetch (flags : UInt32) (error : ReturnSV)
  | mget_into_hashref (keys : List Bytes) (dest_ref : HV)
  | get_multi (keys : List Bytes)
  | incr_decr (op : IncrDecr) (key : SV) (offset : UInt64) (rc : memcached_return_t)
  | flush (expiration : UInt64)
  | quit
  | version (rc : memcached_return_t)

namespace WrapperCall

/-- What the call does, in the protocol of the handle. -/
def run (net : Network n) (state : lmc_state_st n) : WrapperCall → lmc_state_st n
  | plain call key => call.plain state key net
  | byKey call master_key key => call.byKey state master_key key net
  | mget master_key keys => (xs_memcached_mget net state master_key keys).1
  | fetch flags error => (xs_memcached_fetch net state flags error).1
  | mget_into_hashref keys dest_ref => (xs_mget_into_hashref net state keys dest_ref).state
  | get_multi keys => (xs_get_multi net state keys).state
  | incr_decr op key offset rc =>
    recordReturn { state with ptr := memcached_incr_decr net state.ptr op (SvPV key) offset } rc
  | flush expiration =>
    let (ptr, rc) := memcached_flush net state.ptr expiration
    recordReturn { state with ptr } rc
  | quit => { state with ptr := memcached_quit state.ptr }
  | version rc =>
    let (ptr, _) := match state.ptr.protocol with
      | .binary => memcached_stat_binary net state.ptr
      | .text => memcached_stat net state.ptr
    recordReturn { state with ptr } rc

/-- The keys that the call asks for. -/
def asked : WrapperCall → List Bytes
  | plain call key | byKey call _ key => if call.fetches then [SvPV key] else []
  | mget _ keys | mget_into_hashref keys _ | get_multi keys => keys
  | _ => []

/-- The key of a command that is not a get. -/
def commanded : WrapperCall → List Bytes
  | plain call key | byKey call _ key => if call.fetches then [] else [SvPV key]
  | incr_decr _ key _ _ => [SvPV key]
  | _ => []

/-- The hosts that the call sends a command other than a get. -/
def Commands (ptr : memcached_st n) (s : Fin n) : WrapperCall → Prop
  | plain call key => call.fetches = false ∧ ∃ hn, s = storageHost ptr hn (SvPV key)
  | byKey call master_key _ => call.fetches = false ∧ ∃ hn, s = storageHost ptr hn (SvPV master_key)
  | incr_decr _ key _ _ => ∃ hn, s = storageHost ptr hn (SvPV key)
  | flush _ | version _ => True
  | _ => False

/-- Its keys are such that both protocols carry them unchanged, and the get
of the binary protocol does not refuse them. -/
structure Carried (call : WrapperCall) : Prop where
  asked : ∀ key ∈ call.asked, Clean key ∧ memcached_validate_key_length key.length true = SUCCESS
  commanded : ∀ key ∈ call.commanded, Clean key

/-- The hosts that it sends a command owe no response to an earlier get. -/
def Idle (call : WrapperCall) (ptr : memcached_st n) : Prop :=
  ∀ s, call.Commands ptr s → (ptr.servers s).cursor_active = 0

/-- A flush succeeds. -/
def Succeeds (call : WrapperCall) (net : Network n) (ptr : memcached_st n) : Prop :=
  match call with
  | flush expiration => (memcached_flush net ptr expiration).2 = SUCCESS
  | _ => True

/-- On a handle of the text protocol it is one of the calls of a run. -/
theorem does (call : WrapperCall) (hkeys : call.Carried) (net : Network n)
    {state : lmc_state_st n} (htext : state.ptr.protocol = .text) :
    Does net state (call.run net state) := by
  have hasked : ∀ key ∈ call.asked, OneLine key := fun key hkey => (hkeys.asked key hkey).1.oneLine
  have hcommanded := hkeys.commanded
  cases call with
  | plain call key =>
    apply Does.plain
    unfold KeyedCall.InLine
    split_ifs with hfetches
    · exact hasked _ (by simp [asked, hfetches])
    · exact hcommanded _ (by simp [commanded, hfetches])
  | byKey call master_key key =>
    apply Does.byKey
    unfold KeyedCall.InLine
    split_ifs with hfetches
    · exact hasked _ (by simp [asked, hfetches])
    · exact hcommanded _ (by simp [commanded, hfetches])
  | mget master_key keys => exact .mget master_key keys hasked
  | fetch flags error => exact .fetch flags error
  | mget_into_hashref keys dest_ref => exact .mget_into_hashref keys hasked dest_ref
  | get_multi keys => exact .get_multi keys hasked
  | incr_decr op key offset rc =>
    exact .incr_decr op key (hcommanded _ (List.mem_singleton_self _)) offset rc
  | flush expiration =>
    simp only [run, memcached_flush, htext]
    exact .flush expiration _
  | quit => exact .quit
  | version rc =>
    simp only [run, htext]
    exact .version rc

end WrapperCall

/-- The pairs of states that the same calls lead to, in the text and in the
binary protocol. No command of the binary handle but a get goes to a host that
owes a response still. -/
inductive TwinHistory : (n : Nat) → lmc_state_st n → lmc_state_st n → Prop
  | new (n : Nat) (routing : Routing n) : TwinHistory n (lmc_state_new (.create routing .text))
      (lmc_state_new (.create routing .binary))
  | call {n : Nat} {text binary : lmc_state_st n} (h : TwinHistory n text binary)
      (call : WrapperCall) (hkeys : call.Carried) {net net' : Network n}
      {stores stores' : Fin n → Store} (hnet : Answering net stores)
      (hnet' : AnsweringBinary net' stores') (hidle : call.Idle binary.ptr)
      (hsucceeds : call.Succeeds net' binary.ptr) :
      TwinHistory n (call.run net text) (call.run net' binary)
  | server_add {n : Nat} {text binary : lmc_state_st n} (h : TwinHistory n text binary)
      (routing : Routing (n + 1)) :
      TwinHistory (n + 1) (text.server_add routing) (binary.server_add routing)

/-! ## The binary handle between two calls -/

/-- The binary protocol without cas support and without callbacks, and nothing
pending but whole answers to gets. -/
structure SettledBinary (state : lmc_state_st n) : Prop where
  binary : state.ptr.protocol = .binary
  plain : state.ptr.support_cas = false
  tidy : Tidy state.ptr
  get_cb : state.cb_context.get_cb = none

theorem settledBinary_new (routing : Routing n) :
    SettledBinary (lmc_state_new (.create routing .binary)) :=
  ⟨rfl, rfl, ⟨fun _ => none, synced_create routing .binary, by simp [AllWhole]⟩, rfl⟩

theorem SettledBinary.leads {state state' : lmc_state_st n} (h : SettledBinary state)
    (h' : Leads state state') : SettledBinary state' :=
  ⟨h'.handle.config.protocol.trans h.binary, h'.handle.config.support_cas.trans h.plain,
    h'.handle.tidy, h'.get_cb⟩

theorem SettledBinary.server_add {state : lmc_state_st n} (h : SettledBinary state)
    (routing : Routing (n + 1)) : SettledBinary (state.server_add routing) :=
  ⟨h.binary, h.plain, h.tidy.server_add routing, h.get_cb⟩

section

variable {net : Network n} {stores : Fin n → Store} {state : lmc_state_st n}
variable (h : SettledBinary state) (hnet : AnsweringBinary net stores)

include h hnet

theorem SettledBinary.mget (master_key : Option Bytes) {keys : List Bytes}
    (hkeys : ∀ key ∈ keys, Clean key ∧ memcached_validate_key_length key.length true = SUCCESS) :
    Follows state.ptr (memcached_mget_by_key net state.ptr master_key keys).1 := by
  have hserves : Serves net stores state.ptr.support_cas state.ptr.protocol
      (wholeAnswer stores false .binary) := by
    rw [h.plain, h.binary]
    exact hnet.gets
  apply h.tidy.mget_by_key hserves master_key
  · exact fun key hkey => (hkeys key hkey).1.oneLine
  · exact fun _ key hkey => (hkeys key hkey).2

/-- What every call leaves. -/
theorem SettledBinary.run (call : WrapperCall) (hkeys : call.Carried)
    (hidle : call.Idle state.ptr) (hsucceeds : call.Succeeds net state.ptr) :
    Leads state (call.run net state) := by
  have hasked := hkeys.asked
  cases call with
  | plain call key =>
    cases hfetches : call.fetches with
    | false =>
      have hhost : ∀ hn, (state.ptr.servers (storageHost state.ptr hn (SvPV key))).cursor_active =
          0 := fun hn => hidle _ ⟨hfetches, hn, rfl⟩
      apply h.tidy.plain_command h.get_cb hfetches
      · exact h.tidy.send h.binary hnet hhost
      · exact h.tidy.delete_by_key h.binary hnet hhost
    | true =>
      have hkey := hasked (SvPV key) (by simp [WrapperCall.asked, hfetches])
      exact (h.mget hnet none (by simpa using hkey)).plain_fetch h.get_cb hfetches
  | byKey call master_key key =>
    cases hfetches : call.fetches with
    | false =>
      have hhost : ∀ hn,
          (state.ptr.servers (storageHost state.ptr hn (SvPV master_key))).cursor_active = 0 :=
        fun hn => hidle _ ⟨hfetches, hn, rfl⟩
      apply h.tidy.byKey_command h.get_cb hfetches
      · exact h.tidy.send h.binary hnet hhost
      · exact h.tidy.delete_by_key h.binary hnet hhost
    | true =>
      have hkey := hasked (SvPV key) (by simp [WrapperCall.asked, hfetches])
      exact (h.mget hnet _ (by simpa using hkey)).byKey_fetch h.get_cb hfetches
  | mget master_key keys => exact (h.mget hnet _ hasked).leads_record h.get_cb _
  | fetch flags error => exact h.tidy.fetch h.get_cb flags error
  | mget_into_hashref keys dest_ref =>
    exact (h.mget hnet none hasked).mget_into_hashref h.get_cb dest_ref
  | get_multi keys => exact (h.mget hnet none hasked).get_multi h.get_cb
  | incr_decr op key offset rc =>
    have hhost : ∀ hn, (state.ptr.servers (storageHost state.ptr hn (SvPV key))).cursor_active =
        0 := fun hn => hidle _ ⟨hn, rfl⟩
    exact (h.tidy.incr_decr h.binary hnet hhost op offset).leads_record h.get_cb rc
  | flush expiration =>
    have hall : ∀ s, (state.ptr.servers s).cursor_active = 0 := fun s => hidle s trivial
    simp only [WrapperCall.Succeeds, memcached_flush, h.binary] at hsucceeds
    simp only [WrapperCall.run, memcached_flush, h.binary]
    exact (h.tidy.flush_binary h.binary hnet hall expiration hsucceeds).leads_record h.get_cb _
  | quit => exact h.tidy.quit.leads h.get_cb
  | version rc =>
    have hall : ∀ s, (state.ptr.servers s).cursor_active = 0 := fun s => hidle s trivial
    simp only [WrapperCall.run, h.binary]
    exact (h.tidy.stat_binary h.binary hnet hall).leads_record h.get_cb rc

end

/-! ## Both handles -/

/-- The two handles are settled, and send a key to the same host, without a
test of its characters. -/
structure Paired (text binary : lmc_state_st n) : Prop where
  settled_text : Settled text
  settled_binary : SettledBinary binary
  routing : binary.ptr.routing = text.ptr.routing
  unverified_text : text.ptr.verify_key = false
  unverified_binary : binary.ptr.verify_key = false

/-- It holds of every pair of states that the same calls lead to. -/
theorem TwinHistory.paired {n : Nat} {text binary : lmc_state_st n}
    (h : TwinHistory n text binary) : Paired text binary := by
  induction h with
  | new n routing => exact ⟨settled_new routing, settledBinary_new routing, rfl, rfl, rfl⟩
  | call h call hkeys hnet hnet' hidle hsucceeds ih =>
    have htext := ih.settled_text.does hnet (call.does hkeys _ ih.settled_text.orderly.text)
    have hbinary := ih.settled_binary.run hnet' call hkeys hidle hsucceeds
    refine ⟨ih.settled_text.leads htext, ih.settled_binary.leads hbinary, ?_, ?_, ?_⟩
    · rw [hbinary.handle.config.routing, ih.routing, htext.handle.config.routing]
    · rw [htext.handle.config.verify_key, ih.unverified_text]
    · rw [hbinary.handle.config.verify_key, ih.unverified_binary]
  | server_add h routing ih =>
    exact ⟨ih.settled_text.server_add routing, ih.settled_binary.server_add routing, rfl,
      ih.unverified_text, ih.unverified_binary⟩

end Libmemcached
