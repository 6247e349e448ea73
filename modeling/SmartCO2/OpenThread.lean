import Mathlib.Logic.Function.Basic
import Mathlib.Data.List.Basic

/-!
# The OpenThread Interface

The types that the application shares with the OpenThread stack, and the memory through
which the asynchronous functions of `dns.c` and `coap_.c` deliver their results.

`mdns_schedule_search` and `coap_schedule_post` keep the addresses of their caller's result
variables and write through them later, from a callback. A result variable is a location
`Loc`; `Memory Loc` gives each location its `bool`, its `otError` and its `otIp6Address`.
Pointers of different types never overlap, so the three are independent of each other.

Both modules own a single static client and hand out its address, so a client pointer is
either `NULL` or that address (`ClientPtr`).
-/

namespace SmartCO2

/-- The result codes `OT_ERROR_NONE`, `OT_ERROR_FAILED`, `OT_ERROR_NO_BUFS`, `OT_ERROR_BUSY`
and `OT_ERROR_ABORT` that the code names, and all the others. -/
inductive OtError
  | none | failed | noBufs | busy | abort
  | other (code : ℕ)
  deriving DecidableEq, Repr

/-- The role of the node in the Thread network, `otDeviceRole`. -/
inductive DeviceRole
  | disabled | detached | child | router | leader
  deriving DecidableEq, Repr

/-- `otIp6Address`: the 16 bytes of an address. -/
abbrev Ip6Address := BitVec 128

/-- A pointer to the one static client of a module: `NULL`, or the address of the client. -/
inductive ClientPtr
  | null | client
  deriving DecidableEq, Repr

/-! ### Result variables -/

/-- The result variables: the `bool`, the `otError` and the `otIp6Address` of a location. -/
structure Memory (Loc : Type*) where
  bool : Loc → Bool
  error : Loc → OtError
  address : Loc → Ip6Address

namespace Memory

variable {Loc : Type*}

/-- Static memory before anything is written: all zero. -/
def zero : Memory Loc where
  bool _ := false
  error _ := .none
  address _ := 0

variable [DecidableEq Loc]

/-- `*l = b` for a `bool`. -/
def setBool (m : Memory Loc) (l : Loc) (b : Bool) : Memory Loc :=
  { m with bool := Function.update m.bool l b }

/-- `*l = e` for an `otError`. -/
def setError (m : Memory Loc) (l : Loc) (e : OtError) : Memory Loc :=
  { m with error := Function.update m.error l e }

/-- `*l = a` for an `otIp6Address`. -/
def setAddress (m : Memory Loc) (l : Loc) (a : Ip6Address) : Memory Loc :=
  { m with address := Function.update m.address l a }

@[simp] theorem setBool_bool (m : Memory Loc) (l k : Loc) (b : Bool) :
    (m.setBool l b).bool k = if k = l then b else m.bool k :=
  Function.update_apply ..

@[simp] theorem setBool_error (m : Memory Loc) (l : Loc) (b : Bool) :
    (m.setBool l b).error = m.error := rfl

@[simp] theorem setBool_address (m : Memory Loc) (l : Loc) (b : Bool) :
    (m.setBool l b).address = m.address := rfl

@[simp] theorem setError_error (m : Memory Loc) (l k : Loc) (e : OtError) :
    (m.setError l e).error k = if k = l then e else m.error k :=
  Function.update_apply ..

@[simp] theorem setError_bool (m : Memory Loc) (l : Loc) (e : OtError) :
    (m.setError l e).bool = m.bool := rfl

@[simp] theorem setError_address (m : Memory Loc) (l : Loc) (e : OtError) :
    (m.setError l e).address = m.address := rfl

@[simp] theorem setAddress_address (m : Memory Loc) (l k : Loc) (a : Ip6Address) :
    (m.setAddress l a).address k = if k = l then a else m.address k :=
  Function.update_apply ..

@[simp] theorem setAddress_bool (m : Memory Loc) (l : Loc) (a : Ip6Address) :
    (m.setAddress l a).bool = m.bool := rfl

@[simp] theorem setAddress_error (m : Memory Loc) (l : Loc) (a : Ip6Address) :
    (m.setAddress l a).error = m.error := rfl

end Memory

end SmartCO2
