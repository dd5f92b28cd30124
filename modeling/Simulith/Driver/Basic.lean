import Simulith.Lts.Basic
import Mathlib.Algebra.GroupWithZero.Nat
import Mathlib.Logic.Function.Basic

/-!
# Calls to the peripheral drivers

Each driver keeps a static array of units (buses, ports, pins, channels), and
each of its functions works on the one unit its first argument names. A
pointer argument is `none` when NULL, else what it points to. A callback has
an address and is a function of its arguments, as it is when it calls no driver
(`UserCode` has those that do). A call is `none` where the C program is undefined:
it reads or writes through NULL, calls a NULL callback, leaves an array, or
divides by zero. Otherwise it leaves a new array and a `Result`, which holds
all that the caller and the callbacks see of the call.
-/

namespace Simulith

structure CanMessage where
  id : UInt32
  isExtended : UInt8
  isRtr : UInt8
  dlc : UInt8
  data : Vector UInt8 8
  deriving DecidableEq

/-- The buffer a caller passes for a call to fill. -/
inductive Buffer where
  | absent
  | byte (b : UInt8)
  | bytes (bs : List UInt8)
  | frame (m : CanMessage)
  deriving DecidableEq

namespace Buffer

def ofByte : Option UInt8 → Buffer
  | none => absent
  | some b => byte b

def ofBytes : Option (List UInt8) → Buffer
  | none => absent
  | some bs => bytes bs

def ofFrame : Option CanMessage → Buffer
  | none => absent
  | some m => frame m

/-- The buffer with a callback's bytes in it. -/
def filled (bs : List UInt8) : Buffer → Buffer
  | bytes _ => bytes bs
  | b => b

end Buffer

/-- A function of user code of type `F` that is registered as a callback. -/
structure Callback (F : Type) where
  address : Nat
  fn : F

/-- The callback at an address called, and with what. -/
inductive Invocation where
  | canRx (busId : UInt8) (msg : CanMessage)
  | uartRx (address : Nat) (portId : UInt8) (data : List UInt8) (len : UInt64)
  | spiTransfer (address : Nat) (busId csId : UInt8) (txData rxData : Option (List UInt8))
      (len : UInt64)
  | i2cRead (address : Nat) (addr reg : UInt8) (data : List UInt8) (len : UInt64)
  | i2cWrite (address : Nat) (addr reg : UInt8) (data : List UInt8) (len : UInt64)
  deriving DecidableEq

inductive Errno where
  | einval
  deriving DecidableEq

structure Result where
  ret : Int
  /-- The caller's buffer after the call. -/
  out : Buffer
  invoked : List Invocation
  /-- What the call stores in `errno`, if anything. -/
  errno : Option Errno
  deriving DecidableEq

namespace Result

/-- `return ret`, no callback called. -/
def plain (ret : Int) (out : Buffer) : Result := ⟨ret, out, [], none⟩

/-- `return -1`, the caller's buffer untouched. -/
def fail (out : Buffer) : Result := plain (-1) out

/-- `errno = EINVAL; return -1`. -/
def einval (out : Buffer) : Result := ⟨-1, out, [], some .einval⟩

end Result

/-- Reading the first `len` bytes behind a pointer. -/
def readBytes (p : Option (List UInt8)) (len : Nat) : Option Unit :=
  if len = 0 then some () else p.map fun _ => ()

/-- `(int)len`. -/
def toInt (len : UInt64) : Int := (len.toNat : Int).bmod (2 ^ 32)

theorem toInt_zero : toInt 0 = 0 := by decide

/-- A unit number as an index into an array of `n` units. -/
def unitIndex (n : Nat) (id : UInt8) : Option (Fin n) :=
  if h : id.toNat < n then some ⟨id.toNat, h⟩ else none

section Access

variable {κ U : Type*} [DecidableEq κ]

/-- A call to the unit at `index`: `rejected` when there is none, else what `body` does to it. -/
def access (index : Option κ) (rejected : Result) (body : U → Option (U × Result))
    (units : κ → U) : Option ((κ → U) × Result) :=
  match index with
  | none => some (units, rejected)
  | some k => (body (units k)).map fun u => (Function.update units k u.1, u.2)

variable {index : Option κ} {rejected r : Result} {body : U → Option (U × Result)}
  {units units' : κ → U} {k : κ} {u : U}

theorem access_self (h : access (some k) rejected body units = some (units', r)) :
    body (units k) = some (units' k, r) := by
  obtain ⟨u, hu, h⟩ := Option.map_eq_some_iff.mp h
  cases h
  rw [Function.update_self, hu]

theorem access_of_ne (h : access index rejected body units = some (units', r))
    (hk : index ≠ some k) : units' k = units k := by
  cases index with
  | none =>
    cases h
    rfl
  | some j =>
    obtain ⟨u, -, h⟩ := Option.map_eq_some_iff.mp h
    cases h
    exact Function.update_of_ne (fun e => hk (congrArg some e.symm)) _ _

theorem access_eq (hb : body (units k) = some (u, r)) :
    access (some k) rejected body units = some (Function.update units k u, r) := by
  simp only [access, hb, Option.map_some]

theorem access_update {v : U} (hb : body v = some (u, r)) :
    access (some k) rejected body (Function.update units k v) =
      some (Function.update units k u, r) := by
  simp only [access, Function.update_self, hb, Option.map_some, Function.update_idem]

theorem access_eq_self (hb : body (units k) = some (units k, r)) :
    access (some k) rejected body units = some (units, r) := by
  rw [access_eq hb, Function.update_eq_self]

end Access

end Simulith
