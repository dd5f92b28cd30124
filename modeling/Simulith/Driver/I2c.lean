import Simulith.Driver.Basic

/-!
# The I2C driver

A bus can be initialised again at any time and is never closed. Rejected calls
set `errno`.
-/

namespace Simulith

def maxI2cBuses : Nat := 8

/-- What the callback returns, and what it leaves in the buffer. -/
abbrev I2cReadCallback := Callback (UInt8 → UInt8 → List UInt8 → UInt64 → Int × List UInt8)

abbrev I2cWriteCallback := Callback (UInt8 → UInt8 → List UInt8 → UInt64 → Int)

structure I2cBus where
  initialized : Bool
  readCb : Option I2cReadCallback
  writeCb : Option I2cWriteCallback

def I2cBus.zero : I2cBus := ⟨false, none, none⟩

namespace I2cBus

def init (readCb : Option I2cReadCallback) (writeCb : Option I2cWriteCallback) (bus : I2cBus) :
    Option (I2cBus × Result) :=
  if readCb.isNone ∨ writeCb.isNone then some (bus, .einval .absent)
  else some ({ bus with initialized := true, readCb := readCb, writeCb := writeCb },
    .plain 0 .absent)

def read (addr reg : UInt8) (data : Option (List UInt8)) (len : UInt64) (bus : I2cBus) :
    Option (I2cBus × Result) :=
  if !bus.initialized then some (bus, .einval (.ofBytes data))
  else if data.isNone ∨ len = 0 then some (bus, .einval (.ofBytes data))
  else do
    let data ← data
    let readCb ← bus.readCb
    let (ret, filled) := readCb.fn addr reg data len
    some (bus, ⟨ret, .bytes filled, [.i2cRead readCb.address addr reg data len], none⟩)

def write (addr reg : UInt8) (data : Option (List UInt8)) (len : UInt64) (bus : I2cBus) :
    Option (I2cBus × Result) :=
  if !bus.initialized then some (bus, .einval .absent)
  else if data.isNone ∨ len = 0 then some (bus, .einval .absent)
  else do
    let data ← data
    let writeCb ← bus.writeCb
    some (bus, ⟨writeCb.fn addr reg data len, .absent,
      [.i2cWrite writeCb.address addr reg data len], none⟩)

end I2cBus

/-- The array `i2c_buses`. -/
abbrev I2cBuses := Fin maxI2cBuses → I2cBus

section

variable (busId : UInt8) (buses : I2cBuses)

def simulithI2cInit (readCb : Option I2cReadCallback) (writeCb : Option I2cWriteCallback) :=
  access (unitIndex maxI2cBuses busId) (.einval .absent) (I2cBus.init readCb writeCb) buses

def simulithI2cRead (addr reg : UInt8) (data : Option (List UInt8)) (len : UInt64) :=
  access (unitIndex maxI2cBuses busId) (.einval (.ofBytes data)) (I2cBus.read addr reg data len)
    buses

def simulithI2cWrite (addr reg : UInt8) (data : Option (List UInt8)) (len : UInt64) :=
  access (unitIndex maxI2cBuses busId) (.einval .absent) (I2cBus.write addr reg data len) buses

end

inductive I2cCall where
  | init (readCb : Option I2cReadCallback) (writeCb : Option I2cWriteCallback)
  | read (addr reg : UInt8) (data : Option (List UInt8)) (len : UInt64)
  | write (addr reg : UInt8) (data : Option (List UInt8)) (len : UInt64)

namespace I2cCall

def out : I2cCall → Buffer
  | read _ _ data _ => .ofBytes data
  | _ => .absent

def run (busId : UInt8) (buses : I2cBuses) : I2cCall → Option (I2cBuses × Result)
  | init readCb writeCb => simulithI2cInit busId buses readCb writeCb
  | read addr reg data len => simulithI2cRead busId buses addr reg data len
  | write addr reg data len => simulithI2cWrite busId buses addr reg data len

def body : I2cCall → I2cBus → Option (I2cBus × Result)
  | init readCb writeCb => I2cBus.init readCb writeCb
  | read addr reg data len => I2cBus.read addr reg data len
  | write addr reg data len => I2cBus.write addr reg data len

theorem run_eq (busId : UInt8) (buses : I2cBuses) (c : I2cCall) : c.run busId buses =
    access (unitIndex maxI2cBuses busId) (.einval c.out) c.body buses := by
  cases c <;> rfl

end I2cCall

end Simulith
