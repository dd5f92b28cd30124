import Simulith.Cells.Basic
import Simulith.Driver.Can
import Simulith.Driver.Uart
import Simulith.Driver.Spi
import Simulith.Driver.I2c
import Simulith.Driver.Gpio
import Simulith.Driver.Pwm

/-!
# The six drivers together

`Drivers` holds the static arrays of all drivers, `Drivers.call` answers any
public call, and a run of `Drivers.step` is a sequence of calls with the
results they gave. The arrays fall apart into units (`Drivers.units`), and a
call acts on the unit it addresses (`step_eq`).
-/

namespace Simulith

open Lts

structure Drivers where
  canBuses : CanBuses
  uartPorts : UartPorts
  spiBuses : SpiBuses
  i2cBuses : I2cBuses
  gpioPins : GpioPins
  pwmChannels : PwmChannels

/-- The state at power-on. -/
def Drivers.zero : Drivers :=
  ⟨.zero, fun _ => .zero, fun _ => .zero, fun _ => .zero, fun _ => .zero, .zero⟩

inductive DriverCall where
  | can (busId : UInt8) (c : CanCall)
  | uart (portId : UInt8) (c : UartCall)
  | spi (busId : UInt8) (c : SpiCall)
  | i2c (busId : UInt8) (c : I2cCall)
  | gpio (port pin : UInt8) (c : GpioCall)
  | pwm (channel : UInt8) (c : PwmCall)

/-- The buffer the caller passes. -/
def DriverCall.out : DriverCall → Buffer
  | can _ c => c.out
  | uart _ c => c.out
  | spi _ c => c.out
  | i2c _ c => c.out
  | gpio _ _ c => c.out
  | pwm _ _ => .absent

def Drivers.call (d : Drivers) : DriverCall → Option (Drivers × Result)
  | .can busId c => (c.run busId d.canBuses).map fun u => ({ d with canBuses := u.1 }, u.2)
  | .uart portId c => (c.run portId d.uartPorts).map fun u => ({ d with uartPorts := u.1 }, u.2)
  | .spi busId c => (c.run busId d.spiBuses).map fun u => ({ d with spiBuses := u.1 }, u.2)
  | .i2c busId c => (c.run busId d.i2cBuses).map fun u => ({ d with i2cBuses := u.1 }, u.2)
  | .gpio port pin c => (c.run port pin d.gpioPins).map fun u => ({ d with gpioPins := u.1 }, u.2)
  | .pwm channel c => (c.run channel d.pwmChannels).map fun u => ({ d with pwmChannels := u.1 }, u.2)

/-- A call and the result it gave. -/
abbrev DriverEvent := DriverCall × Result

def Drivers.step : Drivers → DriverEvent → Option Drivers := answer Drivers.call

/-! ## Units -/

inductive UnitId where
  | can (i : Fin maxCanBuses)
  | uart (i : Fin maxUartPorts)
  | spi (i : Fin maxSpiBuses)
  | i2c (i : Fin maxI2cBuses)
  | gpio (i : Fin gpioMaxPorts × Fin gpioMaxPins)
  | pwm (i : Fin pwmMaxChannels)
  deriving DecidableEq

def UnitState : UnitId → Type
  | .can _ => CanBus
  | .uart _ => UartPort
  | .spi _ => SpiBus
  | .i2c _ => I2cBus
  | .gpio _ => GpioPin
  | .pwm _ => PwmChannel

namespace Drivers

def get (d : Drivers) : (k : UnitId) → UnitState k
  | .can i => d.canBuses i
  | .uart i => d.uartPorts i
  | .spi i => d.spiBuses i
  | .i2c i => d.i2cBuses i
  | .gpio i => d.gpioPins i
  | .pwm i => d.pwmChannels i

def put (d : Drivers) : (k : UnitId) → UnitState k → Drivers
  | .can i, v => { d with canBuses := Function.update d.canBuses i v }
  | .uart i, v => { d with uartPorts := Function.update d.uartPorts i v }
  | .spi i, v => { d with spiBuses := Function.update d.spiBuses i v }
  | .i2c i, v => { d with i2cBuses := Function.update d.i2cBuses i v }
  | .gpio i, v => { d with gpioPins := Function.update d.gpioPins i v }
  | .pwm i, v => { d with pwmChannels := Function.update d.pwmChannels i v }

theorem get_put (d : Drivers) (k : UnitId) (v : UnitState k) : (d.put k v).get k = v := by
  cases k <;> exact Function.update_self ..

theorem get_put_of_ne (d : Drivers) (k : UnitId) (v : UnitState k) (j : UnitId) (h : j ≠ k) :
    (d.put k v).get j = d.get j := by
  cases k <;> cases j <;>
    first
    | rfl
    | exact Function.update_of_ne (fun e => h (congrArg _ e)) _ _

theorem ext_get (d e : Drivers) (h : ∀ k, d.get k = e.get k) : d = e := by
  obtain ⟨c, u, s, i, g, p⟩ := d
  obtain ⟨c', u', s', i', g', p'⟩ := e
  obtain rfl : c = c' := funext fun k => h (.can k)
  obtain rfl : u = u' := funext fun k => h (.uart k)
  obtain rfl : s = s' := funext fun k => h (.spi k)
  obtain rfl : i = i' := funext fun k => h (.i2c k)
  obtain rfl : g = g' := funext fun k => h (.gpio k)
  obtain rfl : p = p' := funext fun k => h (.pwm k)
  rfl

end Drivers

namespace DriverCall

/-- The unit a call addresses; none when its number is out of range. -/
def target : DriverCall → Option UnitId
  | can busId _ => (unitIndex maxCanBuses busId).map .can
  | uart portId _ => (unitIndex maxUartPorts portId).map .uart
  | spi busId _ => (unitIndex maxSpiBuses busId).map .spi
  | i2c busId _ => (unitIndex maxI2cBuses busId).map .i2c
  | gpio port pin _ => (pinIndex port pin).map .gpio
  | pwm channel _ => (unitIndex pwmMaxChannels channel).map .pwm

/-- The result when the number is out of range. -/
def rejected (c : DriverCall) : Result :=
  match c with
  | i2c _ _ => .einval c.out
  | _ => .fail c.out

/-- What a call does to the unit it addresses. -/
def body : (k : UnitId) → DriverCall → UnitState k → Option (UnitState k × Result)
  | .can _, can _ c => c.body
  | .uart _, uart portId c => c.body portId
  | .spi _, spi busId c => c.body busId
  | .i2c _, i2c _ c => c.body
  | .gpio _, gpio _ _ c => c.body
  | .pwm _, pwm _ c => c.body
  | _, _ => fun _ => none

variable {c : DriverCall} {k : UnitId}

theorem call_of_target (d : Drivers) (h : c.target = some k) :
    d.call c = (c.body k (d.get k)).map fun u => (d.put k u.1, u.2) := by
  cases c <;>
  · obtain ⟨i, hi, rfl⟩ := Option.map_eq_some_iff.mp h
    simp only [Drivers.call, CanCall.run_eq, UartCall.run_eq, SpiCall.run_eq, I2cCall.run_eq,
      GpioCall.run_eq, PwmCall.run_eq, hi, access, Option.map_map]
    rfl

theorem call_of_idle (d : Drivers) (h : c.target = none) : d.call c = some (d, c.rejected) := by
  cases c <;>
  · have hi := Option.map_eq_none_iff.mp h
    simp only [Drivers.call, CanCall.run_eq, UartCall.run_eq, SpiCall.run_eq, I2cCall.run_eq,
      GpioCall.run_eq, PwmCall.run_eq, hi, access, Option.map_some]
    rfl

end DriverCall

/-- The drivers as a system of units. -/
def Drivers.units : Cells.System Drivers UnitState DriverEvent where
  get := Drivers.get
  put := Drivers.put
  get_put := Drivers.get_put
  get_put_of_ne := Drivers.get_put_of_ne
  ext := Drivers.ext_get
  target e := e.1.target
  idle e := e.2 = e.1.rejected
  act k := answer fun v c => c.body k v

/-- A call acts on the unit it addresses, and on nothing else. -/
theorem Drivers.step_eq : Drivers.step = Drivers.units.step := by
  funext d ⟨c, r⟩
  cases h : c.target with
  | none =>
    have ht : Drivers.units.target (c, r) = none := h
    simp only [step, answer, DriverCall.call_of_idle d h, Cells.System.step, ht]
    simp [units, eq_comm]
  | some k =>
    have ht : Drivers.units.target (c, r) = some k := h
    simp only [step, answer, DriverCall.call_of_target d h, Cells.System.step, ht]
    simp only [units, answer]
    cases hb : c.body k (d.get k) with
    | none => simp
    | some u =>
      by_cases hr : u.2 = r <;> simp [hr]

end Simulith
