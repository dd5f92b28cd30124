import Simulith.Driver.All

/-!
# The device the drivers stand for

A unit of the device is closed, or open and holds what its answers depend on:
a CAN bus whether it receives, which filter slots are taken and the messages
that wait; a UART port, an SPI bus and an I2C bus their callbacks; a pin
whether it can be set, and its level; a PWM channel nothing. There are no
rings, no configurations and no timing.
-/

namespace Simulith

structure CanDevice where
  receives : Bool
  taken : Fin canMaxFilters → Bool
  waiting : List CanMessage

structure UartDevice where
  rxCallback : Option UartRxCallback

structure SpiDevice where
  transferCallback : SpiTransferCallback

structure I2cDevice where
  readCb : I2cReadCallback
  writeCb : I2cWriteCallback

structure GpioDevice where
  settable : Bool
  level : UInt8

structure PwmDevice where

namespace CanDevice

/-- The calls that open a closed bus. -/
def opening : CanCall → Option CanDevice
  | .init config rxCb =>
    if CanConfig.isValid config then some ⟨rxCb.isSome, fun _ => false, []⟩ else none
  | _ => none

/-- What an open bus answers; `none` is the copy of a filter from NULL. -/
def serve (bus : CanDevice) : CanCall → Option (Option CanDevice × Result)
  | .init _ _ => some (bus, .fail .absent)
  | .addFilter filter =>
    match (List.finRange canMaxFilters).find? fun i => !bus.taken i with
    | some i => filter.map fun _ =>
      (some { bus with taken := Function.update bus.taken i true }, .plain i.val .absent)
    | none => some (bus, .fail .absent)
  | .removeFilter filterId =>
    if ∃ i : Fin canMaxFilters, filterId = i.val ∧ bus.taken i = true then
      some (some { bus with taken := fun i => bus.taken i && decide (filterId ≠ i.val) },
        .plain 0 .absent)
    else some (bus, .fail .absent)
  | .send msg =>
    if isValidMessage msg then
      if bus.receives ∧ bus.waiting.length < 31 then
        some (some { bus with waiting := bus.waiting ++ msg.toList }, .plain 0 .absent)
      else some (bus, .plain 0 .absent)
    else some (bus, .fail .absent)
  | .receive none => some (bus, .fail .absent)
  | .receive (some msg) =>
    match bus.waiting with
    | [] => some (bus, .plain 0 (.frame msg))
    | received :: waiting => some (some { bus with waiting := waiting }, .plain 1 (.frame received))
  | .close => some (none, .plain 0 .absent)

end CanDevice

namespace UartDevice

def opening : UartCall → Option UartDevice
  | .init config rxCb => if UartConfig.isValid config then some ⟨rxCb⟩ else none
  | _ => none

/-- Nothing ever waits to be received. -/
def serve (portId : UInt8) (port : UartDevice) : UartCall → Option UartDevice × Result
  | .init _ _ => (port, .fail .absent)
  | .send none _ => (port, .fail .absent)
  | .send (some data) len =>
    if len = 0 then (port, .fail .absent)
    else
      match port.rxCallback with
      | some rxCallback =>
        (port, ⟨rxCallback.fn portId data len, .absent,
          [.uartRx rxCallback.address portId data len], none⟩)
      | none => (port, .plain (toInt len) .absent)
  | .receive none _ => (port, .fail .absent)
  | .receive (some data) maxLen =>
    if maxLen = 0 then (port, .fail (.bytes data)) else (port, .plain 0 (.bytes data))
  | .available => (port, .plain 0 .absent)
  | .close => (none, .plain 0 .absent)

end UartDevice

namespace SpiDevice

def opening : SpiCall → Option SpiDevice
  | .init config transferCb => if SpiConfig.isValid config then transferCb.map .mk else none
  | _ => none

def serve (busId : UInt8) (bus : SpiDevice) : SpiCall → Option SpiDevice × Result
  | .init _ _ => (bus, .fail .absent)
  | .transfer csId txData rxData len =>
    if csId.toNat ≥ maxSpiBuses ∨ txData.isNone ∧ rxData.isNone then
      (bus, .fail (.ofBytes rxData))
    else if len = 0 then (bus, .plain 0 (.ofBytes rxData))
    else
      let answer := bus.transferCallback.fn busId csId txData rxData len
      (bus, ⟨answer.1, .ofBytes (rxData.map fun _ => answer.2),
        [.spiTransfer bus.transferCallback.address busId csId txData rxData len], none⟩)
  | .close => (none, .plain 0 .absent)

end SpiDevice

namespace I2cDevice

def opening : I2cCall → Option I2cDevice
  | .init (some readCb) (some writeCb) => some ⟨readCb, writeCb⟩
  | _ => none

/-- An open bus can be opened again. -/
def serve (bus : I2cDevice) : I2cCall → Option I2cDevice × Result
  | .init (some readCb) (some writeCb) => (some ⟨readCb, writeCb⟩, .plain 0 .absent)
  | .init _ _ => (bus, .einval .absent)
  | .read _ _ none _ => (bus, .einval .absent)
  | .read addr reg (some data) len =>
    if len = 0 then (bus, .einval (.bytes data))
    else
      let answer := bus.readCb.fn addr reg data len
      (bus, ⟨answer.1, .bytes answer.2, [.i2cRead bus.readCb.address addr reg data len], none⟩)
  | .write _ _ none _ => (bus, .einval .absent)
  | .write addr reg (some data) len =>
    if len = 0 then (bus, .einval .absent)
    else
      (bus, ⟨bus.writeCb.fn addr reg data len, .absent,
        [.i2cWrite bus.writeCb.address addr reg data len], none⟩)

end I2cDevice

namespace GpioDevice

def opening : GpioCall → Option GpioDevice
  | .init (some config) =>
    if isValidPinConfig (some config) then
      if config.mode = gpioModeOutput ∨ config.mode = gpioModeOutputOd then
        some ⟨true, config.initialState⟩
      else some ⟨false, if config.mode = gpioModeInputPullup then 1 else 0⟩
    else none
  | _ => none

def serve (pin : GpioDevice) : GpioCall → Option GpioDevice × Result
  | .init _ => (pin, .fail .absent)
  | .write value =>
    if pin.settable ∧ value ≤ 1 then (some { pin with level := value }, .plain 0 .absent)
    else (pin, .fail .absent)
  | .read none => (pin, .fail .absent)
  | .read (some _) => (pin, .plain 0 (.byte pin.level))
  | .toggle =>
    if pin.settable then
      (some { pin with level := if pin.level = 0 then 1 else 0 }, .plain 0 .absent)
    else (pin, .fail .absent)
  | .close => (none, .plain 0 .absent)

end GpioDevice

namespace PwmDevice

def opening : PwmCall → Option PwmDevice
  | .init (some config) =>
    if isValidFrequency config.frequencyHz ∧ isValidDutyCycle config.dutyCycle then some ⟨⟩
    else none
  | _ => none

def serve (pwm : PwmDevice) : PwmCall → Option PwmDevice × Result
  | .init _ => (pwm, .fail .absent)
  | .start => (pwm, .plain 0 .absent)
  | .stop => (pwm, .plain 0 .absent)
  | .setDuty dutyCycle =>
    if isValidDutyCycle dutyCycle then (pwm, .plain 0 .absent) else (pwm, .fail .absent)
  | .setFrequency frequencyHz =>
    if isValidFrequency frequencyHz then (pwm, .plain 0 .absent) else (pwm, .fail .absent)
  | .close => (none, .plain 0 .absent)

end PwmDevice

/-- What an open unit holds. -/
def OpenUnit : UnitId → Type
  | .can _ => CanDevice
  | .uart _ => UartDevice
  | .spi _ => SpiDevice
  | .i2c _ => I2cDevice
  | .gpio _ => GpioDevice
  | .pwm _ => PwmDevice

/-- A unit is closed (`none`) or open. -/
abbrev Device := (k : UnitId) → Option (OpenUnit k)

/-- An open unit serves; a closed one is opened or rejects the call. -/
def session {A : Type} (opening : Option A) (rejected : Result)
    (serve : A → Option (Option A × Result)) : Option A → Option (Option A × Result)
  | some unit => serve unit
  | none =>
    match opening with
    | some unit => some (some unit, .plain 0 .absent)
    | none => some (none, rejected)

namespace Device

/-- All units are closed. -/
def closed : Device := fun _ => none

/-- What a call does to the unit it addresses. -/
def body : (k : UnitId) → DriverCall → Option (OpenUnit k) → Option (Option (OpenUnit k) × Result)
  | .can _, .can _ c => session (CanDevice.opening c) (.fail c.out) fun bus => bus.serve c
  | .uart _, .uart portId c =>
    session (UartDevice.opening c) (.fail c.out) fun port => some (port.serve portId c)
  | .spi _, .spi busId c =>
    session (SpiDevice.opening c) (.fail c.out) fun bus => some (bus.serve busId c)
  | .i2c _, .i2c _ c =>
    session (I2cDevice.opening c) (.einval c.out) fun bus => some (bus.serve c)
  | .gpio _, .gpio _ _ c =>
    session (GpioDevice.opening c) (.fail c.out) fun pin => some (pin.serve c)
  | .pwm _, .pwm _ c =>
    session (PwmDevice.opening c) (.fail .absent) fun pwm => some (pwm.serve c)
  | _, _ => fun _ => none

def call (d : Device) (c : DriverCall) : Option (Device × Result) :=
  match c.target with
  | some k => (body k c (d k)).map fun u => (Function.update d k u.1, u.2)
  | none => some (d, c.rejected)

end Device

end Simulith
