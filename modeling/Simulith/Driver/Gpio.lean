import Simulith.Driver.Basic

/-!
# The GPIO driver

The unit is a pin of a port. `check_pin_initialized` is the range check that
`access` makes together with the pin's flag. A mode is the C enumeration's
number, so that a caller can pass one that is none of its names.
-/

namespace Simulith

def gpioMaxPorts : Nat := 8

def gpioMaxPins : Nat := 32

def gpioModeInputPullup : UInt32 := 1

def gpioModeOutput : UInt32 := 3

def gpioModeOutputOd : UInt32 := 4

structure GpioConfig where
  mode : UInt32
  initialState : UInt8
  deriving DecidableEq

structure GpioPin where
  initialized : Bool
  mode : UInt32
  state : UInt8
  deriving DecidableEq

def GpioPin.zero : GpioPin := ⟨false, 0, 0⟩

def isValidPinConfig : Option GpioConfig → Bool
  | none => false
  | some config =>
    if config.mode > gpioModeOutputOd then false
    else if (config.mode = gpioModeOutput ∨ config.mode = gpioModeOutputOd) ∧
        config.initialState > 1 then false
    else true

namespace GpioPin

def init (config : Option GpioConfig) (pin : GpioPin) : Option (GpioPin × Result) :=
  if !isValidPinConfig config then some (pin, .fail .absent)
  else if pin.initialized then some (pin, .fail .absent)
  else do
    let config ← config
    let state :=
      if config.mode = gpioModeOutput ∨ config.mode = gpioModeOutputOd then config.initialState
      else if config.mode = gpioModeInputPullup then 1
      else 0
    some ({ pin with mode := config.mode, initialized := true, state := state }, .plain 0 .absent)

/-- `!check_pin_initialized`, then the check that the pin is an output. -/
def write (value : UInt8) (pin : GpioPin) : Option (GpioPin × Result) :=
  if !pin.initialized then some (pin, .fail .absent)
  else if pin.mode ≠ gpioModeOutput ∧ pin.mode ≠ gpioModeOutputOd then some (pin, .fail .absent)
  else if value > 1 then some (pin, .fail .absent)
  else some ({ pin with state := value }, .plain 0 .absent)

def read (value : Option UInt8) (pin : GpioPin) : Option (GpioPin × Result) :=
  if !pin.initialized || value.isNone then some (pin, .fail (.ofByte value))
  else do
    let _ ← value
    some (pin, .plain 0 (.byte pin.state))

def toggle (pin : GpioPin) : Option (GpioPin × Result) :=
  if !pin.initialized then some (pin, .fail .absent)
  else if pin.mode ≠ gpioModeOutput ∧ pin.mode ≠ gpioModeOutputOd then some (pin, .fail .absent)
  else some ({ pin with state := if pin.state = 0 then 1 else 0 }, .plain 0 .absent)

def close (pin : GpioPin) : Option (GpioPin × Result) :=
  if !pin.initialized then some (pin, .fail .absent)
  else some ({ pin with initialized := false }, .plain 0 .absent)

end GpioPin

/-- `gpio_ports[port].pins[pin]`. -/
abbrev GpioPins := Fin gpioMaxPorts × Fin gpioMaxPins → GpioPin

def pinIndex (port pin : UInt8) : Option (Fin gpioMaxPorts × Fin gpioMaxPins) :=
  match unitIndex gpioMaxPorts port, unitIndex gpioMaxPins pin with
  | some i, some j => some (i, j)
  | _, _ => none

section

variable (port pin : UInt8) (pins : GpioPins)

def simulithGpioInit (config : Option GpioConfig) :=
  access (pinIndex port pin) (.fail .absent) (GpioPin.init config) pins

def simulithGpioWrite (value : UInt8) :=
  access (pinIndex port pin) (.fail .absent) (GpioPin.write value) pins

def simulithGpioRead (value : Option UInt8) :=
  access (pinIndex port pin) (.fail (.ofByte value)) (GpioPin.read value) pins

def simulithGpioToggle :=
  access (pinIndex port pin) (.fail .absent) GpioPin.toggle pins

def simulithGpioClose :=
  access (pinIndex port pin) (.fail .absent) GpioPin.close pins

end

inductive GpioCall where
  | init (config : Option GpioConfig)
  | write (value : UInt8)
  | read (value : Option UInt8)
  | toggle
  | close

namespace GpioCall

def out : GpioCall → Buffer
  | read value => .ofByte value
  | _ => .absent

def run (port pin : UInt8) (pins : GpioPins) : GpioCall → Option (GpioPins × Result)
  | init config => simulithGpioInit port pin pins config
  | write value => simulithGpioWrite port pin pins value
  | read value => simulithGpioRead port pin pins value
  | toggle => simulithGpioToggle port pin pins
  | close => simulithGpioClose port pin pins

def body : GpioCall → GpioPin → Option (GpioPin × Result)
  | init config => GpioPin.init config
  | write value => GpioPin.write value
  | read value => GpioPin.read value
  | toggle => GpioPin.toggle
  | close => GpioPin.close

theorem run_eq (port pin : UInt8) (pins : GpioPins) (c : GpioCall) : c.run port pin pins =
    access (pinIndex port pin) (.fail c.out) c.body pins := by
  cases c <;> rfl

end GpioCall

end Simulith
