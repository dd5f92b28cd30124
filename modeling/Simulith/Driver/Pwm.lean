import Simulith.Driver.Basic

/-!
# The PWM driver

The period and the pulse width are derived from frequency and duty cycle in
32-bit arithmetic.
-/

namespace Simulith

def pwmMaxChannels : Nat := 16

def pwmMinFreqHz : UInt32 := 1

def pwmMaxFreqHz : UInt32 := 1000000

structure PwmConfig where
  frequencyHz : UInt32
  dutyCycle : UInt8
  deriving DecidableEq

structure PwmChannel where
  initialized : Bool
  running : Bool
  config : PwmConfig
  periodNs : UInt32
  dutyNs : UInt32
  deriving DecidableEq

def PwmChannel.zero : PwmChannel := ⟨false, false, ⟨0, 0⟩, 0, 0⟩

def isValidFrequency (freqHz : UInt32) : Bool := pwmMinFreqHz ≤ freqHz && freqHz ≤ pwmMaxFreqHz

def isValidDutyCycle (dutyCycle : UInt8) : Bool := dutyCycle ≤ 100

namespace PwmChannel

/-- The quotient is a 64-bit one, the product and its quotient are 32-bit. -/
def updateTiming (channel : PwmChannel) : Option PwmChannel :=
  if channel.config.frequencyHz = 0 then none
  else
    let periodNs := (1000000000 / channel.config.frequencyHz.toUInt64).toUInt32
    some { channel with
      periodNs := periodNs
      dutyNs := periodNs * channel.config.dutyCycle.toUInt32 / 100 }

def init (config : Option PwmConfig) (pwm : PwmChannel) : Option (PwmChannel × Result) :=
  match config with
  | none => some (pwm, .fail .absent)
  | some config =>
    if !isValidFrequency config.frequencyHz then some (pwm, .fail .absent)
    else if !isValidDutyCycle config.dutyCycle then some (pwm, .fail .absent)
    else if pwm.initialized then some (pwm, .fail .absent)
    else do
      let pwm ← updateTiming { pwm with config := config, initialized := true, running := false }
      some (pwm, .plain 0 .absent)

def start (pwm : PwmChannel) : Option (PwmChannel × Result) :=
  if !pwm.initialized then some (pwm, .fail .absent)
  else some ({ pwm with running := true }, .plain 0 .absent)

def stop (pwm : PwmChannel) : Option (PwmChannel × Result) :=
  if !pwm.initialized then some (pwm, .fail .absent)
  else some ({ pwm with running := false }, .plain 0 .absent)

def setDuty (dutyCycle : UInt8) (pwm : PwmChannel) : Option (PwmChannel × Result) :=
  if !isValidDutyCycle dutyCycle then some (pwm, .fail .absent)
  else if !pwm.initialized then some (pwm, .fail .absent)
  else do
    let pwm ← updateTiming { pwm with config := { pwm.config with dutyCycle := dutyCycle } }
    some (pwm, .plain 0 .absent)

def setFrequency (frequencyHz : UInt32) (pwm : PwmChannel) : Option (PwmChannel × Result) :=
  if !isValidFrequency frequencyHz then some (pwm, .fail .absent)
  else if !pwm.initialized then some (pwm, .fail .absent)
  else do
    let pwm ← updateTiming { pwm with config := { pwm.config with frequencyHz := frequencyHz } }
    some (pwm, .plain 0 .absent)

/-- A running channel goes through `stop`, whose result is not looked at. -/
def close (pwm : PwmChannel) : Option (PwmChannel × Result) :=
  if !pwm.initialized then some (pwm, .fail .absent)
  else do
    let pwm ← if pwm.running then pwm.stop.map (·.1) else some pwm
    some ({ pwm with initialized := false }, .plain 0 .absent)

end PwmChannel

/-- The array `pwm_channels`. -/
abbrev PwmChannels := Fin pwmMaxChannels → PwmChannel

def PwmChannels.zero : PwmChannels := fun _ => .zero

section

variable (channel : UInt8) (channels : PwmChannels)

def simulithPwmInit (config : Option PwmConfig) :=
  access (unitIndex pwmMaxChannels channel) (.fail .absent) (PwmChannel.init config) channels

def simulithPwmStart :=
  access (unitIndex pwmMaxChannels channel) (.fail .absent) PwmChannel.start channels

def simulithPwmStop :=
  access (unitIndex pwmMaxChannels channel) (.fail .absent) PwmChannel.stop channels

def simulithPwmSetDuty (dutyCycle : UInt8) :=
  access (unitIndex pwmMaxChannels channel) (.fail .absent) (PwmChannel.setDuty dutyCycle) channels

def simulithPwmSetFrequency (frequencyHz : UInt32) :=
  access (unitIndex pwmMaxChannels channel) (.fail .absent) (PwmChannel.setFrequency frequencyHz)
    channels

def simulithPwmClose :=
  access (unitIndex pwmMaxChannels channel) (.fail .absent) PwmChannel.close channels

end

inductive PwmCall where
  | init (config : Option PwmConfig)
  | start
  | stop
  | setDuty (dutyCycle : UInt8)
  | setFrequency (frequencyHz : UInt32)
  | close
  deriving DecidableEq

namespace PwmCall

def run (channel : UInt8) (channels : PwmChannels) : PwmCall → Option (PwmChannels × Result)
  | init config => simulithPwmInit channel channels config
  | start => simulithPwmStart channel channels
  | stop => simulithPwmStop channel channels
  | setDuty dutyCycle => simulithPwmSetDuty channel channels dutyCycle
  | setFrequency frequencyHz => simulithPwmSetFrequency channel channels frequencyHz
  | close => simulithPwmClose channel channels

def body : PwmCall → PwmChannel → Option (PwmChannel × Result)
  | init config => PwmChannel.init config
  | start => PwmChannel.start
  | stop => PwmChannel.stop
  | setDuty dutyCycle => PwmChannel.setDuty dutyCycle
  | setFrequency frequencyHz => PwmChannel.setFrequency frequencyHz
  | close => PwmChannel.close

theorem run_eq (channel : UInt8) (channels : PwmChannels) (c : PwmCall) : c.run channel channels =
    access (unitIndex pwmMaxChannels channel) (.fail .absent) c.body channels := by
  cases c <;> rfl

end PwmCall

end Simulith
