import Simulith.Driver.Basic

/-!
# The SPI driver

A transfer is handed to the bus's callback, which fills the caller's receive
buffer. The log loops read the transmit buffer before it and the receive
buffer after it.
-/

namespace Simulith

def maxSpiBuses : Nat := 8

structure SpiConfig where
  clockHz : UInt32
  mode : UInt8
  bitOrder : UInt8
  csPolarity : UInt8
  dataBits : UInt8
  deriving DecidableEq

/-- What the callback returns, and what it leaves in the receive buffer, if it gets one. -/
abbrev SpiTransferCallback :=
  Callback (UInt8 → UInt8 → Option (List UInt8) → Option (List UInt8) → UInt64 → Int × List UInt8)

structure SpiBus where
  initialized : Bool
  config : SpiConfig
  transferCallback : Option SpiTransferCallback

def SpiBus.zero : SpiBus := ⟨false, ⟨0, 0, 0, 0, 0⟩, none⟩

def SpiConfig.isValid : Option SpiConfig → Bool
  | none => false
  | some config =>
    if config.clockHz < 1000 ∨ config.clockHz > 100000000 then false
    else if config.mode > 3 then false
    else if config.bitOrder > 1 then false
    else if config.csPolarity > 1 then false
    else if config.dataBits < 4 ∨ config.dataBits > 16 then false
    else true

namespace SpiBus

def init (config : Option SpiConfig) (transferCb : Option SpiTransferCallback) (bus : SpiBus) :
    Option (SpiBus × Result) :=
  if !SpiConfig.isValid config then some (bus, .fail .absent)
  else if transferCb.isNone then some (bus, .fail .absent)
  else if bus.initialized then some (bus, .fail .absent)
  else do
    let config ← config
    some ({ bus with config := config, transferCallback := transferCb, initialized := true },
      .plain 0 .absent)

def transfer (busId csId : UInt8) (txData rxData : Option (List UInt8)) (len : UInt64)
    (bus : SpiBus) : Option (SpiBus × Result) :=
  if !bus.initialized then some (bus, .fail (.ofBytes rxData))
  else if csId.toNat ≥ maxSpiBuses then some (bus, .fail (.ofBytes rxData))
  else if txData.isNone ∧ rxData.isNone then some (bus, .fail (.ofBytes rxData))
  else if len = 0 then some (bus, .plain 0 (.ofBytes rxData))
  else do
    if txData.isSome then readBytes txData len.toNat
    let transferCallback ← bus.transferCallback
    let (result, received) := transferCallback.fn busId csId txData rxData len
    if result > 0 ∧ rxData.isSome then readBytes rxData result.toNat
    some (bus, ⟨result, .ofBytes (rxData.map fun _ => received),
      [.spiTransfer transferCallback.address busId csId txData rxData len], none⟩)

def close (bus : SpiBus) : Option (SpiBus × Result) :=
  if !bus.initialized then some (bus, .fail .absent)
  else some ({ bus with initialized := false }, .plain 0 .absent)

end SpiBus

/-- The array `spi_buses`. -/
abbrev SpiBuses := Fin maxSpiBuses → SpiBus

section

variable (busId : UInt8) (buses : SpiBuses)

def simulithSpiInit (config : Option SpiConfig) (transferCb : Option SpiTransferCallback) :=
  access (unitIndex maxSpiBuses busId) (.fail .absent) (SpiBus.init config transferCb) buses

def simulithSpiTransfer (csId : UInt8) (txData rxData : Option (List UInt8)) (len : UInt64) :=
  access (unitIndex maxSpiBuses busId) (.fail (.ofBytes rxData))
    (SpiBus.transfer busId csId txData rxData len) buses

def simulithSpiClose :=
  access (unitIndex maxSpiBuses busId) (.fail .absent) SpiBus.close buses

end

inductive SpiCall where
  | init (config : Option SpiConfig) (transferCb : Option SpiTransferCallback)
  | transfer (csId : UInt8) (txData rxData : Option (List UInt8)) (len : UInt64)
  | close

namespace SpiCall

def out : SpiCall → Buffer
  | transfer _ _ rxData _ => .ofBytes rxData
  | _ => .absent

def run (busId : UInt8) (buses : SpiBuses) : SpiCall → Option (SpiBuses × Result)
  | init config transferCb => simulithSpiInit busId buses config transferCb
  | transfer csId txData rxData len => simulithSpiTransfer busId buses csId txData rxData len
  | close => simulithSpiClose busId buses

def body (busId : UInt8) : SpiCall → SpiBus → Option (SpiBus × Result)
  | init config transferCb => SpiBus.init config transferCb
  | transfer csId txData rxData len => SpiBus.transfer busId csId txData rxData len
  | close => SpiBus.close

theorem run_eq (busId : UInt8) (buses : SpiBuses) (c : SpiCall) : c.run busId buses =
    access (unitIndex maxSpiBuses busId) (.fail c.out) (c.body busId) buses := by
  cases c <;> rfl

end SpiCall

end Simulith
