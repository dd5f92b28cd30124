import Simulith.Driver.Basic
import Simulith.Ring.Basic

/-!
# The CAN driver

A bus holds its filter slots and a circular buffer of 32 received messages.
`CanBus.send` and the other operations are the bodies of the driver's
functions past the check of the bus number, which `access` makes.
-/

namespace Simulith

def maxCanBuses : Nat := 8

def canMaxFilters : Nat := 16

def canMaxDlc : UInt8 := 8

def canIdStdMax : UInt32 := 0x7FF

def canIdExtMax : UInt32 := 0x1FFFFFFF

/-- `rx_buffer[32]`. -/
def canRxSlots : Nat := 32

instance : NeZero maxCanBuses := ⟨by decide⟩

instance : NeZero canMaxFilters := ⟨by decide⟩

instance : NeZero canRxSlots := ⟨by decide⟩

structure CanFilter where
  id : UInt32
  mask : UInt32
  isExtended : UInt8
  deriving DecidableEq

structure CanConfig where
  bitrate : UInt32
  samplePoint : UInt8
  syncJump : UInt8
  deriving DecidableEq

abbrev CanRxCallback := UInt8 → CanMessage → Int

structure FilterSlot where
  filter : CanFilter
  active : Bool
  deriving DecidableEq

structure CanBus where
  initialized : Bool
  config : CanConfig
  rxCallback : Option CanRxCallback
  filters : Fin canMaxFilters → FilterSlot
  rxBuffer : Fin canRxSlots → CanMessage
  rxHead : Nat
  rxTail : Nat

namespace CanMessage

def zero : CanMessage := ⟨0, 0, 0, 0, Vector.replicate 8 0⟩

/-- The log line prints `data[i]` for `i < dlc`, unless the message is a remote request. -/
def log (m : CanMessage) : Option Unit :=
  if m.isRtr ≠ 0 ∨ m.dlc.toNat ≤ 8 then some () else none

end CanMessage

def FilterSlot.zero : FilterSlot := ⟨⟨0, 0, 0⟩, false⟩

def CanBus.zero : CanBus where
  initialized := false
  config := ⟨0, 0, 0⟩
  rxCallback := none
  filters _ := .zero
  rxBuffer _ := .zero
  rxHead := 0
  rxTail := 0

def CanConfig.isValid : Option CanConfig → Bool
  | none => false
  | some config =>
    if config.bitrate < 125000 ∨ config.bitrate > 1000000 then false
    else if config.samplePoint < 50 ∨ config.samplePoint > 90 then false
    else if config.syncJump < 1 ∨ config.syncJump > 4 then false
    else true

def isValidMessage : Option CanMessage → Bool
  | none => false
  | some msg =>
    if msg.isExtended ≠ 0 ∧ msg.id > canIdExtMax then false
    else if msg.isExtended = 0 ∧ msg.id > canIdStdMax then false
    else if msg.dlc > canMaxDlc then false
    else true

def messagePassesFilter (msg : CanMessage) (filter : CanFilter) : Bool :=
  if msg.isExtended ≠ filter.isExtended then false
  else msg.id &&& filter.mask == filter.id &&& filter.mask

namespace CanBus

def init (config : Option CanConfig) (rxCb : Option CanRxCallback) (bus : CanBus) :
    Option (CanBus × Result) :=
  if !CanConfig.isValid config then some (bus, .fail .absent)
  else if bus.initialized then some (bus, .fail .absent)
  else do
    let config ← config
    some ({ bus with
      config := config
      rxCallback := rxCb
      initialized := true
      rxHead := 0
      rxTail := 0
      filters := fun _ => .zero }, .plain 0 .absent)

/-- The first slot that is not active. -/
def freeSlot (bus : CanBus) : Option (Fin canMaxFilters) :=
  (List.finRange canMaxFilters).find? fun i => !(bus.filters i).active

def addFilter (filter : Option CanFilter) (bus : CanBus) : Option (CanBus × Result) :=
  if !bus.initialized then some (bus, .fail .absent)
  else
    match bus.freeSlot with
    | some i => do
      -- no check for NULL before the copy
      let filter ← filter
      some ({ bus with filters := Function.update bus.filters i ⟨filter, true⟩ },
        .plain i.val .absent)
    | none => some (bus, .fail .absent)

def removeFilter (filterId : Int) (bus : CanBus) : Option (CanBus × Result) :=
  if !bus.initialized then some (bus, .fail .absent)
  else if h : 0 ≤ filterId ∧ filterId < canMaxFilters then
    let i : Fin canMaxFilters := ⟨filterId.toNat, by omega⟩
    if !(bus.filters i).active then some (bus, .fail .absent)
    else some ({ bus with
      filters := Function.update bus.filters i { bus.filters i with active := false } },
      .plain 0 .absent)
  else some (bus, .fail .absent)

/-- `passes_filter`, as the loop over the slots leaves it. -/
def passesFilter (bus : CanBus) (msg : CanMessage) : Bool :=
  (List.finRange canMaxFilters).any fun i =>
    (bus.filters i).active && messagePassesFilter msg (bus.filters i).filter

def send (msg : Option CanMessage) (bus : CanBus) : Option (CanBus × Result) :=
  if !bus.initialized then some (bus, .fail .absent)
  else if !isValidMessage msg then some (bus, .fail .absent)
  else do
    let msg ← msg
    msg.log
    if bus.rxCallback.isSome then
      if bus.passesFilter msg || bus.rxCallback.isSome then
        let nextHead := (bus.rxHead + 1) % canRxSlots
        if nextHead ≠ bus.rxTail then do
          let rxBuffer ← Ring.store bus.rxBuffer bus.rxHead msg
          some ({ bus with rxBuffer := rxBuffer, rxHead := nextHead }, .plain 0 .absent)
        else some (bus, .plain 0 .absent)
      else some (bus, .plain 0 .absent)
    else some (bus, .plain 0 .absent)

def receive (msg : Option CanMessage) (bus : CanBus) : Option (CanBus × Result) :=
  if !bus.initialized || msg.isNone then some (bus, .fail (.ofFrame msg))
  else if bus.rxHead = bus.rxTail then some (bus, .plain 0 (.ofFrame msg))
  else do
    let received ← Ring.load bus.rxBuffer bus.rxTail
    received.log
    some ({ bus with rxTail := (bus.rxTail + 1) % canRxSlots }, .plain 1 (.frame received))

def close (bus : CanBus) : Option (CanBus × Result) :=
  if !bus.initialized then some (bus, .fail .absent)
  else some ({ bus with initialized := false }, .plain 0 .absent)

end CanBus

/-- The array `can_buses`. -/
abbrev CanBuses := Fin maxCanBuses → CanBus

def CanBuses.zero : CanBuses := fun _ => .zero

section

variable (busId : UInt8) (buses : CanBuses)

def simulithCanInit (config : Option CanConfig) (rxCb : Option CanRxCallback) :=
  access (unitIndex maxCanBuses busId) (.fail .absent) (CanBus.init config rxCb) buses

def simulithCanAddFilter (filter : Option CanFilter) :=
  access (unitIndex maxCanBuses busId) (.fail .absent) (CanBus.addFilter filter) buses

def simulithCanRemoveFilter (filterId : Int) :=
  access (unitIndex maxCanBuses busId) (.fail .absent) (CanBus.removeFilter filterId) buses

def simulithCanSend (msg : Option CanMessage) :=
  access (unitIndex maxCanBuses busId) (.fail .absent) (CanBus.send msg) buses

def simulithCanReceive (msg : Option CanMessage) :=
  access (unitIndex maxCanBuses busId) (.fail (.ofFrame msg)) (CanBus.receive msg) buses

def simulithCanClose :=
  access (unitIndex maxCanBuses busId) (.fail .absent) CanBus.close buses

end

/-- A call to the driver, but for the bus number. -/
inductive CanCall where
  | init (config : Option CanConfig) (rxCb : Option CanRxCallback)
  | addFilter (filter : Option CanFilter)
  | removeFilter (filterId : Int)
  | send (msg : Option CanMessage)
  | receive (msg : Option CanMessage)
  | close

namespace CanCall

/-- The buffer the caller passes. -/
def out : CanCall → Buffer
  | receive msg => .ofFrame msg
  | _ => .absent

def run (busId : UInt8) (buses : CanBuses) : CanCall → Option (CanBuses × Result)
  | init config rxCb => simulithCanInit busId buses config rxCb
  | addFilter filter => simulithCanAddFilter busId buses filter
  | removeFilter filterId => simulithCanRemoveFilter busId buses filterId
  | send msg => simulithCanSend busId buses msg
  | receive msg => simulithCanReceive busId buses msg
  | close => simulithCanClose busId buses

/-- What a call does to the bus it names. -/
def body : CanCall → CanBus → Option (CanBus × Result)
  | init config rxCb => CanBus.init config rxCb
  | addFilter filter => CanBus.addFilter filter
  | removeFilter filterId => CanBus.removeFilter filterId
  | send msg => CanBus.send msg
  | receive msg => CanBus.receive msg
  | close => CanBus.close

theorem run_eq (busId : UInt8) (buses : CanBuses) (c : CanCall) : c.run busId buses =
    access (unitIndex maxCanBuses busId) (.fail c.out) c.body buses := by
  cases c <;> rfl

end CanCall

end Simulith
