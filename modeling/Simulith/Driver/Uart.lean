import Simulith.Driver.Basic
import Simulith.Ring.Basic

/-!
# The UART driver

A port has a receive buffer of 1024 bytes with `size_t` positions. No function
of the driver writes a byte into it: what is sent goes to the callback.
-/

namespace Simulith

def maxUartPorts : Nat := 8

/-- `RX_BUFFER_SIZE`. -/
def uartRxSize : Nat := 1024

structure UartConfig where
  baudRate : UInt32
  dataBits : UInt8
  stopBits : UInt8
  parity : UInt8
  flowControl : UInt8
  deriving DecidableEq

abbrev UartRxCallback := Callback (UInt8 → List UInt8 → UInt64 → Int)

structure UartPort where
  initialized : Bool
  config : UartConfig
  rxCallback : Option UartRxCallback
  rxBuffer : Fin uartRxSize → UInt8
  rxBufferHead : UInt64
  rxBufferTail : UInt64

def UartPort.zero : UartPort := ⟨false, ⟨0, 0, 0, 0, 0⟩, none, fun _ => 0, 0, 0⟩

def UartConfig.isValid : Option UartConfig → Bool
  | none => false
  | some config =>
    if config.baudRate ∉ [9600, 19200, 38400, 57600, 115200] then false
    else if config.dataBits < 5 ∨ config.dataBits > 8 then false
    else if config.stopBits < 1 ∨ config.stopBits > 2 then false
    else if config.parity > 2 then false
    else if config.flowControl > 2 then false
    else true

namespace UartPort

def init (config : Option UartConfig) (rxCb : Option UartRxCallback) (port : UartPort) :
    Option (UartPort × Result) :=
  if !UartConfig.isValid config then some (port, .fail .absent)
  else if port.initialized then some (port, .fail .absent)
  else do
    let config ← config
    some ({ port with
      config := config
      rxCallback := rxCb
      rxBufferHead := 0
      rxBufferTail := 0
      initialized := true }, .plain 0 .absent)

def send (portId : UInt8) (data : Option (List UInt8)) (len : UInt64) (port : UartPort) :
    Option (UartPort × Result) :=
  if !port.initialized then some (port, .fail .absent)
  else if data.isNone ∨ len = 0 then some (port, .fail .absent)
  else do
    readBytes data len.toNat
    match port.rxCallback with
    | some rxCallback =>
      let data ← data
      some (port, ⟨rxCallback.fn portId data len, .absent,
        [.uartRx rxCallback.address portId data len], none⟩)
    | none => some (port, .plain (toInt len) .absent)

/-- `bytes_available`; the difference wraps. -/
def bytesAvailable (port : UartPort) : UInt64 := (port.rxBufferHead - port.rxBufferTail) % 1024

/-- The copy loop: `n` bytes to `data[i]`, `data[i + 1]`, ... -/
def copyOut : Nat → Nat → List UInt8 → UartPort → Option (List UInt8 × UartPort)
  | 0, _, data, port => some (data, port)
  | n + 1, i, data, port => do
    let b ← Ring.load port.rxBuffer port.rxBufferTail.toNat
    copyOut n (i + 1) (data.set i b) { port with rxBufferTail := (port.rxBufferTail + 1) % 1024 }

def receive (data : Option (List UInt8)) (maxLen : UInt64) (port : UartPort) :
    Option (UartPort × Result) :=
  if !port.initialized || data.isNone || maxLen == 0 then some (port, .fail (.ofBytes data))
  else do
    let available := port.bytesAvailable
    let toRead := if available < maxLen then available else maxLen
    let data ← data
    let (data, port) ← copyOut toRead.toNat 0 data port
    some (port, .plain (toInt toRead) (.bytes data))

def available (port : UartPort) : Option (UartPort × Result) :=
  if !port.initialized then some (port, .fail .absent)
  else some (port, .plain (toInt port.bytesAvailable) .absent)

def close (port : UartPort) : Option (UartPort × Result) :=
  if !port.initialized then some (port, .fail .absent)
  else some ({ port with initialized := false }, .plain 0 .absent)

end UartPort

/-- The array `uart_ports`. -/
abbrev UartPorts := Fin maxUartPorts → UartPort

section

variable (portId : UInt8) (ports : UartPorts)

def simulithUartInit (config : Option UartConfig) (rxCb : Option UartRxCallback) :=
  access (unitIndex maxUartPorts portId) (.fail .absent) (UartPort.init config rxCb) ports

def simulithUartSend (data : Option (List UInt8)) (len : UInt64) :=
  access (unitIndex maxUartPorts portId) (.fail .absent) (UartPort.send portId data len) ports

def simulithUartReceive (data : Option (List UInt8)) (maxLen : UInt64) :=
  access (unitIndex maxUartPorts portId) (.fail (.ofBytes data)) (UartPort.receive data maxLen)
    ports

def simulithUartAvailable :=
  access (unitIndex maxUartPorts portId) (.fail .absent) UartPort.available ports

def simulithUartClose :=
  access (unitIndex maxUartPorts portId) (.fail .absent) UartPort.close ports

end

inductive UartCall where
  | init (config : Option UartConfig) (rxCb : Option UartRxCallback)
  | send (data : Option (List UInt8)) (len : UInt64)
  | receive (data : Option (List UInt8)) (maxLen : UInt64)
  | available
  | close

namespace UartCall

def out : UartCall → Buffer
  | receive data _ => .ofBytes data
  | _ => .absent

def run (portId : UInt8) (ports : UartPorts) : UartCall → Option (UartPorts × Result)
  | init config rxCb => simulithUartInit portId ports config rxCb
  | send data len => simulithUartSend portId ports data len
  | receive data maxLen => simulithUartReceive portId ports data maxLen
  | available => simulithUartAvailable portId ports
  | close => simulithUartClose portId ports

def body (portId : UInt8) : UartCall → UartPort → Option (UartPort × Result)
  | init config rxCb => UartPort.init config rxCb
  | send data len => UartPort.send portId data len
  | receive data maxLen => UartPort.receive data maxLen
  | available => UartPort.available
  | close => UartPort.close

theorem run_eq (portId : UInt8) (ports : UartPorts) (c : UartCall) : c.run portId ports =
    access (unitIndex maxUartPorts portId) (.fail c.out) (c.body portId) ports := by
  cases c <;> rfl

end UartCall

end Simulith
