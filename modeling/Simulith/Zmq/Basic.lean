import Simulith.CStr.Basic

/-!
# ZeroMQ resources of a process

A process creates contexts and sockets, binds or connects them, and closes
them. `Zmq` is the log of the calls that succeeded; handles are numbered by
the log, so no two creations share one. Whether a call succeeds is not up to
the process: each takes its outcome as an argument.
-/

namespace Simulith

/-- The bytes of a ZeroMQ message. -/
abbrev Msg := List UInt8

abbrev Handle := Nat

inductive SocketType where
  | pub | rep | sub | req
  deriving DecidableEq, Repr

inductive ZmqEvent where
  | ctxNew (h : Handle)
  | socket (h context : Handle) (type : SocketType)
  | bind (h : Handle) (addr : List UInt8)
  | connect (h : Handle) (addr : List UInt8)
  | subscribe (h : Handle)
  | close (h : Handle)
  | ctxTerm (h : Handle)
  deriving DecidableEq, Repr

/-- The calls that succeeded, oldest first. -/
structure Zmq where
  log : List ZmqEvent
  deriving DecidableEq, Repr

namespace Zmq

def empty : Zmq := ⟨[]⟩

/-- The handle the next successful creation returns. -/
def fresh (z : Zmq) : Handle := z.log.length

def push (z : Zmq) (e : ZmqEvent) : Zmq := ⟨z.log ++ [e]⟩

def ctxNew (ok : Bool) (z : Zmq) : Option Handle × Zmq :=
  if ok then (some z.fresh, z.push (.ctxNew z.fresh)) else (none, z)

def socket (ok : Bool) (context : Handle) (type : SocketType) (z : Zmq) : Option Handle × Zmq :=
  if ok then (some z.fresh, z.push (.socket z.fresh context type)) else (none, z)

/-- `true` for success. -/
def bind (ok : Bool) (h : Handle) (addr : List UInt8) (z : Zmq) : Bool × Zmq :=
  if ok then (true, z.push (.bind h addr)) else (false, z)

def connect (ok : Bool) (h : Handle) (addr : List UInt8) (z : Zmq) : Bool × Zmq :=
  if ok then (true, z.push (.connect h addr)) else (false, z)

/-- `zmq_setsockopt(h, ZMQ_SUBSCRIBE, "", 0)`. -/
def subscribe (h : Handle) (z : Zmq) : Zmq := z.push (.subscribe h)

/-- `if (h) zmq_close(h)`. -/
def close (h : Option Handle) (z : Zmq) : Zmq :=
  match h with
  | some h => z.push (.close h)
  | none => z

/-- `if (h) zmq_ctx_term(h)`. -/
def ctxTerm (h : Option Handle) (z : Zmq) : Zmq :=
  match h with
  | some h => z.push (.ctxTerm h)
  | none => z

end Zmq

/-- The bytes of an ASCII literal. -/
def ascii (cs : List Char) : Msg := cs.map fun c => UInt8.ofNat c.toNat

end Simulith
