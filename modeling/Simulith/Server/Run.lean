import Simulith.Server.State
import Simulith.Lts.Basic

/-!
# `simulith_server_run`

The server as a machine whose steps are its ZeroMQ calls. `ServerPc` is the
call it is about to make; what it computes between two calls is part of the
step of the first. A reply socket that has delivered a request refuses to
receive until it has sent (`owes`): `recvFail` is then the only outcome of
`zmq_recv`. A store outside the receive buffer has no defined result and
leads to `undefined`, where no call is possible.
-/

namespace Simulith

open CStr

/-- The replies `simulith_server_run` sends. -/
inductive Reply where
  | err | dupId | ack
  deriving DecidableEq, Repr

def Reply.bytes : Reply → Msg
  | .err => ascii ['E', 'R', 'R']
  | .dupId => ascii ['D', 'U', 'P', '_', 'I', 'D']
  | .ack => ascii ['A', 'C', 'K']

def readyWord : Msg := ascii ['R', 'E', 'A', 'D', 'Y']

/-- The byte `' '`. -/
def space : UInt8 := 32

/-- The branches of the handshake loop's body. -/
inductive Verdict where
  | invalid
  | emptyId
  | taken
  | noSlot
  | register (slot : Nat) (clientId : List UInt8)
  deriving DecidableEq, Repr

def Verdict.reply : Verdict → Reply
  | .invalid => .err
  | .emptyId => .err
  | .taken => .dupId
  | .noSlot => .err
  | .register _ _ => .ack

/-- The branch taken for a received message. -/
def handshakeVerdict (s : Server) (buffer : List UInt8) : Verdict :=
  match strchr buffer space with
  | none => .invalid
  | some i =>
    if strncmp 5 buffer readyWord ≠ 0 then .invalid
    else
      let clientId := buffer.drop (i + 1)
      if strlen clientId = 0 then .emptyId
      else if s.isClientIdTaken clientId then .taken
      else
        match s.freeSlot with
        | none => .noSlot
        | some slot => .register slot clientId

/-- The ZeroMQ call the server makes next. -/
inductive ServerPc where
  | handshakeRecv
  | handshakeSend (r : Reply)
  | broadcast
  | tickRecv
  | tickSend
  | undefined
  deriving DecidableEq, Repr

/-- A running `simulith_server_run`. -/
structure ServerRun where
  server : Server
  readyClients : Nat
  pc : ServerPc
  owes : Bool
  deriving DecidableEq

inductive ServerCall where
  /-- `zmq_recv` on the responder returns a request -/
  | recv (m : Msg)
  /-- `zmq_recv` on the responder returns -1 -/
  | recvFail
  /-- `zmq_send` on the responder -/
  | send (m : Msg)
  /-- `zmq_send` of the time on the publisher -/
  | publish (timeNs : UInt64)
  deriving DecidableEq, Repr

namespace ServerRun

/-- `while (ready_clients < expected_clients)`; past it, the first reset. -/
def handshakeHead (σ : ServerRun) : ServerRun :=
  if σ.readyClients < σ.server.expectedClients then { σ with pc := .handshakeRecv }
  else { σ with server := σ.server.resetResponses, pc := .broadcast }

/-- `while (!all_clients_responded())`; past it, the time of the next broadcast. -/
def tickHead (σ : ServerRun) : ServerRun :=
  if σ.server.allClientsResponded then
    { σ with
      server := { σ.server with
        currentTimeNs := σ.server.currentTimeNs + σ.server.tickIntervalNs }
      pc := .broadcast }
  else { σ with pc := .tickRecv }

/-- From a request received in the handshake loop to its reply. An empty one
fails the test `size > 0` and is left unanswered. -/
def handshakeReceived (σ : ServerRun) (m : Msg) : ServerRun :=
  if m.length = 0 then { σ with owes := true }
  else
    match recvTerminated 64 m with
    | none => { σ with pc := .undefined, owes := true }
    | some buffer =>
      match handshakeVerdict σ.server buffer.bytes with
      | .register slot clientId =>
        { server := σ.server.registerClient slot clientId
          readyClients := σ.readyClients + 1
          pc := .handshakeSend .ack
          owes := true }
      | v => { σ with pc := .handshakeSend v.reply, owes := true }

/-- From a request received in the tick loop to its reply. -/
def tickReceived (σ : ServerRun) (m : Msg) : ServerRun :=
  if m.length = 0 then { σ with owes := true }
  else
    match recvTerminated 64 m with
    | none => { σ with pc := .undefined, owes := true }
    | some buffer =>
      { σ with server := σ.server.handleAck buffer.bytes, pc := .tickSend, owes := true }

def step (σ : ServerRun) : ServerCall → Option ServerRun
  | .recv m =>
    if σ.owes then none
    else
      match σ.pc with
      | .handshakeRecv => some (σ.handshakeReceived m)
      | .tickRecv => some (σ.tickReceived m)
      | _ => none
  | .recvFail =>
    match σ.pc with
    | .handshakeRecv => some σ
    | .tickRecv => some σ
    | _ => none
  | .send m =>
    match σ.pc with
    | .handshakeSend r => if m = r.bytes then some { σ with owes := false }.handshakeHead else none
    | .tickSend =>
      if m = Reply.ack.bytes then some { σ with owes := false }.tickHead else none
    | _ => none
  | .publish t =>
    match σ.pc with
    | .broadcast =>
      if t = σ.server.currentTimeNs then
        some { σ with server := σ.server.resetResponses }.tickHead
      else none
    | _ => none

end ServerRun

/-- `simulith_server_run` called in state `s`. -/
def simulithServerRun (s : Server) : ServerRun :=
  { server := s, readyClients := 0, pc := .handshakeRecv, owes := false : ServerRun }.handshakeHead

/-- The request a call receives. -/
def ServerCall.request : ServerCall → Option Msg
  | .recv m => some m
  | _ => none

/-- The time a call broadcasts. -/
def ServerCall.time : ServerCall → Option UInt64
  | .publish t => some t
  | _ => none

/-- The requests received in a list of calls. -/
def requests (cs : List ServerCall) : List Msg := cs.filterMap ServerCall.request

/-- The times broadcast in a list of calls. -/
def publishes (cs : List ServerCall) : List UInt64 := cs.filterMap ServerCall.time

theorem mem_requests {cs : List ServerCall} {m : Msg} : m ∈ requests cs ↔ .recv m ∈ cs := by
  simp only [requests, List.mem_filterMap]
  constructor
  · rintro ⟨c, hc, e⟩
    cases c <;> simp only [ServerCall.request, Option.some.injEq, reduceCtorEq] at e
    exact e ▸ hc
  · exact fun h => ⟨_, h, rfl⟩

end Simulith
