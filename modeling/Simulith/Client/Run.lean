import Simulith.Client.State

/-!
# A client's program

A client runs `simulith_client_init`, then `simulith_client_handshake`, and if
that returns 0 `simulith_client_run_loop`. `ClientPc` is the ZeroMQ call it is
about to make; `failed` is a client whose initialisation or handshake returned
-1, which may start over with the same arguments.
-/

namespace Simulith

open CStr

/-- The arguments a client program passes, acceptable to `simulith_client_init`. -/
structure ClientArgs where
  pubAddr : List UInt8
  repAddr : List UInt8
  id : List UInt8
  rateNs : UInt64
  /-- `on_tick` is not NULL -/
  onTick : Bool
  id_ne : id ≠ []
  id_cstr : 0 ∉ id
  rate_ne : rateNs ≠ 0

/-- The client with this id. -/
def ClientArgs.named (id : List UInt8) (h : id ≠ []) (h0 : 0 ∉ id) : ClientArgs :=
  ⟨[], [], id, 1, true, h, h0, by decide⟩

/-- `simulith_client_handshake` from the terminated reply on. -/
def handshakeResult (buffer : List UInt8) : Int :=
  if strcmp buffer Reply.dupId.bytes = 0 then -1
  else if strcmp buffer Reply.ack.bytes ≠ 0 then -1
  else 0

inductive ClientPc where
  /-- before `simulith_client_init` -/
  | start
  /-- in the handshake, before `zmq_send` -/
  | ready
  /-- in the handshake, at `zmq_recv` -/
  | await
  /-- in the run loop, at `zmq_recv` on the subscriber -/
  | tick
  /-- in the run loop, before `zmq_send` -/
  | ack
  /-- in the run loop, at `zmq_recv` on the requester -/
  | ackWait
  | failed
  | undefined
  deriving DecidableEq, Repr

/-- The handshake has returned 0. -/
def ClientPc.Joined : ClientPc → Prop
  | .tick => True
  | .ack => True
  | .ackWait => True
  | _ => False

instance (p : ClientPc) : Decidable p.Joined := by
  cases p <;> unfold ClientPc.Joined <;> infer_instance

structure ClientRun where
  client : Client
  zmq : Zmq
  pc : ClientPc
  /-- the arguments `on_tick` has been called with -/
  ticks : List UInt64
  deriving DecidableEq

inductive ClientCall where
  | init (o : ClientOutcome)
  /-- `zmq_send` on the requester -/
  | send (m : Msg)
  /-- `zmq_send` on the requester returns -1 -/
  | sendFail
  /-- `zmq_recv` on the requester returns a reply -/
  | recv (m : Msg)
  /-- `zmq_recv` on the requester returns -1, as after the timeout -/
  | recvFail
  /-- `zmq_recv` on the subscriber returns the eight bytes of a time -/
  | tick (timeNs : UInt64)
  /-- shut down, to start over -/
  | restart
  deriving DecidableEq

namespace ClientRun

/-- A program that has not begun. -/
def zero : ClientRun := ⟨.zero, .empty, .start, []⟩

/-- The message `zmq_send` is about to transmit. -/
def toSend (r : ClientRun) : Option Msg :=
  match r.pc with
  | .ready => some r.client.readyMsg
  | .ack => some r.client.ackMsg
  | _ => none

/-- `simulith_client_handshake` with its reply received. -/
def handshakeReceived (r : ClientRun) (m : Msg) : ClientRun :=
  match recvTerminated 16 m with
  | none => { r with pc := .undefined }
  | some buffer => { r with pc := if handshakeResult buffer.bytes = 0 then .tick else .failed }

def step (args : ClientArgs) (r : ClientRun) : ClientCall → Option ClientRun
  | .init o =>
    if r.pc = .start then
      let (result, client, zmq) := simulithClientInit o (some args.pubAddr) (some args.repAddr)
        (some args.id) args.rateNs r.client r.zmq
      some { r with client := client, zmq := zmq, pc := if result = 0 then .ready else .failed }
    else none
  | .send m =>
    if r.toSend = some m then
      some { r with pc := if r.pc = .ready then .await else .ackWait }
    else none
  | .sendFail => if r.pc = .ready then some { r with pc := .failed } else none
  | .recv m =>
    match r.pc with
    | .await => some (r.handshakeReceived m)
    | .ackWait => some { r with pc := .tick }
    | _ => none
  | .recvFail => if r.pc = .await then some { r with pc := .failed } else none
  | .tick t =>
    if r.pc = .tick then
      some { r with ticks := if args.onTick then r.ticks ++ [t] else r.ticks, pc := .ack }
    else none
  | .restart =>
    if r.pc = .failed then
      let (client, zmq) := simulithClientShutdown r.client r.zmq
      some { r with client := client, zmq := zmq, pc := .start }
    else none

end ClientRun

theorem ClientRun.handshakeReceived_pc (r : ClientRun) (m : Msg) :
    (r.handshakeReceived m).pc = .tick ∨ (r.handshakeReceived m).pc = .failed ∨
      (r.handshakeReceived m).pc = .undefined := by
  unfold ClientRun.handshakeReceived
  split
  · exact .inr (.inr rfl)
  · simp only
    split
    · exact .inl rfl
    · exact .inr (.inl rfl)

/-- Only ACK makes the handshake return 0. -/
theorem handshakeReceived_reply (r : ClientRun) (m : Reply) :
    r.handshakeReceived m.bytes =
      { r with pc := if m = .ack then .tick else .failed } := by
  cases m <;> simp only [ClientRun.handshakeReceived] <;> rfl

end Simulith
