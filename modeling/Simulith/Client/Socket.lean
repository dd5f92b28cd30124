import Simulith.Bytes.Basic
import Simulith.Client.End
import Simulith.Lts.Latest
import Simulith.Lts.Refine

/-!
# A client on its sockets

The client's functions once more, with what ZeroMQ does to a request socket: it
refuses a second request while the first is unanswered, it waits for an answer
as long as `ZMQ_RCVTIMEO` says, and it has nobody to send to until
`zmq_connect` has succeeded: then `zmq_send` blocks. The run loop ignores what
`zmq_send` and `zmq_recv` return; `client_refines` says that it can afford to,
so that `ClientRun` is what a client does. A handshake may be called after the
initialisation or another handshake has failed; `retry_iff` says when that can
help. Interrupted calls are left out.
-/

namespace Simulith

open CStr

/-- A request socket. -/
structure ReqSocket where
  /-- a request has been sent and not answered -/
  awaiting : Bool
  /-- `ZMQ_RCVTIMEO`, in milliseconds; -1 is no limit -/
  rcvTimeo : Int
  deriving DecidableEq

/-- As `zmq_socket` creates it. -/
def ReqSocket.new : ReqSocket := ⟨false, -1⟩

structure SocketClient where
  run : ClientRun
  req : ReqSocket
  deriving DecidableEq

/-- `zmq_connect` has succeeded on the socket. -/
def Zmq.connected (z : Zmq) (h : Handle) : Bool :=
  z.log.any fun
    | .connect h' _ => h' = h
    | _ => false

/-- There is a requester, and it is connected. -/
def ClientRun.connected (run : ClientRun) : Bool :=
  run.client.requester.any fun h => run.zmq.connected h

inductive SocketCall where
  | init (o : ClientOutcome)
  /-- `zmq_send` on the requester -/
  | send (m : Msg)
  | sendFail
  /-- `zmq_recv` on the requester -/
  | recv (m : Msg)
  | recvFail
  /-- `zmq_recv` on the subscriber -/
  | message (m : Msg)
  | messageFail
  /-- shut down, to start over -/
  | restart
  /-- `simulith_client_handshake` after a failure, on the same sockets -/
  | retry
  deriving DecidableEq

namespace SocketClient

def zero : SocketClient := ⟨.zero, .new⟩

/-- The program goes on at `pc`. -/
def goto (r : SocketClient) (pc : ClientPc) : SocketClient :=
  { r with run := { r.run with pc := pc } }

/-- `zmq_send` on the requester goes through. -/
def CanSend (r : SocketClient) : Prop := r.run.connected = true ∧ r.req.awaiting = false

/-- `zmq_send` on the requester returns -1: it is NULL, or an answer is due first. -/
def SendFails (r : SocketClient) : Prop :=
  r.run.client.requester = none ∨ r.req.awaiting = true

/-- `zmq_recv` on the requester can return -1: it is NULL, no answer is to come, or the wait is
limited. -/
def RecvCanFail (r : SocketClient) : Prop :=
  r.run.client.requester = none ∨ r.req.awaiting = false ∨ 0 ≤ r.req.rcvTimeo

instance (r : SocketClient) : Decidable r.CanSend := inferInstanceAs (Decidable (_ ∧ _))

instance (r : SocketClient) : Decidable r.SendFails := inferInstanceAs (Decidable (_ ∨ _))

instance (r : SocketClient) : Decidable r.RecvCanFail := inferInstanceAs (Decidable (_ ∨ _))

/-- The run loop from the message of the subscriber on: only one of the size of a time counts. -/
def tickReceived (o : Bytes.Order) (args : ClientArgs) (r : SocketClient) (m : Msg) :
    SocketClient :=
  if m.length = 8 then
    { r with run := { r.run with
        ticks := if args.onTick then r.run.ticks ++ [Bytes.ofBytes o m] else r.run.ticks
        pc := .ack } }
  else r

def step (o : Bytes.Order) (args : ClientArgs) (r : SocketClient) :
    SocketCall → Option SocketClient
  | .init oc =>
    if r.run.pc = .start then
      let (result, client, zmq) := simulithClientInit oc (some args.pubAddr) (some args.repAddr)
        (some args.id) args.rateNs r.run.client r.run.zmq
      some ⟨{ r.run with
        client := client, zmq := zmq, pc := if result = 0 then .ready else .failed }, .new⟩
    else none
  | .send m =>
    match r.run.pc with
    | .ready =>
      -- the receive timeout of one second is set first
      if r.CanSend ∧ m = r.run.client.readyMsg then
        some { r.goto .await with req := ⟨true, 1000⟩ }
      else none
    | .ack =>
      if r.CanSend ∧ m = r.run.client.ackMsg then
        some { r.goto .ackWait with req := { r.req with awaiting := true } }
      else none
    | _ => none
  | .sendFail =>
    match r.run.pc with
    | .ready => some { r.goto .failed with req := { r.req with rcvTimeo := 1000 } }
    | .ack => if r.SendFails then some (r.goto .ackWait) else none
    | _ => none
  | .recv m =>
    if r.req.awaiting then
      match r.run.pc with
      | .await =>
        let run := r.run.handshakeReceived m
        some ⟨run, ⟨false, if run.pc = .tick then -1 else r.req.rcvTimeo⟩⟩
      | .ackWait => some { r.goto .tick with req := { r.req with awaiting := false } }
      | _ => none
    else none
  | .recvFail =>
    if r.RecvCanFail then
      match r.run.pc with
      | .await => some (r.goto .failed)
      | .ackWait => some (r.goto .tick)
      | _ => none
    else none
  | .message m => if r.run.pc = .tick then some (r.tickReceived o args m) else none
  | .messageFail => if r.run.pc = .tick then some r else none
  | .restart =>
    if r.run.pc = .failed then
      let (client, zmq) := simulithClientShutdown r.run.client r.run.zmq
      some { r with run := { r.run with client := client, zmq := zmq, pc := .start } }
    else none
  | .retry => if r.run.pc = .failed then some (r.goto .ready) else none

end SocketClient

variable {o : Bytes.Order} {args : ClientArgs} {r r' : SocketClient} {as : List SocketCall}
  {a : SocketCall}

/-- The steps of `SocketClient.step`, one constructor for each outcome. -/
inductive SocketStep (o : Bytes.Order) (args : ClientArgs) (r : SocketClient) :
    SocketCall → SocketClient → Prop where
  | init (oc : ClientOutcome) (run : ClientRun) : r.run.step args (.init oc) = some run →
      run.pc = .ready ∨ run.pc = .failed → SocketStep o args r (.init oc) ⟨run, .new⟩
  | sendReady : r.run.pc = .ready → r.CanSend →
      SocketStep o args r (.send r.run.client.readyMsg)
        { r.goto .await with req := ⟨true, 1000⟩ }
  | sendAck : r.run.pc = .ack → r.CanSend →
      SocketStep o args r (.send r.run.client.ackMsg)
        { r.goto .ackWait with req := { r.req with awaiting := true } }
  | readyFail : r.run.pc = .ready → SocketStep o args r .sendFail
      { r.goto .failed with req := { r.req with rcvTimeo := 1000 } }
  | ackFail : r.run.pc = .ack → r.SendFails →
      SocketStep o args r .sendFail (r.goto .ackWait)
  | joinReply (m : Msg) : r.run.pc = .await → r.req.awaiting = true →
      SocketStep o args r (.recv m) ⟨r.run.handshakeReceived m,
        ⟨false, if (r.run.handshakeReceived m).pc = .tick then -1 else r.req.rcvTimeo⟩⟩
  | ackReply (m : Msg) : r.run.pc = .ackWait → r.req.awaiting = true →
      SocketStep o args r (.recv m) { r.goto .tick with req := { r.req with awaiting := false } }
  | timeout : r.run.pc = .await → SocketStep o args r .recvFail (r.goto .failed)
  | ackTimeout : r.run.pc = .ackWait → r.RecvCanFail → SocketStep o args r .recvFail (r.goto .tick)
  | message (m : Msg) : r.run.pc = .tick →
      SocketStep o args r (.message m) (r.tickReceived o args m)
  | messageFail : r.run.pc = .tick → SocketStep o args r .messageFail r
  | restart (run : ClientRun) : r.run.step args .restart = some run → run.pc = .start →
      run.ticks = r.run.ticks → SocketStep o args r .restart ⟨run, r.req⟩
  | retry : r.run.pc = .failed → SocketStep o args r .retry (r.goto .ready)

theorem SocketStep.of_step (h : r.step o args a = some r') : SocketStep o args r a r' := by
  cases a with
  | init oc =>
    simp only [SocketClient.step] at h
    split at h
    · next hp =>
      cases h
      refine .init oc _ (by simp only [ClientRun.step, hp, if_true]) ?_
      simp only
      split
      · exact .inl rfl
      · exact .inr rfl
    · cases h
  | send m =>
    simp only [SocketClient.step] at h
    split at h
    · next hp =>
      split at h
      · next hc =>
        cases h
        obtain ⟨hsend, rfl⟩ := hc
        exact .sendReady hp hsend
      · cases h
    · next hp =>
      split at h
      · next hc =>
        cases h
        obtain ⟨hsend, rfl⟩ := hc
        exact .sendAck hp hsend
      · cases h
    · cases h
  | sendFail =>
    simp only [SocketClient.step] at h
    split at h
    · next hp => cases h; exact .readyFail hp
    · next hp =>
      split at h
      · next hf => cases h; exact .ackFail hp hf
      · cases h
    · cases h
  | recv m =>
    simp only [SocketClient.step] at h
    split at h
    · next ha =>
      split at h
      · next hp => cases h; exact .joinReply m hp ha
      · next hp => cases h; exact .ackReply m hp ha
      · cases h
    · cases h
  | recvFail =>
    simp only [SocketClient.step] at h
    split at h
    · next hf =>
      split at h
      · next hp => cases h; exact .timeout hp
      · next hp => cases h; exact .ackTimeout hp hf
      · cases h
    · cases h
  | message m =>
    simp only [SocketClient.step] at h
    split at h
    · next hp => cases h; exact .message m hp
    · cases h
  | messageFail =>
    simp only [SocketClient.step] at h
    split at h
    · next hp => cases h; exact .messageFail hp
    · cases h
  | restart =>
    simp only [SocketClient.step] at h
    split at h
    · next hp =>
      cases h
      exact .restart _ (by simp only [ClientRun.step, hp, if_true]) rfl rfl
    · cases h
  | retry =>
    simp only [SocketClient.step] at h
    split at h
    · next hp => cases h; exact .retry hp
    · cases h

/-! ## The requester in step with the program -/

/-- The requester is in the state the program counts on. -/
structure SocketClient.Sound (r : SocketClient) : Prop where
  await : r.run.pc = .await → r.req.awaiting = true
  loop : r.run.pc = .tick ∨ r.run.pc = .ack → r.req = .new
  ackWait : r.run.pc = .ackWait → r.req = ⟨true, -1⟩
  connected : r.run.pc = .await ∨ r.run.pc.Joined → r.run.connected = true

theorem ClientRun.requester_of_connected {run : ClientRun} (h : run.connected = true) :
    run.client.requester ≠ none := by
  intro hnone
  unfold ClientRun.connected at h
  rw [hnone] at h
  cases h

theorem ClientRun.connected_handshakeReceived (run : ClientRun) (m : Msg) :
    (run.handshakeReceived m).connected = run.connected := by
  unfold ClientRun.handshakeReceived
  split <;> rfl

/-- In the run loop `zmq_send` does not fail. -/
theorem SocketClient.Sound.not_sendFails (h : r.Sound) (hp : r.run.pc = .ack) :
    ¬ r.SendFails := by
  rintro (hnone | hw)
  · exact ClientRun.requester_of_connected (h.connected (.inr (by rw [hp]; trivial))) hnone
  · rw [h.loop (.inr hp)] at hw
    cases hw

theorem SocketClient.Sound.not_recvCanFail (h : r.Sound) (hp : r.run.pc = .ackWait) :
    ¬ r.RecvCanFail := by
  rintro (hnone | hf)
  · exact ClientRun.requester_of_connected (h.connected (.inr (by rw [hp]; trivial))) hnone
  · rw [h.ackWait hp] at hf
    rcases hf with hf | hf <;> cases hf

theorem SocketClient.Sound.step (h : r.Sound) (hs : SocketStep o args r a r') : r'.Sound := by
  -- where the program is neither in the handshake nor in the run loop nothing is counted on
  have hout : ∀ r' : SocketClient,
      r'.run.pc = .start ∨ r'.run.pc = .ready ∨ r'.run.pc = .failed ∨ r'.run.pc = .undefined →
      r'.Sound := by
    rintro r' (hp | hp | hp | hp) <;>
      exact ⟨by simp [hp], by simp [hp], by simp [hp], by simp [hp, ClientPc.Joined]⟩
  cases hs with
  | init oc run _ hpc => rcases hpc with hpc | hpc <;> exact hout _ (by simp [hpc])
  | sendReady _ hsend => exact ⟨fun _ => rfl, by simp [goto], by simp [goto], fun _ => hsend.1⟩
  | sendAck hp hsend =>
    exact ⟨by simp [goto], by simp [goto], fun _ => by rw [h.loop (.inr hp)]; rfl,
      fun _ => hsend.1⟩
  | readyFail => exact hout _ (by simp [goto])
  | ackFail hp hf => exact absurd hf (h.not_sendFails hp)
  | joinReply m hp _ =>
    rcases r.run.handshakeReceived_pc m with hpc | hpc | hpc
    · refine ⟨by simp [hpc], fun _ => by simp [hpc, ReqSocket.new], by simp [hpc], fun _ => ?_⟩
      exact (r.run.connected_handshakeReceived m).trans (h.connected (.inl hp))
    · exact hout _ (by simp [hpc])
    · exact hout _ (by simp [hpc])
  | ackReply m hp _ =>
    exact ⟨by simp [goto], fun _ => by rw [h.ackWait hp]; rfl, by simp [goto],
      fun _ => h.connected (.inr (by rw [hp]; trivial))⟩
  | timeout => exact hout _ (by simp [goto])
  | ackTimeout hp hf => exact absurd hf (h.not_recvCanFail hp)
  | message m hp =>
    unfold tickReceived
    split
    · exact ⟨by simp, fun _ => h.loop (.inl hp), by simp,
        fun _ => h.connected (.inr (by rw [hp]; trivial))⟩
    · exact h
  | messageFail => exact h
  | restart run _ hpc => exact hout _ (by simp [hpc])
  | retry => exact hout _ (by simp [goto])

theorem sound_zero : SocketClient.zero.Sound := by
  constructor <;> simp [SocketClient.zero, ClientRun.zero, ClientPc.Joined]

/-! ## Refinement -/

/-- The call of the program that `ClientRun` knows. -/
def SocketCall.call (o : Bytes.Order) : SocketCall → Option ClientCall
  | .init oc => some (.init oc)
  | .send m => some (.send m)
  | .sendFail => some .sendFail
  | .recv m => some (.recv m)
  | .recvFail => some .recvFail
  | .message m => if m.length = 8 then some (.tick (Bytes.ofBytes o m)) else none
  | .messageFail => none
  | .restart => some .restart
  | .retry => none

/-- The time a call hands to the run loop. -/
def SocketCall.time (o : Bytes.Order) : SocketCall → Option UInt64
  | .message m => if m.length = 8 then some (Bytes.ofBytes o m) else none
  | _ => none

/-- A call on sound sockets is the program's, or nothing happens. -/
theorem SocketClient.Sound.simulates (h : r.Sound) (ha : a ≠ .retry)
    (hs : SocketStep o args r a r') : (a.call o = none ∧ r'.run = r.run) ∨
      ∃ c, a.call o = some c ∧ r.run.step args c = some r'.run := by
  cases hs with
  | init oc run hrun _ => exact .inr ⟨_, rfl, hrun⟩
  | sendReady hp _ =>
    exact .inr ⟨_, rfl, by simp [ClientRun.step, ClientRun.toSend, hp, goto]⟩
  | sendAck hp _ => exact .inr ⟨_, rfl, by simp [ClientRun.step, ClientRun.toSend, hp, goto]⟩
  | readyFail hp => exact .inr ⟨_, rfl, by simp [ClientRun.step, hp, goto]⟩
  | ackFail hp hf => exact absurd hf (h.not_sendFails hp)
  | joinReply m hp _ => exact .inr ⟨_, rfl, by simp [ClientRun.step, hp]⟩
  | ackReply m hp _ => exact .inr ⟨_, rfl, by simp [ClientRun.step, hp, goto]⟩
  | timeout hp => exact .inr ⟨_, rfl, by simp [ClientRun.step, hp, goto]⟩
  | ackTimeout hp hf => exact absurd hf (h.not_recvCanFail hp)
  | message m hp =>
    unfold tickReceived
    split
    · next h8 => exact .inr ⟨_, if_pos h8, by simp [ClientRun.step, hp]⟩
    · next h8 => exact .inl ⟨if_neg h8, rfl⟩
  | messageFail => exact .inl ⟨rfl, rfl⟩
  | restart run hrun _ _ => exact .inr ⟨_, rfl, hrun⟩
  | retry => exact absurd rfl ha

theorem SocketStep.ticks (on : args.onTick = true) (hs : SocketStep o args r a r') :
    r'.run.ticks = r.run.ticks ++ (a.time o).toList := by
  cases hs with
  | init oc run hrun _ =>
    exact (ClientRun.step_init hrun).2.2.2.1.trans (List.append_nil _).symm
  | joinReply m _ _ =>
    refine Eq.trans ?_ (List.append_nil _).symm
    unfold ClientRun.handshakeReceived
    split <;> rfl
  | message m hp =>
    by_cases h8 : m.length = 8
    · simp [SocketClient.tickReceived, SocketCall.time, h8, on]
    · simp [SocketClient.tickReceived, SocketCall.time, h8]
  | restart run _ _ ht => exact ht.trans (List.append_nil _).symm
  | _ => exact (List.append_nil _).symm

theorem SocketClient.Sound.not_joined_of_fail (h : r.Sound) (ha : a = .sendFail ∨ a = .recvFail)
    (hs : SocketStep o args r a r') : ¬ r.run.pc.Joined := by
  cases hs with
  | readyFail hp => rw [hp]; exact id
  | ackFail hp hf => exact absurd hf (h.not_sendFails hp)
  | timeout hp => rw [hp]; exact id
  | ackTimeout hp hf => exact absurd hf (h.not_recvCanFail hp)
  | _ => rcases ha with ha | ha <;> cases ha

/-- **What a client does on its sockets is what its program does.** Whatever
messages reach its subscriber: those that are not a time are passed over, the
others given to `on_tick`, each once and in order; and after a handshake that
returned 0 no `zmq_send` and no `zmq_recv` on the requester returns -1. Only a
handshake called again is not in `ClientRun`. -/
theorem client_refines (he : Lts.exec (SocketClient.step o args) .zero as = some r) :
    (.retry ∉ as →
      Lts.exec (ClientRun.step args) .zero (as.filterMap (SocketCall.call o)) = some r.run) ∧
    (args.onTick = true → r.run.ticks = as.filterMap (SocketCall.time o)) ∧
    ∀ pre a post u, as = pre ++ a :: post → (a = .sendFail ∨ a = .recvFail) →
      Lts.exec (SocketClient.step o args) .zero pre = some u → ¬ u.run.pc.Joined := by
  refine ⟨fun hno => ?_, fun on => ?_, fun pre a post u has ha hu => ?_⟩
  · have hsim : ∃ run, Lts.exec (ClientRun.step args) ClientRun.zero
        (Lts.trace (SocketClient.step o args) (fun _ => SocketCall.call o) .zero as) = some run ∧
        r.Sound ∧ r.run = run := by
      refine Lts.exec_simulates (R := fun r run => r.Sound ∧ r.run = run)
        (P := fun _ a => a ≠ .retry) (fun r run a r' h ha hs => ?_) ⟨sound_zero, rfl⟩
        (Lts.along_of_forall fun a ha _ => ne_of_mem_of_not_mem ha hno) he
      obtain ⟨h, rfl⟩ := h
      have hs' := SocketStep.of_step hs
      rcases h.simulates ha hs' with ⟨hc, hr⟩ | ⟨c, hc, hr⟩
      · exact .inl ⟨hc, h.step hs', hr⟩
      · exact .inr ⟨c, r'.run, hc, hr, h.step hs', rfl⟩
    rw [Lts.trace_label he] at hsim
    obtain ⟨run, hrun, -, rfl⟩ := hsim
    exact hrun
  · refine Lts.exec_trace (H := fun as r => r.run.ticks = as.filterMap (SocketCall.time o)) rfl
      (fun as r a r' ih hs => ?_) he
    rw [(SocketStep.of_step hs).ticks on, ih, List.filterMap_append, List.filterMap_cons,
      List.filterMap_nil]
    cases a.time o <;> rfl
  · have hsound : u.Sound := Lts.exec_preserves
      (fun _ _ _ h hs => h.step (SocketStep.of_step hs)) sound_zero hu
    rw [has, Lts.exec_append_eq_some] at he
    obtain ⟨u', hu', hpost⟩ := he
    cases hu.symm.trans hu'
    obtain ⟨v, hv, -⟩ := Lts.exec_cons_eq_some.mp hpost
    exact hsound.not_joined_of_fail ha (SocketStep.of_step hv)

theorem client_refines_one_tick :
    let args := ClientArgs.named [97] (by decide) (by decide)
    let as : List SocketCall := [.init .ok, .send (readyWord ++ [space, 97]),
      .recv Reply.ack.bytes, .message [1, 2, 3], .message (Bytes.toBytes .little 10), .send [97],
      .recv Reply.ack.bytes]
    ∃ r, Lts.exec (SocketClient.step .little args) .zero as = some r ∧ r.run.ticks = [10] :=
  have ⟨r, h⟩ := Option.isSome_iff_exists.mp (by decide)
  ⟨r, h, (client_refines h).2.1 rfl⟩

/-! ## Once more -/

/-- The calls that create new sockets. -/
def SocketCall.asInit : SocketCall → Option Unit
  | .init _ => some ()
  | _ => none

/-- On the sockets it has, the client has waited for an answer in vain. -/
def TimedOut (as : List SocketCall) : Prop := .recvFail ∈ Lts.since SocketCall.asInit as

instance (as : List SocketCall) : Decidable (TimedOut as) := inferInstanceAs (Decidable (_ ∈ _))

theorem timedOut_snoc (ha : a.asInit = none) :
    TimedOut (as ++ [a]) ↔ TimedOut as ∨ a = .recvFail := by
  rw [TimedOut, Lts.since_snoc_none ha, List.mem_append, List.mem_singleton]
  exact or_congr_right eq_comm

/-- A request is unanswered exactly if the client has given up on it. -/
structure Stranded (as : List SocketCall) (r : SocketClient) : Prop where
  sound : r.Sound
  unanswered : r.run.pc = .ready ∨ r.run.pc = .failed → (r.req.awaiting = true ↔ TimedOut as)
  fresh : r.run.pc = .await ∨ r.run.pc.Joined → ¬ TimedOut as

theorem Stranded.step (h : Stranded as r) (hs : SocketStep o args r a r') :
    Stranded (as ++ [a]) r' := by
  refine ⟨h.sound.step hs, ?_, ?_⟩
  · cases hs with
    | init oc run _ _ =>
      intro _
      rw [TimedOut, Lts.since_snoc_some (show SocketCall.asInit (.init oc) = some () from rfl)]
      exact iff_of_false (by simp [ReqSocket.new]) List.not_mem_nil
    | sendReady => simp [SocketClient.goto]
    | sendAck => simp [SocketClient.goto]
    | readyFail hp =>
      intro _
      rw [timedOut_snoc rfl]
      simpa [SocketClient.goto] using h.unanswered (.inl hp)
    | ackFail => simp [SocketClient.goto]
    | joinReply m hp _ =>
      intro _
      rw [timedOut_snoc rfl]
      exact iff_of_false (by simp) (by simpa using h.fresh (.inl hp))
    | ackReply => simp [SocketClient.goto]
    | timeout hp =>
      intro _
      rw [timedOut_snoc rfl]
      simpa [SocketClient.goto] using h.sound.await hp
    | ackTimeout => simp [SocketClient.goto]
    | message m hp =>
      unfold SocketClient.tickReceived
      split <;> simp [hp]
    | messageFail hp => simp [hp]
    | restart run _ hpc => simp [hpc]
    | retry hp =>
      intro _
      rw [timedOut_snoc rfl]
      simpa [SocketClient.goto] using h.unanswered (.inr hp)
  · have hkeep : ∀ {p : ClientPc}, r.run.pc = p → (p = .await ∨ p.Joined) → a.asInit = none →
        a ≠ .recvFail → ¬ TimedOut (as ++ [a]) := by
      rintro p rfl hp hi hne
      rw [timedOut_snoc hi, or_iff_left hne]
      exact h.fresh hp
    cases hs with
    | init oc run _ hpc => rcases hpc with hpc | hpc <;> simp [hpc, ClientPc.Joined]
    | sendReady hp hsend =>
      intro _
      rw [timedOut_snoc rfl, ← h.unanswered (.inl hp), hsend.2]
      simp
    | sendAck hp _ => exact fun _ => hkeep hp (.inr trivial) rfl (by simp)
    | readyFail => simp [SocketClient.goto, ClientPc.Joined]
    | ackFail hp _ => exact fun _ => hkeep hp (.inr trivial) rfl (by simp)
    | joinReply m hp _ => exact fun _ => hkeep hp (.inl rfl) rfl (by simp)
    | ackReply m hp _ => exact fun _ => hkeep hp (.inr trivial) rfl (by simp)
    | timeout => simp [SocketClient.goto, ClientPc.Joined]
    | ackTimeout hp hf => exact absurd hf (h.sound.not_recvCanFail hp)
    | message m hp => exact fun _ => hkeep hp (.inr trivial) rfl (by simp)
    | messageFail hp => exact fun _ => hkeep hp (.inr trivial) rfl (by simp)
    | restart run _ hpc => simp [hpc, ClientPc.Joined]
    | retry => simp [SocketClient.goto, ClientPc.Joined]

/-- Outside the run loop, with no way to send. -/
structure Muted (r : SocketClient) : Prop where
  pc : r.run.pc = .ready ∨ r.run.pc = .failed
  mute : ¬ r.CanSend

theorem Muted.step (h : Muted r) (ha : a ≠ .restart) (hs : SocketStep o args r a r') :
    Muted r' := by
  cases hs with
  | readyFail => exact ⟨.inr rfl, h.mute⟩
  | retry => exact ⟨.inl rfl, h.mute⟩
  | restart => exact absurd rfl ha
  | sendReady _ hsend => exact absurd hsend h.mute
  | init oc run hrun _ =>
    have hp := (ClientRun.step_init hrun).1
    rcases h.pc with h | h <;> rw [hp] at h <;> cases h
  | _ => rcases h.pc with h | h <;> simp_all

end Simulith
