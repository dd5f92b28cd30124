import Simulith.Client.Socket
import Simulith.Net.Admission

/-!
# The net over its sockets

What a client does in a run of the net, as calls on its ZeroMQ sockets, a time
being the eight bytes published. `net_on_sockets` says that for each client any
run of the net is a run of these calls: the request socket refuses none of them,
and lets every timeout happen.
-/

namespace Simulith

open CStr

/-- The call that an act of the client is. -/
def ClientEnd.call (o : Bytes.Order) (e : ClientEnd) : ClientAct → Option SocketCall
  | .init oc => some (.init oc)
  | .subscribe => none
  | .send => e.run.toSend.map .send
  | .sendFail => some .sendFail
  | .reply =>
    match e.requester with
    | .replied m => some (.recv m)
    | _ => none
  | .timeout => some .recvFail
  | .tick => e.feed.head?.map fun t => .message (Bytes.toBytes o t)
  | .restart => some .restart

/-- The call of client `c` that a step is, if it is one. -/
def Net.call {ι : Type*} [DecidableEq ι] (o : Bytes.Order) (c : ι) (σ : Net ι) :
    Act ι → Option SocketCall
  | .client c' b => if c' = c then (σ.ends c).call o b else none
  | _ => none

/-- A client on its sockets runs the same program, its requester as the program counts on it. -/
structure SocketClient.Mirrors (r : SocketClient) (run : ClientRun) : Prop where
  run : r.run = run
  sound : r.Sound
  ready : r.run.pc = .ready → r.req = .new ∧ r.run.connected = true
  await : r.run.pc = .await → r.req.rcvTimeo = 1000

variable {o : Bytes.Order} {args : ClientArgs} {r r' : SocketClient} {e e' : ClientEnd}
  {b : ClientAct}

theorem Zmq.connected_push (z : Zmq) (h : Handle) (addr : List UInt8) :
    (z.push (.connect h addr)).connected h = true := by
  simp [Zmq.connected, Zmq.push]

theorem clientInit_connected {oc : ClientOutcome} {pubAddr repAddr id : List UInt8}
    {rateNs : UInt64} {c c' : Client} {z z' : Zmq}
    (h : simulithClientInit oc (some pubAddr) (some repAddr) (some id) rateNs c z = (0, c', z')) :
    ∃ q, c'.requester = some q ∧ z'.connected q = true := by
  have hid : strlen id ≠ 0 := by
    intro h0
    simp [simulithClientInit, h0] at h
  have hr : rateNs ≠ 0 := by
    rintro rfl
    simp [simulithClientInit, hid] at h
  obtain ⟨ctxNew, subscriber, subConnect, requester, reqConnect⟩ := oc
  simp only [simulithClientInit, if_neg hid, if_neg hr] at h
  -- each call that fails returns -1
  cases ctxNew with
  | false => cases h
  | true => cases subscriber with
    | false => cases h
    | true => cases subConnect with
      | false => cases h
      | true => cases requester with
        | false => cases h
        | true => cases reqConnect with
          | false => cases h
          | true =>
            cases h
            exact ⟨_, rfl, Zmq.connected_push _ _ _⟩

theorem ClientRun.connected_init {r r' : ClientRun} {oc : ClientOutcome}
    (h : r.step args (.init oc) = some r') (hp : r'.pc = .ready) : r'.connected = true := by
  simp only [ClientRun.step] at h
  split at h
  · cases h
    generalize hinit : simulithClientInit oc (some args.pubAddr) (some args.repAddr)
      (some args.id) args.rateNs r.client r.zmq = u at hp
    obtain ⟨result, client, zmq⟩ := u
    obtain rfl : result = 0 := by
      by_contra h0
      simp only [if_neg h0, reduceCtorEq] at hp
    obtain ⟨q, hq, hconnected⟩ := clientInit_connected hinit
    simp only [ClientRun.connected, hq, Option.any_some, hconnected]
  · cases h

/-- An act of the client is a call that its sockets allow, or none. -/
theorem SocketClient.Mirrors.step (h : r.Mirrors e.run) (he : e.step args b = some e') :
    (e.call o b = none ∧ r.Mirrors e'.run) ∨
      ∃ a r', e.call o b = some a ∧ r.step o args a = some r' ∧ r'.Mirrors e'.run := by
  obtain ⟨run, req⟩ := r
  obtain rfl : run = e.run := h.run
  -- a call is made, and what remains is the request socket after it
  have hcall : ∀ a req', e.call o b = some a →
      SocketClient.step o args ⟨e.run, req⟩ a = some ⟨e'.run, req'⟩ →
      (e'.run.pc = .ready → req' = .new ∧ e'.run.connected = true) →
      (e'.run.pc = .await → req'.rcvTimeo = 1000) →
      ∃ a r', e.call o b = some a ∧ SocketClient.step o args ⟨e.run, req⟩ a = some r' ∧
        r'.Mirrors e'.run :=
    fun a req' ha hs hready hawait =>
      ⟨a, ⟨e'.run, req'⟩, ha, hs, rfl, h.sound.step (.of_step hs), hready, hawait⟩
  cases b with
  | init oc =>
    obtain ⟨run, hrun, rfl⟩ := Option.map_eq_some_iff.mp he
    refine .inr (hcall _ .new rfl ?_ (fun hp => ⟨rfl, ClientRun.connected_init hrun hp⟩) ?_)
    · simp only [ClientRun.step] at hrun
      split at hrun
      · next hp =>
        cases hrun
        simp only [SocketClient.step, hp, if_true]
      · cases hrun
    · obtain ⟨-, hp | hp, -⟩ := ClientRun.step_init hrun <;> simp [hp]
  | subscribe =>
    cases EndStep.of_step he with
    | subscribe => exact .inl ⟨rfl, rfl, h.sound, h.ready, h.await⟩
  | send =>
    cases EndStep.of_step he with
    | sendReady hp _ =>
      obtain ⟨hreq, hq⟩ := h.ready hp
      obtain rfl : req = .new := hreq
      refine .inr (hcall (.send e.run.client.readyMsg) ⟨true, 1000⟩ ?_ ?_ (by simp) fun _ => rfl)
      · simp [ClientEnd.call, ClientRun.toSend, hp]
      · have hsend : SocketClient.CanSend ⟨e.run, .new⟩ := ⟨hq, rfl⟩
        simp [SocketClient.step, hp, hsend, SocketClient.goto]
    | sendAck hp _ =>
      obtain rfl : req = .new := h.sound.loop (.inr hp)
      refine .inr (hcall (.send e.run.client.ackMsg) ⟨true, -1⟩ ?_ ?_ (by simp) (by simp))
      · simp [ClientEnd.call, ClientRun.toSend, hp]
      · have hsend : SocketClient.CanSend ⟨e.run, .new⟩ :=
          ⟨h.sound.connected (.inr (by simp only [hp]; trivial)), rfl⟩
        simp only [SocketClient.step, hp, hsend, and_self, if_true]
        rfl
  | sendFail =>
    cases EndStep.of_step he with
    | sendFail hp =>
      refine .inr (hcall .sendFail { req with rcvTimeo := 1000 } rfl ?_ (by simp) (by simp))
      simp [SocketClient.step, hp, SocketClient.goto]
  | reply =>
    cases EndStep.of_step he with
    | joinReply m hp hm =>
      have ha : req.awaiting = true := h.sound.await hp
      refine .inr (hcall (.recv m)
        ⟨false, if (e.run.handshakeReceived m).pc = .tick then -1 else req.rcvTimeo⟩ ?_ ?_ ?_ ?_)
      · simp [ClientEnd.call, hm]
      · simp [SocketClient.step, hp, ha]
      · rcases e.run.handshakeReceived_pc m with hp' | hp' | hp' <;> simp [hp']
      · rcases e.run.handshakeReceived_pc m with hp' | hp' | hp' <;> simp [hp']
    | ackReply m hp hm =>
      obtain rfl : req = ⟨true, -1⟩ := h.sound.ackWait hp
      refine .inr (hcall (.recv m) ⟨false, -1⟩ ?_ ?_ (by simp) (by simp))
      · simp [ClientEnd.call, hm]
      · simp [SocketClient.step, hp, SocketClient.goto]
  | timeout =>
    cases EndStep.of_step he with
    | timeout hp =>
      have hf : SocketClient.RecvCanFail ⟨e.run, req⟩ :=
        .inr (.inr (by rw [show req.rcvTimeo = 1000 from h.await hp]; decide))
      refine .inr (hcall .recvFail req rfl ?_ (by simp) (by simp))
      simp [SocketClient.step, hp, hf, SocketClient.goto]
  | tick =>
    cases EndStep.of_step he with
    | tick t feed hp hf =>
      refine .inr (hcall (.message (Bytes.toBytes o t)) req ?_ ?_ (by simp) (by simp))
      · simp [ClientEnd.call, hf]
      · simp [SocketClient.step, SocketClient.tickReceived, hp]
  | restart =>
    obtain ⟨run, hrun, rfl⟩ := Option.map_eq_some_iff.mp he
    simp only [ClientRun.step] at hrun
    split at hrun
    · next hp =>
      cases hrun
      refine .inr (hcall .restart req rfl ?_ (by simp) (by simp))
      simp only [SocketClient.step, hp, if_true]
    · cases hrun

theorem mirrors_zero : SocketClient.zero.Mirrors .zero :=
  ⟨rfl, sound_zero, by simp [SocketClient.zero, ClientRun.zero],
    by simp [SocketClient.zero, ClientRun.zero]⟩

/-- **The net keeps to the rules of its sockets.** In every run of the net, whatever
is lost, times out or starts over, what each client does is a run of its ZeroMQ
calls, the times published as eight bytes in either order: its requester refuses no
request and every receive that fails is one that can. -/
theorem net_on_sockets {ι : Type*} [DecidableEq ι] {args : ι → ClientArgs} {s : Server}
    {acts : List (Act ι)} {σ : Net ι}
    (he : Lts.exec (Net.step args) (Net.init ι s) acts = some σ) (o : Bytes.Order) (c : ι) :
    ∃ r, Lts.exec (SocketClient.step o (args c)) .zero
        (Lts.trace (Net.step args) (Net.call o c) (Net.init ι s) acts) = some r ∧
      r.run = (σ.ends c).run := by
  have hsim : ∃ r, Lts.exec (SocketClient.step o (args c)) .zero
      (Lts.trace (Net.step args) (Net.call o c) (Net.init ι s) acts) = some r ∧
      r.Mirrors (σ.ends c).run := by
    refine Lts.exec_simulates (R := fun σ r => SocketClient.Mirrors r (σ.ends c).run)
      (P := fun _ _ => True)
      (fun σ r a σ' h _ hs => ?_) mirrors_zero (Lts.along_of_forall fun _ _ _ => trivial) he
    by_cases ha : ∃ b, a = .client c b
    · obtain ⟨b, rfl⟩ := ha
      obtain ⟨e, he, rfl⟩ := Option.map_eq_some_iff.mp hs
      have hends : (σ.setEnd c e).ends c = e := Function.update_self _ _ _
      simpa only [Net.call, if_true, hends] using h.step he
    · -- the program is at rest while others act
      have hrun : (σ'.ends c).run = (σ.ends c).run :=
        (NetStep.of_step hs).run_eq fun b hb => ha ⟨b, hb⟩
      refine .inl ⟨?_, hrun ▸ h⟩
      cases a with
      | client c' b => exact if_neg fun hc => ha ⟨b, by rw [hc]⟩
      | _ => rfl
  obtain ⟨r, hr, h⟩ := hsim
  exact ⟨r, hr, h.run⟩

theorem net_on_sockets_one_client :
    let args : Fin 1 → ClientArgs := fun _ => ClientArgs.named [97] (by decide) (by decide)
    let acts : List (Act (Fin 1)) := .client 0 (.init .ok) :: .client 0 .subscribe ::
      [.client 0 .send, .request 0, .answer, .client 0 .reply, .broadcast fun _ => true,
        .client 0 .tick, .client 0 .send]
    ∃ σ r, Lts.exec (Net.step args) (Net.init (Fin 1) (.fresh 1 10)) acts = some σ ∧
      Lts.exec (SocketClient.step .big (args 0)) .zero
        [.init .ok, .send (readyWord ++ [space, 97]), .recv Reply.ack.bytes,
          .message [0, 0, 0, 0, 0, 0, 0, 0], .send [97]] = some r ∧
      r.run = (σ.ends 0).run :=
  have ⟨σ, h⟩ := Option.isSome_iff_exists.mp (by decide)
  have ⟨r, hr⟩ := net_on_sockets h .big 0
  ⟨σ, r, h, hr⟩

end Simulith
