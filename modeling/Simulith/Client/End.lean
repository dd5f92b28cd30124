import Simulith.Client.Run

/-!
# A client with its sockets

`ClientEnd` is a client program with what the network holds for it: the
exchange its requester is in, whether the publisher has processed its
subscription, and the broadcasts delivered to it. `ClientEnd.step` is what
happens at this end, `EndStep` its outcomes, one constructor for each. Of
ZeroMQ it assumes that a requester has one request at a time under way and
takes only the reply to it.
-/

namespace Simulith

/-- A requester socket and the exchange it is in. -/
inductive Requester where
  | idle
  /-- the request is under way to the server -/
  | sent (m : Msg)
  /-- the server has received the request -/
  | held
  /-- the reply has arrived -/
  | replied (m : Msg)
  deriving DecidableEq

/-- The request under way. -/
def Requester.underway : Requester → List Msg
  | .sent m => [m]
  | _ => []

/-- A reply arrives where the request came from. -/
def Requester.answer (m : Msg) : Requester → Requester
  | .held => .replied m
  | r => r

structure ClientEnd where
  run : ClientRun
  requester : Requester
  /-- the publisher has processed the subscription -/
  subscribed : Bool
  /-- the broadcasts delivered and not received yet, oldest first -/
  feed : List UInt64
  deriving DecidableEq

inductive ClientAct where
  | init (o : ClientOutcome)
  /-- the publisher processes the subscription -/
  | subscribe
  | send
  | sendFail
  | reply
  /-- the receive timeout of the handshake fires -/
  | timeout
  | tick
  /-- shut down, to start over with new sockets -/
  | restart
  deriving DecidableEq

namespace ClientEnd

/-- A program that has not begun. -/
def zero : ClientEnd := ⟨.zero, .idle, false, []⟩

/-- A time published: a subscriber has it delivered unless the network drops it. -/
def deliver (heard : Bool) (t : UInt64) (e : ClientEnd) : ClientEnd :=
  if heard && e.subscribed then { e with feed := e.feed ++ [t] } else e

/-- The server's reply goes out. -/
def answer (m : Msg) (e : ClientEnd) : ClientEnd := { e with requester := e.requester.answer m }

/-- The requests that closing the sockets leaves under way. -/
def leaves (e : ClientEnd) : ClientAct → List Msg
  | .restart => e.requester.underway
  | _ => []

def step (args : ClientArgs) (e : ClientEnd) : ClientAct → Option ClientEnd
  | .init o => (e.run.step args (.init o)).map fun r => { e with run := r }
  | .subscribe => if e.run.pc = .start then none else some { e with subscribed := true }
  | .send =>
    match e.run.toSend, e.requester with
    | some m, .idle =>
      (e.run.step args (.send m)).map fun r => { e with run := r, requester := .sent m }
    | _, _ => none
  | .sendFail => (e.run.step args .sendFail).map fun r => { e with run := r }
  | .reply =>
    match e.requester with
    | .replied m =>
      (e.run.step args (.recv m)).map fun r => { e with run := r, requester := .idle }
    | _ => none
  | .timeout => (e.run.step args .recvFail).map fun r => { e with run := r }
  | .tick =>
    match e.feed with
    | t :: feed => (e.run.step args (.tick t)).map fun r => { e with run := r, feed := feed }
    | [] => none
  | .restart => (e.run.step args .restart).map fun r => ⟨r, .idle, false, []⟩

section

variable (heard : Bool) (t : UInt64) (e : ClientEnd)

@[simp] theorem deliver_run : (e.deliver heard t).run = e.run := by
  unfold deliver; split <;> rfl

@[simp] theorem deliver_requester : (e.deliver heard t).requester = e.requester := by
  unfold deliver; split <;> rfl

@[simp] theorem deliver_subscribed : (e.deliver heard t).subscribed = e.subscribed := by
  unfold deliver; split <;> rfl

end

end ClientEnd

theorem ClientRun.step_init {args : ClientArgs} {r r' : ClientRun} {o : ClientOutcome}
    (h : r.step args (.init o) = some r') :
    r.pc = .start ∧ (r'.pc = .ready ∨ r'.pc = .failed) ∧ (o = .ok → r'.pc = .ready) ∧
      r'.ticks = r.ticks ∧ r'.client.name = args.id.take 63 := by
  simp only [ClientRun.step] at h
  split at h
  · next hp =>
    cases h
    refine ⟨hp, ?_, ?_, rfl, ?_⟩
    · simp only
      split
      · exact .inl rfl
      · exact .inr rfl
    · rintro rfl
      have h0 : ¬ CStr.strlen args.id = 0 := by
        rw [CStr.strlen, CStr.str_eq_self args.id_cstr, List.length_eq_zero_iff]
        exact args.id_ne
      simp only [simulithClientInit, if_neg h0, if_neg args.rate_ne]
      rfl
    · have hid : CStr.str args.id ≠ [] := by
        rw [CStr.str_eq_self args.id_cstr]; exact args.id_ne
      exact (clientInit_name hid args.rate_ne).trans (by rw [CStr.str_eq_self args.id_cstr])
  · cases h

/-- The steps of `ClientEnd.step`, one constructor for each outcome. -/
inductive EndStep (args : ClientArgs) (e : ClientEnd) : ClientAct → ClientEnd → Prop where
  | init (o : ClientOutcome) (r : ClientRun) : e.run.pc = .start →
      r.pc = .ready ∨ r.pc = .failed → (o = .ok → r.pc = .ready) → r.ticks = e.run.ticks →
      r.client.name = args.id.take 63 → EndStep args e (.init o) { e with run := r }
  | subscribe : e.run.pc ≠ .start → EndStep args e .subscribe { e with subscribed := true }
  | sendReady : e.run.pc = .ready → e.requester = .idle →
      EndStep args e .send { e with
        run := { e.run with pc := .await }
        requester := .sent e.run.client.readyMsg }
  | sendAck : e.run.pc = .ack → e.requester = .idle →
      EndStep args e .send { e with
        run := { e.run with pc := .ackWait }
        requester := .sent e.run.client.ackMsg }
  | sendFail : e.run.pc = .ready →
      EndStep args e .sendFail { e with run := { e.run with pc := .failed } }
  | joinReply (m : Msg) : e.run.pc = .await → e.requester = .replied m →
      EndStep args e .reply { e with run := e.run.handshakeReceived m, requester := .idle }
  | ackReply (m : Msg) : e.run.pc = .ackWait → e.requester = .replied m →
      EndStep args e .reply { e with run := { e.run with pc := .tick }, requester := .idle }
  | timeout : e.run.pc = .await →
      EndStep args e .timeout { e with run := { e.run with pc := .failed } }
  | tick (t : UInt64) (feed : List UInt64) : e.run.pc = .tick → e.feed = t :: feed →
      EndStep args e .tick { e with
        run := { e.run with
          ticks := if args.onTick then e.run.ticks ++ [t] else e.run.ticks
          pc := .ack }
        feed := feed }
  | restart (r : ClientRun) : e.run.pc = .failed → r.pc = .start →
      EndStep args e .restart ⟨r, .idle, false, []⟩

theorem EndStep.of_step {args : ClientArgs} {e e' : ClientEnd} {a : ClientAct}
    (h : e.step args a = some e') : EndStep args e a e' := by
  cases a with
  | init o =>
    obtain ⟨r, hr, rfl⟩ := Option.map_eq_some_iff.mp h
    obtain ⟨hp, hpc, hok, ht, hn⟩ := ClientRun.step_init hr
    exact .init o r hp hpc hok ht hn
  | subscribe =>
    simp only [ClientEnd.step] at h
    split at h
    · cases h
    · next hp => cases h; exact .subscribe hp
  | send =>
    simp only [ClientEnd.step] at h
    split at h
    · next m hm hidle =>
      obtain ⟨r, hr, rfl⟩ := Option.map_eq_some_iff.mp h
      simp only [ClientRun.step, hm, if_true, Option.some.injEq] at hr
      subst hr
      simp only [ClientRun.toSend] at hm
      split at hm
      · next hp => cases hm; simp only [hp, if_true]; exact .sendReady hp hidle
      · next hp =>
        cases hm
        simp only [hp, reduceCtorEq, if_false]
        exact .sendAck hp hidle
      · cases hm
    · cases h
  | sendFail =>
    obtain ⟨r, hr, rfl⟩ := Option.map_eq_some_iff.mp h
    simp only [ClientRun.step] at hr
    split at hr
    · next hp => cases hr; exact .sendFail hp
    · cases hr
  | reply =>
    simp only [ClientEnd.step] at h
    split at h
    · next m hm =>
      obtain ⟨r, hr, rfl⟩ := Option.map_eq_some_iff.mp h
      simp only [ClientRun.step] at hr
      split at hr
      · next hp => cases hr; exact .joinReply m hp hm
      · next hp => cases hr; exact .ackReply m hp hm
      · cases hr
    · cases h
  | timeout =>
    obtain ⟨r, hr, rfl⟩ := Option.map_eq_some_iff.mp h
    simp only [ClientRun.step] at hr
    split at hr
    · next hp => cases hr; exact .timeout hp
    · cases hr
  | tick =>
    simp only [ClientEnd.step] at h
    split at h
    · next t feed hf =>
      obtain ⟨r, hr, rfl⟩ := Option.map_eq_some_iff.mp h
      simp only [ClientRun.step] at hr
      split at hr
      · next hp => cases hr; exact .tick t feed hp hf
      · cases hr
    · cases h
  | restart =>
    obtain ⟨r, hr, rfl⟩ := Option.map_eq_some_iff.mp h
    simp only [ClientRun.step] at hr
    split at hr
    · next hp => cases hr; exact .restart _ hp rfl
    · cases hr

/-! ## Program and requester -/

/-- The exchange of request `m`, answered if at all by one of the server's replies. -/
def Requester.Carries (m : Msg) : Requester → Prop
  | .idle => False
  | .sent m' => m' = m
  | .held => True
  | .replied m' => ∃ r : Reply, m' = r.bytes

theorem Requester.answer_ne_held (m : Msg) (r : Requester) : r.answer m ≠ .held := by
  cases r <;> exact nofun

theorem Requester.Carries.answer {m : Msg} {r : Requester} (h : r.Carries m) (p : Reply) :
    (r.answer p.bytes).Carries m := by
  cases r with
  | held => exact ⟨p, rfl⟩
  | _ => exact h

/-- The requester is in the exchange the program is in. -/
def ClientEnd.Wired (e : ClientEnd) : Prop :=
  match e.run.pc with
  | .await => e.requester.Carries e.run.client.readyMsg
  | .ackWait => e.requester.Carries e.run.client.ackMsg
  | .failed => e.requester = .idle ∨ e.requester.Carries e.run.client.readyMsg
  | .undefined => False
  | _ => e.requester = .idle

namespace ClientEnd

variable {e e' : ClientEnd} {args : ClientArgs} {a : ClientAct}

theorem Wired.idle (h : e.Wired) (hp : e.run.pc = .start ∨ e.run.pc = .ready ∨ e.run.pc = .tick ∨
    e.run.pc = .ack) : e.requester = .idle := by
  rcases hp with hp | hp | hp | hp <;> simpa only [Wired, hp] using h

theorem Wired.await (h : e.Wired) (hp : e.run.pc = .await) :
    e.requester.Carries e.run.client.readyMsg := by
  simpa only [Wired, hp] using h

theorem Wired.ackWait (h : e.Wired) (hp : e.run.pc = .ackWait) :
    e.requester.Carries e.run.client.ackMsg := by
  simpa only [Wired, hp] using h

theorem Wired.failed (h : e.Wired) (hp : e.run.pc = .failed) :
    e.requester = .idle ∨ e.requester.Carries e.run.client.readyMsg := by
  simpa only [Wired, hp] using h

theorem Wired.ready {m : Msg} (h : e.Wired) (hm : e.requester = .sent m)
    (hp : e.run.pc = .await ∨ e.run.pc = .failed) : m = e.run.client.readyMsg := by
  rcases hp with hp | hp
  · have := h.await hp
    rwa [hm] at this
  · have := (h.failed hp).resolve_left (by rw [hm]; exact nofun)
    rwa [hm] at this

/-- A request under way is READY or an acknowledgement. -/
theorem Wired.sent {m : Msg} (h : e.Wired) (hm : e.requester = .sent m) :
    ((e.run.pc = .await ∨ e.run.pc = .failed) ∧ m = e.run.client.readyMsg) ∨
    (e.run.pc = .ackWait ∧ m = e.run.client.ackMsg) := by
  cases hp : e.run.pc with
  | await => exact .inl ⟨.inl rfl, h.ready hm (.inl hp)⟩
  | failed => exact .inl ⟨.inr rfl, h.ready hm (.inr hp)⟩
  | ackWait =>
    have := h.ackWait hp
    rw [hm] at this
    exact .inr ⟨rfl, this⟩
  | undefined => simp only [Wired, hp] at h
  | _ =>
    have := h.idle (by simp [hp])
    rw [hm] at this
    cases this

theorem wired_of_idle (h : e.requester = .idle)
    (hp : e.run.pc ≠ .await ∧ e.run.pc ≠ .ackWait ∧ e.run.pc ≠ .undefined) : e.Wired := by
  unfold Wired
  split
  · next h' => exact absurd h' hp.1
  · next h' => exact absurd h' hp.2.1
  · exact .inl h
  · next h' => exact absurd h' hp.2.2
  · exact h

theorem wired_step (h : e.Wired) (hs : EndStep args e a e') : e'.Wired := by
  cases hs with
  | init o r hp hpc _ _ _ =>
    have hidle := h.idle (.inl hp)
    rcases hpc with hpc | hpc <;>
      exact wired_of_idle hidle ⟨by simp [hpc], by simp [hpc], by simp [hpc]⟩
  | subscribe _ => exact h
  | sendReady _ _ => exact rfl
  | sendAck _ _ => exact rfl
  | sendFail hp => exact .inl (h.idle (.inr (.inl hp)))
  | joinReply m hp hm =>
    obtain ⟨r, rfl⟩ : ∃ r : Reply, m = r.bytes := by
      have := h.await hp
      rwa [hm] at this
    rw [handshakeReceived_reply]
    exact wired_of_idle rfl (by cases r <;> exact ⟨nofun, nofun, nofun⟩)
  | ackReply _ _ _ => exact rfl
  | timeout hp => exact .inr (h.await hp)
  | tick _ _ hp _ => exact h.idle (.inr (.inr (.inl hp)))
  | restart r _ hr => exact wired_of_idle rfl ⟨by simp [hr], by simp [hr], by simp [hr]⟩

theorem wired_held {m : Msg} (h : e.Wired) (hm : e.requester = .sent m) :
    ({ e with requester := .held } : ClientEnd).Wired := by
  unfold Wired at h ⊢
  cases hp : e.run.pc <;> simp only [hp, hm, reduceCtorEq] at h ⊢
  · trivial
  · trivial
  · exact .inr trivial

theorem wired_answer (h : e.Wired) (r : Reply) : (e.answer r.bytes).Wired := by
  unfold Wired answer at *
  cases hp : e.run.pc <;> simp only [hp] at h ⊢
  case await => exact Requester.Carries.answer h r
  case ackWait => exact Requester.Carries.answer h r
  case failed =>
    rcases h with h | h
    · rw [h]; exact .inl rfl
    · exact .inr (h.answer r)
  all_goals rw [h]; rfl

theorem wired_deliver (h : e.Wired) (heard : Bool) (t : UInt64) : (e.deliver heard t).Wired := by
  simpa only [Wired, deliver_run, deliver_requester] using h

theorem named_step (h : e.run.pc ≠ .start → e.run.client.name = args.id.take 63)
    (hs : EndStep args e a e') : e'.run.pc ≠ .start → e'.run.client.name = args.id.take 63 := by
  have hpc : ∀ p, e.run.pc = p → p ≠ .start → e.run.client.name = args.id.take 63 := by
    rintro p rfl hp
    exact h hp
  cases hs with
  | init o r _ _ _ _ hn => exact fun _ => hn
  | subscribe hp => exact fun _ => h hp
  | sendReady hp _ => exact fun _ => hpc _ hp nofun
  | sendAck hp _ => exact fun _ => hpc _ hp nofun
  | sendFail hp => exact fun _ => hpc _ hp nofun
  | joinReply m hp _ =>
    intro _
    have : (e.run.handshakeReceived m).client = e.run.client := by
      unfold ClientRun.handshakeReceived
      split <;> rfl
    rw [this]
    exact hpc _ hp nofun
  | ackReply _ hp _ => exact fun _ => hpc _ hp nofun
  | timeout hp => exact fun _ => hpc _ hp nofun
  | tick _ _ hp _ => exact fun _ => hpc _ hp nofun
  | restart r _ hr => exact fun hne => absurd hr hne

theorem await_step (hs : EndStep args e a e') (h : e'.requester = .held) (hp : e'.run.pc = .await) :
    e.run.pc = .await := by
  cases hs with
  | init o r _ hpc _ _ _ => rcases hpc with hpc | hpc <;> rw [hpc] at hp <;> cases hp
  | subscribe => exact hp
  | sendFail => cases hp
  | timeout => cases hp
  | tick => cases hp
  | _ => cases h

theorem held_step (hs : EndStep args e a e') (h : e'.requester = .held) : e.requester = .held := by
  cases hs with
  | init => exact h
  | subscribe => exact h
  | sendFail => exact h
  | timeout => exact h
  | tick => exact h
  | _ => cases h

theorem ticks_eq (ha : a = .tick → args.onTick = false) (h : e.step args a = some e') :
    e'.run.ticks = e.run.ticks := by
  by_cases hr : a = .restart
  · subst hr
    obtain ⟨r, hr, rfl⟩ := Option.map_eq_some_iff.mp h
    simp only [ClientRun.step] at hr
    split at hr
    · cases hr
      rfl
    · cases hr
  · cases EndStep.of_step h with
    | init o r _ _ _ ht _ => exact ht
    | joinReply m _ _ =>
      show (e.run.handshakeReceived m).ticks = e.run.ticks
      unfold ClientRun.handshakeReceived
      split <;> rfl
    | tick t feed _ _ => exact if_neg (by simp [ha rfl])
    | restart => exact absurd rfl hr
    | _ => rfl

end ClientEnd

end Simulith
