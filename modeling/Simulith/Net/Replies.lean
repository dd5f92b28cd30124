import Mathlib.Data.Fin.VecNotation
import Simulith.Net.Gathering
import Simulith.Server.Tick

/-!
# Nobody is refused

With distinct ids of at most 57 bytes and nobody starting over, every READY
that is answered is answered ACK: by registration in the handshake phase
(`Unrefused.ack_step`), by the tick phase because that answers everything so.
A handshake then fails only for reasons of the client's own, whatever the
number of clients and however many the server waits for (`nobody_refused`).
-/

namespace Simulith

variable {ι : Type*} {args : ι → ClientArgs} {σ σ' : Net ι} {a : Act ι} {n : Nat}

theorem inTick_step {τ τ' : ServerRun} {c : ServerCall} (hp : τ.pc.InTick)
    (hm : ∀ m, c = .recv m → Fits m) (hs : τ.step c = some τ') : τ'.pc.InTick := by
  have hhead : ∀ υ : ServerRun, υ.tickHead.pc.InTick := fun υ => by
    rcases tickHead_pc υ with h | h <;> rw [h] <;> trivial
  rw [step_eq_some] at hs
  cases hs with
  | handshakeRecv _ hpc _ => rw [hpc] at hp; exact hp.elim
  | tickRecv m _ _ =>
    obtain ⟨b, -, e⟩ := tickReceived_fits τ (hm m rfl)
    rw [e]
    trivial
  | fail _ => exact hp
  | handshakeSend _ hpc => rw [hpc] at hp; exact hp.elim
  | tickSend _ => exact hhead _
  | publish _ => exact hhead _

theorem handshakeId_underway (hw : Wired args σ) (hlen : ∀ c, (args c).id.length ≤ 57) {c : ι}
    {m : Msg} (hm : (σ.ends c).requester = .sent m)
    (hp : (σ.ends c).run.pc = .await ∨ (σ.ends c).run.pc = .failed) :
    handshakeId m = some (args c).id := by
  obtain rfl := (hw.ends c).ready hm hp
  have := hlen c
  rw [Client.handshakeId_readyMsg, hw.named c (by rcases hp with hp | hp <;> simp [hp]),
    List.take_of_length_le (by omega)]

theorem ClientEnd.replied_step {args : ClientArgs} {e e' : ClientEnd} {b : ClientAct} {m : Msg}
    (hs : EndStep args e b e') (h : e'.requester = .replied m) : e.requester = .replied m := by
  cases hs with
  | init => exact h
  | subscribe => exact h
  | sendFail => exact h
  | timeout => exact h
  | tick => exact h
  | _ => cases h

/-- Client `c` has failed to initialise or to send, or has given up waiting. -/
def OwnFault (c : ι) (acts : List (Act ι)) : Prop :=
  .client c .timeout ∈ acts ∨ .client c .sendFail ∈ acts ∨ ∃ o ≠ .ok, .client c (.init o) ∈ acts

theorem OwnFault.mono {c : ι} {acts acts' : List (Act ι)} (h : OwnFault c acts)
    (hsub : acts ⊆ acts') : OwnFault c acts' :=
  h.imp (@hsub _) (Or.imp (@hsub _) fun ⟨o, ho, hm⟩ => ⟨o, ho, hsub hm⟩)

/-- Every reply made or being made to a handshake is ACK. -/
structure Unrefused (args : ι → ClientArgs) (n : Nat) (σ : Net ι) : Prop where
  steady : Steady args n σ
  phase : Gathering args σ ∨ σ.server.pc.InTick
  ack : ∀ r, σ.server.pc = .handshakeSend r → r = .ack
  replied : ∀ c m, (σ.ends c).requester = .replied m → m = Reply.ack.bytes

variable [DecidableEq ι]

omit [DecidableEq ι] in
theorem unrefused_init {N : Int} {iv : UInt64} {s : Server} (hs : ServerReady N iv s) :
    Unrefused args s.expectedClients (Net.init ι s) where
  steady := ⟨wired_init s, serverInv_init hs, well_init s, rfl⟩
  phase := .inl (gathering_init hs)
  ack r hp := by
    rw [show (Net.init ι s).server.pc = _ from
      congrArg ServerRun.pc (simulithServerRun_eq hs.spec.1.1)] at hp
    cases hp
  replied c m h := by cases h

theorem Unrefused.phase_step (h : Unrefused args n σ) (hlen : ∀ c, (args c).id.length ≤ 57)
    (ha : a.Once) (hs : NetStep args σ a σ') : Gathering args σ' ∨ σ'.server.pc.InTick := by
  by_cases hb : ∃ heard, a = .broadcast heard
  · obtain ⟨heard, rfl⟩ := hb
    cases hs with
    | broadcast _ τ hs =>
      right
      rcases (pc_publish hs).2.1 with hp | hp <;> rw [hp] <;> trivial
  · rcases h.phase with hg | hp
    · exact .inl (hg.step h.steady hlen ha (fun heard e => hb ⟨heard, e⟩) hs)
    · right
      rcases h.steady.server hlen hs with e | ⟨c, hc, hm, -⟩
      · rw [e]; exact hp
      · exact inTick_step hp hm hc

omit [DecidableEq ι] in
theorem Unrefused.ack_request (h : Unrefused args n σ) (hlen : ∀ c, (args c).id.length ≤ 57)
    (hdistinct : ∀ c c', (args c).id = (args c').id → c = c') {c : ι} {m : Msg} {τ : ServerRun}
    (hm : (σ.ends c).requester = .sent m) (hpc : σ.server.pc = .handshakeRecv)
    (hs : σ.server.step (.recv m) = some τ) : τ.pc = .handshakeSend .ack := by
  have hg : Gathering args σ := h.phase.resolve_right fun hp => by rw [hpc] at hp; exact hp
  have hp : (σ.ends c).run.pc = .await ∨ (σ.ends c).run.pc = .failed := by
    rcases (h.steady.wired.ends c).sent hm with ⟨hp, -⟩ | ⟨hp, -⟩
    · exact hp
    · exact absurd hp (hg.silent c).pc.2
  have hnew : (args c).id ∉ σ.server.ids := by
    intro hx
    -- the owner of the id is the client itself, whose READY has been answered
    obtain ⟨c', hc', hen⟩ := hg.owner _ hx
    obtain rfl := hdistinct _ _ hc'
    have hnot : ¬ (σ.ends c').Granted σ.server.pc := by
      rintro (hr | ⟨hr, -⟩) <;> rw [hm] at hr <;> cases hr
    rcases hen with (hj | ⟨-, hgr⟩) | ⟨-, hgr⟩
    · rcases hp with hp | hp <;> rw [hp] at hj <;> exact hj
    · exact hnot hgr
    · exact hnot hgr
  have hfit := h.steady.wired.fits hlen hm
  exact ack_of_new h.steady.inv hpc (by have := hfit.1; omega) (by have := hfit.2; omega)
    (handshakeId_underway h.steady.wired hlen hm hp) (args c).id_ne hnew hs

/-- **The server only ever admits.** -/
theorem Unrefused.ack_step (h : Unrefused args n σ) (hlen : ∀ c, (args c).id.length ≤ 57)
    (hdistinct : ∀ c c', (args c).id = (args c').id → c = c') (hs : NetStep args σ a σ') (r : Reply)
    (hp : σ'.server.pc = .handshakeSend r) : r = .ack := by
  have hhead : ∀ (υ : ServerRun) (q : Reply), υ.tickHead.pc ≠ .handshakeSend q ∧
      υ.handshakeHead.pc ≠ .handshakeSend q := fun υ q => by
    refine ⟨?_, ?_⟩
    · rcases tickHead_pc υ with e | e <;> rw [e] <;> simp
    · rcases handshakeHead_pc υ with e | e <;> rw [e] <;> simp
  cases hs with
  | client => exact h.ack r hp
  | request c m τ hm hs =>
    cases hpc : σ.server.pc with
    | handshakeRecv =>
      have hack := h.ack_request hlen hdistinct hm hpc hs
      rw [show τ.pc = .handshakeSend r from hp] at hack
      cases hack
      rfl
    | tickRecv =>
      have htick := inTick_step (by rw [hpc]; trivial)
        (fun m' e => by cases e; exact h.steady.wired.fits hlen hm) hs
      rw [show τ.pc = .handshakeSend r from hp] at htick
      exact htick.elim
    | _ => simp [ServerRun.step, hpc] at hs
  | requestStale k m τ hm _ =>
    rw [h.steady.stale] at hm
    cases hm
  | answer m τ _ hs =>
    rw [step_eq_some] at hs
    cases hs with
    | handshakeSend _ _ => exact absurd hp (hhead _ r).2
    | tickSend _ => exact absurd hp (hhead _ r).1
  | broadcast heard τ hs =>
    rw [step_eq_some] at hs
    cases hs with
    | publish _ => exact absurd hp (hhead _ r).1

theorem Unrefused.replied_step (h : Unrefused args n σ) (hs : NetStep args σ a σ') (c : ι) (m : Msg)
    (hm : (σ'.ends c).requester = .replied m) : m = Reply.ack.bytes := by
  cases hs with
  | client c₀ b e he =>
    refine Net.forall_setEnd (σ := σ) (c := c₀) (e := e) (p := fun _ e => ∀ m,
      e.requester = .replied m → m = Reply.ack.bytes) ?_ (fun c _ => h.replied c) c m hm
    exact fun m hm => h.replied c₀ m (ClientEnd.replied_step he hm)
  | request c₀ m' τ _ _ =>
    refine Net.forall_setEnd (σ := σ) (c := c₀) (e := { σ.ends c₀ with requester := .held })
      (p := fun _ e => ∀ m, e.requester = .replied m → m = Reply.ack.bytes) ?_
      (fun c _ => h.replied c) c m hm
    rintro m ⟨⟩
  | requestStale => exact h.replied c m hm
  | answer m' τ hto _ =>
    have hreply : m' = Reply.ack.bytes := by
      rcases toSend_cases hto with ⟨r, hp, e⟩ | ⟨-, e⟩
      · rw [e, h.ack r hp]
      · exact e
    cases hr : (σ.ends c).requester with
    | held =>
      simp only [ClientEnd.answer, hr, Requester.answer, Requester.replied.injEq] at hm
      exact hm ▸ hreply
    | replied m'' =>
      simp only [ClientEnd.answer, hr, Requester.answer] at hm
      exact h.replied c m (hr.trans hm)
    | _ => simp [ClientEnd.answer, hr, Requester.answer] at hm
  | broadcast => exact h.replied c m ((ClientEnd.deliver_requester _ _ _).symm.trans hm)

theorem Unrefused.step (h : Unrefused args n σ) (hlen : ∀ c, (args c).id.length ≤ 57)
    (hdistinct : ∀ c c', (args c).id = (args c').id → c = c') (ha : a.Once)
    (hs : NetStep args σ a σ') : Unrefused args n σ' where
  steady := h.steady.step hlen ha hs
  phase := h.phase_step hlen ha hs
  ack := h.ack_step hlen hdistinct hs
  replied := h.replied_step hs

omit [DecidableEq ι] in
theorem ClientEnd.failed_step {args : ClientArgs} {e e' : ClientEnd} {b : ClientAct} {c : ι}
    (hr : ∀ m, e.requester = .replied m → m = Reply.ack.bytes) (hs : EndStep args e b e')
    (hf : e'.run.pc = .failed) : e.run.pc = .failed ∨ OwnFault c [.client c b] := by
  cases hs with
  | init o r _ _ hok =>
    refine .inr (.inr (.inr ⟨o, ?_, List.mem_singleton_self _⟩))
    rintro rfl
    exact absurd (hf.symm.trans (hok rfl)) (by simp)
  | subscribe => exact .inl hf
  | sendFail => exact .inr (.inr (.inl (List.mem_singleton_self _)))
  | timeout => exact .inr (.inl (List.mem_singleton_self _))
  | joinReply m _ hm =>
    rw [hr m hm, handshakeReceived_reply] at hf
    cases hf
  | restart r _ hr =>
    rw [show r.pc = .failed from hf] at hr
    cases hr
  | _ => cases hf

/-- **Nobody is refused.** Distinct ids of at most 57 bytes, nobody starts over;
any number of clients, whatever the server expects and whatever is lost. Every
reply to a handshake is ACK, and a client's handshake fails only because the
client could not initialise or send or has given up waiting. -/
theorem nobody_refused (hlen : ∀ c, (args c).id.length ≤ 57)
    (hdistinct : ∀ c c', (args c).id = (args c').id → c = c') {N : Int} {iv : UInt64} {s : Server}
    (hs : ServerReady N iv s) {acts : List (Act ι)} (honce : ∀ a ∈ acts, a.Once)
    (he : Lts.exec (Net.step args) (Net.init ι s) acts = some σ) :
    (∀ r, σ.server.pc = .handshakeSend r → r = .ack) ∧
    (∀ c m, (σ.ends c).requester = .replied m → m = Reply.ack.bytes) ∧
    ∀ c, (σ.ends c).run.pc = .failed → OwnFault c acts := by
  have hP : Lts.Along (Net.step args) (fun _ a => a.Once) (Net.init ι s) acts :=
    Lts.along_of_forall fun a ha _ => honce a ha
  have hall : Unrefused args s.expectedClients σ ∧
      ∀ c, (σ.ends c).run.pc = .failed → OwnFault c acts := by
    refine Lts.exec_history (H := fun acts σ => Unrefused args s.expectedClients σ ∧
      ∀ c, (σ.ends c).run.pc = .failed → OwnFault c acts)
      ⟨unrefused_init hs, fun c hf => by cases hf⟩
      (fun acts τ a τ' hP hτ ih hstep => ?_) hP he
    have ha : a.Once := Lts.along_iff.mp hP acts a [] τ rfl hτ
    refine ⟨ih.1.step hlen hdistinct ha (.of_step hstep), fun c hf => ?_⟩
    by_cases hc : ∃ b, a = .client c b
    · obtain ⟨b, rfl⟩ := hc
      cases NetStep.of_step hstep with
      | client _ _ e hend =>
        simp only [Net.setEnd, Function.update_self] at hf
        rcases ClientEnd.failed_step (c := c) (ih.1.replied c) hend hf with hf | hf
        · exact (ih.2 c hf).mono (List.subset_append_left _ _)
        · exact hf.mono (List.subset_append_right _ _)
    · rw [NetStep.run_eq (.of_step hstep) fun b e => hc ⟨b, e⟩] at hf
      exact (ih.2 c hf).mono (List.subset_append_left _ _)
  exact ⟨hall.1.ack, hall.1.replied, hall.2⟩

/-- Three clients at a server for two: one times out, one comes during the tick phase. -/
theorem nobody_refused_three_clients :
    let args := ![ClientArgs.named [97] (by decide) (by decide),
      ClientArgs.named [98] (by decide) (by decide), ClientArgs.named [99] (by decide) (by decide)]
    let acts : List (Act (Fin 3)) := [.client 0 (.init .ok), .client 0 .send, .request 0,
      .client 0 .timeout, .answer] ++ join 1 ++ .broadcast (fun _ => true) :: join 2
    ∃ σ, Lts.exec (Net.step args) (Net.init (Fin 3) (.fresh 2 10)) acts = some σ ∧
      ∀ c, (σ.ends c).run.pc = .failed → OwnFault c acts :=
  have ⟨σ, h⟩ := Option.isSome_iff_exists.mp (by decide)
  ⟨σ, h, (nobody_refused (by decide) (by decide)
    (serverReady_fresh (by decide) (by decide) (by decide)) (by decide) h).2.2⟩

end Simulith
