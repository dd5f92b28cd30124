import Simulith.Net.Wire

/-!
# Admission

A client is admitted once ACK is the reply to its READY, whether or not it has
received it. `Admitted.of_step` says how a client is admitted: the server
registers it, or answers its READY in the tick phase. `Admitted.step` says that
it stays so, unless its receive timeout fires.
-/

namespace Simulith

theorem Reply.bytes_injective : Function.Injective Reply.bytes := by
  intro r r' h
  cases r <;> cases r' <;> first | rfl | exact absurd h (by decide)

/-- The handshake's reply is ACK: it has arrived, or the server at `pc` is about to send it. -/
def ClientEnd.Granted (e : ClientEnd) (pc : ServerPc) : Prop :=
  e.requester = .replied Reply.ack.bytes ∨ (e.requester = .held ∧ pc = .handshakeSend .ack)

/-- The handshake has returned 0, or is bound to unless it times out. -/
def ClientEnd.Admitted (e : ClientEnd) (pc : ServerPc) : Prop :=
  e.run.pc.Joined ∨ (e.run.pc = .await ∧ e.Granted pc)

namespace ClientEnd

variable {e e' : ClientEnd} {args : ClientArgs} {a : ClientAct} {pc : ServerPc}

theorem granted_of_replied {r : Reply} (hm : e.requester = .replied r.bytes) :
    e.Granted pc ↔ r = .ack := by
  unfold Granted
  rw [hm]
  constructor
  · rintro (h | ⟨h, -⟩)
    · exact Reply.bytes_injective (Requester.replied.inj h)
    · cases h
  · rintro rfl
    exact .inl rfl

theorem Admitted.pc_eq (h : e.Admitted pc) {p : ClientPc} (hp : e.run.pc = p) :
    p.Joined ∨ p = .await := by
  subst hp
  exact h.imp_right And.left

theorem Admitted.of_endStep (hw : e.Wired) (hs : EndStep args e a e') (h : e'.Admitted pc) :
    e.Admitted pc := by
  cases hs with
  | init o r _ hpc _ _ _ =>
    rcases h.pc_eq rfl with h' | h' <;> rcases hpc with hpc | hpc <;> rw [hpc] at h' <;> cases h'
  | subscribe _ => exact h
  | sendReady _ _ => rcases h with h | ⟨-, h | ⟨h, -⟩⟩ <;> cases h
  | sendAck hp _ => exact .inl (by rw [hp]; trivial)
  | sendFail _ => rcases h.pc_eq rfl with h' | h' <;> cases h'
  | joinReply m hp hm =>
    obtain ⟨r, rfl⟩ : ∃ r : Reply, m = r.bytes := by
      have := hw.await hp
      rwa [hm] at this
    rw [handshakeReceived_reply] at h
    refine .inr ⟨hp, (granted_of_replied hm).mpr ?_⟩
    by_contra hne
    rcases h.pc_eq (if_neg hne) with h' | h' <;> cases h'
  | ackReply _ hp _ => exact .inl (by rw [hp]; trivial)
  | timeout _ => rcases h.pc_eq rfl with h' | h' <;> cases h'
  | tick _ _ hp _ => exact .inl (by rw [hp]; trivial)
  | restart r _ hr => rcases h.pc_eq hr with h' | h' <;> cases h'

theorem Admitted.endStep (h : e.Admitted pc) (hw : e.Wired) (hs : EndStep args e a e')
    (ht : a ≠ .timeout) : e'.Admitted pc := by
  cases hs with
  | init o r hp _ _ _ _ => rcases h.pc_eq hp with h' | h' <;> cases h'
  | subscribe _ => exact h
  | sendReady hp _ => rcases h.pc_eq hp with h' | h' <;> cases h'
  | sendAck _ _ => exact .inl trivial
  | sendFail hp => rcases h.pc_eq hp with h' | h' <;> cases h'
  | joinReply m hp hm =>
    obtain ⟨r, rfl⟩ : ∃ r : Reply, m = r.bytes := by
      have := hw.await hp
      rwa [hm] at this
    have hg : e.Granted pc := by
      rcases h with h | h
      · rw [hp] at h; cases h
      · exact h.2
    rw [handshakeReceived_reply, (granted_of_replied hm).mp hg]
    exact .inl trivial
  | ackReply _ _ _ => exact .inl trivial
  | timeout _ => exact absurd rfl ht
  | tick _ _ _ _ => exact .inl trivial
  | restart r hp _ => rcases h.pc_eq hp with h' | h' <;> cases h'

theorem admitted_congr {pc' : ServerPc} (hh : e.requester ≠ .held)
    (hr : e'.run.pc = e.run.pc) (hq : e'.requester = e.requester) :
    e'.Admitted pc' ↔ e.Admitted pc := by
  simp only [Admitted, Granted, hr, hq, hh, false_and]

theorem admitted_deliver {τ τ' : ServerRun} {t : UInt64} (hs : τ.step (.publish t) = some τ')
    (heard : Bool) : (e.deliver heard t).Admitted τ'.pc ↔ e.Admitted τ.pc := by
  obtain ⟨hp, hp', -⟩ := pc_publish hs
  have hne : ¬ τ.pc = .handshakeSend .ack := by rw [hp]; exact nofun
  have hne' : ¬ τ'.pc = .handshakeSend .ack := by
    rcases hp' with hp' | hp' <;> rw [hp'] <;> exact nofun
  simp only [Admitted, Granted, deliver_run, deliver_requester, hne, hne', and_false]

end ClientEnd

/-- Client `c` is admitted. -/
def Net.Admitted {ι : Type*} (σ : Net ι) (c : ι) : Prop := (σ.ends c).Admitted σ.server.pc

variable {ι : Type*} [DecidableEq ι] {args : ι → ClientArgs} {σ σ' : Net ι} {a : Act ι} {c : ι}
  {n : Nat}

/-- **How a client is admitted**: its READY is registered, or answered in the tick phase. -/
theorem Net.Admitted.of_step (hw : Wired args σ) (hs : NetStep args σ a σ')
    (h : σ'.Admitted c) :
    σ.Admitted c ∨
    (a = .request c ∧ (σ.ends c).run.pc = .await ∧ σ'.server.pc = .handshakeSend .ack) ∨
    (a = .answer ∧ (σ.ends c).run.pc = .await ∧ (σ.ends c).requester = .held ∧
      σ.server.pc = .tickSend) := by
  cases hs with
  | client c₀ a e he =>
    left
    refine Net.forall_setEnd (σ := σ) (c := c₀) (e := e)
      (p := fun c e => e.Admitted σ.server.pc → σ.Admitted c) ?_ (fun _ _ h => h) c h
    exact ClientEnd.Admitted.of_endStep (hw.ends c₀) he
  | request c₀ m τ hm hs =>
    by_cases hc : c = c₀
    · subst hc
      simp only [Net.Admitted, ClientEnd.Admitted, ClientEnd.Granted, Net.setEnd,
        Function.update_self, reduceCtorEq, false_or, true_and] at h
      exact h.elim (fun h => .inl (.inl h)) fun ⟨hp, hg⟩ => .inr (.inl ⟨rfl, hp, hg⟩)
    · have he : (σ.setEnd c₀ { σ.ends c₀ with requester := .held }).ends c = σ.ends c :=
        Function.update_of_ne hc _ _
      exact .inl ((ClientEnd.admitted_congr (hw.not_held hs c) (by rw [he]) (by rw [he])).mp h)
  | requestStale k m τ _ hs =>
    exact .inl ((ClientEnd.admitted_congr (hw.not_held hs c) rfl rfl).mp h)
  | answer m τ hm hs =>
    rcases h with h | ⟨hp, hg | ⟨hg, -⟩⟩
    · exact .inl (.inl h)
    · cases hr : (σ.ends c).requester with
      | held =>
        simp only [ClientEnd.answer, hr, Requester.answer, Requester.replied.injEq] at hg
        rcases toSend_cases hm with ⟨r, hpc, rfl⟩ | ⟨hpc, -⟩
        · exact .inl (.inr ⟨hp, .inr ⟨hr, by rw [hpc, Reply.bytes_injective hg]⟩⟩)
        · exact .inr (.inr ⟨rfl, hp, rfl, hpc⟩)
      | replied m' =>
        simp only [ClientEnd.answer, hr, Requester.answer] at hg
        exact .inl (.inr ⟨hp, .inl (by rw [hr, hg])⟩)
      | _ => simp [ClientEnd.answer, hr, Requester.answer] at hg
    · exact absurd hg (Requester.answer_ne_held _ _)
  | broadcast heard τ hs => exact .inl ((ClientEnd.admitted_deliver hs _).mp h)

theorem NetStep.run_eq (hs : NetStep args σ a σ') (ha : ∀ b, a ≠ .client c b) :
    (σ'.ends c).run = (σ.ends c).run := by
  cases hs with
  | client c₀ b e _ =>
    have hc : c ≠ c₀ := by rintro rfl; exact ha b rfl
    exact congrArg ClientEnd.run (Function.update_of_ne hc _ _)
  | request c₀ m τ _ _ =>
    exact Net.forall_setEnd (σ := σ) (e := { σ.ends c₀ with requester := .held })
      (p := fun c e => e.run = (σ.ends c).run) rfl (fun _ _ => rfl) c
  | requestStale => rfl
  | answer => rfl
  | broadcast => exact ClientEnd.deliver_run _ _ _

theorem NetStep.granted (hs : NetStep args σ a σ') (hw : Wired args σ) (ha : ∀ b, a ≠ .client c b)
    (h : (σ.ends c).Granted σ.server.pc) : (σ'.ends c).Granted σ'.server.pc := by
  cases hs with
  | client c₀ b e _ =>
    have hc : c ≠ c₀ := by rintro rfl; exact ha b rfl
    have he : (σ.setEnd c₀ e).ends c = σ.ends c := Function.update_of_ne hc _ _
    exact he ▸ h
  | request c₀ m τ hm hs =>
    have hr := h.resolve_right fun hh => hw.not_held hs c hh.1
    have hc : c ≠ c₀ := by
      rintro rfl
      rw [hm] at hr
      cases hr
    have he : (σ.setEnd c₀ { σ.ends c₀ with requester := .held }).ends c = σ.ends c :=
      Function.update_of_ne hc _ _
    exact .inl (he ▸ hr)
  | requestStale k m τ _ hs => exact .inl (h.resolve_right fun hh => hw.not_held hs c hh.1)
  | answer m τ hm _ =>
    left
    rcases h with h | ⟨h, hack⟩
    · simp only [ClientEnd.answer, h, Requester.answer]
    · rcases toSend_cases hm with ⟨r, hpc, rfl⟩ | ⟨hpc, -⟩
      · rw [hack] at hpc
        cases hpc
        simp only [ClientEnd.answer, h, Requester.answer]
      · rw [hack] at hpc
        cases hpc
  | broadcast heard τ hs =>
    rcases h with h | ⟨-, h⟩
    · exact .inl ((ClientEnd.deliver_requester _ _ _).trans h)
    · rw [(pc_publish hs).1] at h
      cases h

/-- **An admitted client stays admitted**, unless its timeout fires. -/
theorem Net.Admitted.step (h : σ.Admitted c) (hw : Wired args σ) (hs : NetStep args σ a σ')
    (ht : a ≠ .client c .timeout) : σ'.Admitted c := by
  by_cases ha : ∃ b, a = .client c b
  · obtain ⟨b, rfl⟩ := ha
    cases hs with
    | client _ _ e he =>
      simp only [Net.Admitted, Net.setEnd, Function.update_self]
      exact ClientEnd.Admitted.endStep h (hw.ends c) he fun e => ht (by rw [e])
  · have ha' : ∀ b, a ≠ .client c b := fun b e => ha ⟨b, e⟩
    have hrun := hs.run_eq ha'
    rcases h with h | ⟨hp, hg⟩
    · exact .inl (by rw [hrun]; exact h)
    · exact .inr ⟨by rw [hrun]; exact hp, hs.granted hw ha' hg⟩

/-! ## Registration -/

omit [DecidableEq ι] in
theorem handshakeId_sent (hw : Wired args σ) (hlen : ∀ c, (args c).id.length ≤ 57) {m : Msg}
    (hp : (σ.ends c).run.pc = .await) (hm : (σ.ends c).requester = .sent m) :
    handshakeId m = some (args c).id := by
  obtain rfl := (hw.ends c).ready hm (.inl hp)
  have := hlen c
  rw [Client.handshakeId_readyMsg, hw.named c (by rw [hp]; exact nofun),
    List.take_of_length_le (by omega)]

theorem registered_id (hw : Wired args σ) (hi : ServerInv n σ.server)
    (hs : NetStep args σ (.request c) σ')
    (hp : (σ.ends c).run.pc = .await ∨ (σ.ends c).run.pc = .failed)
    (hack : σ'.server.pc = .handshakeSend .ack) :
    (args c).id ∉ σ.server.ids ∧ σ'.server.ids = σ.server.ids ++ [(args c).id] := by
  cases hs with
  | request _ m τ hm hs =>
    have hready := (hw.ends c).ready hm hp
    rcases ids_step_cases hi hs with ⟨-, hne⟩ | ⟨m', x, e, -, hlen, hx, hnew, -, hadd⟩
    · exact absurd hack (hne m rfl)
    · obtain rfl := ServerCall.recv.inj e
      rw [hready, Client.handshakeId_readyMsg] at hx
      obtain rfl := Option.some.inj hx
      have hname : (σ.ends c).run.client.name = (args c).id := by
        have hn := hw.named c (by rcases hp with hp | hp <;> rw [hp] <;> exact nofun)
        have hl := (σ.ends c).run.client.length_readyMsg
        rw [hready] at hlen
        have : (args c).id.length ≤ 57 := by
          have := congrArg List.length hn
          rw [List.length_take] at this
          omega
        rw [hn, List.take_of_length_le (by omega)]
      rw [hname] at hnew hadd
      exact ⟨hnew, hadd⟩

theorem granted_of_ack (hs : NetStep args σ (.request c) σ')
    (hack : σ'.server.pc = .handshakeSend .ack) :
    (σ'.ends c).run.pc = (σ.ends c).run.pc ∧ (σ'.ends c).Granted σ'.server.pc := by
  cases hs with
  | request _ m τ hm hs =>
    simp only [Net.setEnd, Function.update_self]
    exact ⟨trivial, .inr ⟨rfl, hack⟩⟩

end Simulith
