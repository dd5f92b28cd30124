import Simulith.Net.Basic
import Simulith.Server.Alternation

/-!
# What is under way

`Wired args σ` holds in every state of a run: a client's exchange is the one
its program waits for, and the server holds at most one request, when it owes
a reply. Each step is at most one call of the server (`NetStep.server`), so
what holds along a run of the server holds along a run of the net.
-/

namespace Simulith

variable {ι : Type*} {args : ι → ClientArgs} {σ σ' : Net ι}

structure Wired (args : ι → ClientArgs) (σ : Net ι) : Prop where
  ends : ∀ c, (σ.ends c).Wired
  named : ∀ c, (σ.ends c).run.pc ≠ .start → (σ.ends c).run.client.name = (args c).id.take 63
  owes : ∀ c, (σ.ends c).requester = .held → σ.server.owes = true
  one : ∀ c c', (σ.ends c).requester = .held → (σ.ends c').requester = .held → c = c'

/-! ## READY -/

theorem Client.length_readyMsg (c : Client) : c.readyMsg.length = c.name.length + 6 := by
  rw [Client.readyMsg_eq, List.length_append, List.length_cons]
  rw [show readyWord.length = 5 by decide]
  omega

theorem Client.fits_readyMsg {c : Client} (h : c.name.length ≤ 57) : Fits c.readyMsg := by
  have := c.length_readyMsg
  exact ⟨by omega, by omega⟩

theorem Client.handshakeId_readyMsg (c : Client) : handshakeId c.readyMsg = some c.name := by
  rw [Client.readyMsg_eq]
  exact handshakeId_ready c.zero_notMem_name

/-! ## The server's part of a step -/

theorem owes_recv {τ τ' : ServerRun} {m : Msg} (h : τ.step (.recv m) = some τ') :
    τ.owes = false ∧ τ'.owes = true := by
  rw [step_eq_some] at h
  cases h with
  | handshakeRecv _ _ ho =>
    refine ⟨ho, ?_⟩
    unfold ServerRun.handshakeReceived
    split
    · rfl
    · split
      · rfl
      · split <;> rfl
  | tickRecv _ _ ho =>
    refine ⟨ho, ?_⟩
    unfold ServerRun.tickReceived
    split
    · rfl
    · split <;> rfl

theorem owes_send {τ τ' : ServerRun} {m : Msg} (h : τ.step (.send m) = some τ') :
    τ'.owes = false := by
  rw [step_eq_some] at h
  cases h with
  | handshakeSend _ _ => rw [handshakeHead_owes]
  | tickSend _ => rw [tickHead_owes]

theorem pc_publish {τ τ' : ServerRun} {t : UInt64} (h : τ.step (.publish t) = some τ') :
    τ.pc = .broadcast ∧ (τ'.pc = .tickRecv ∨ τ'.pc = .broadcast) ∧ τ'.owes = τ.owes := by
  rw [step_eq_some] at h
  cases h with
  | publish hp => exact ⟨hp, tickHead_pc _, tickHead_owes _⟩

theorem toSend_cases {τ : ServerRun} {m : Msg} (h : τ.toSend = some m) :
    (∃ r : Reply, τ.pc = .handshakeSend r ∧ m = r.bytes) ∨
    (τ.pc = .tickSend ∧ m = Reply.ack.bytes) := by
  unfold ServerRun.toSend at h
  split at h
  · next r hp => cases h; exact .inl ⟨r, hp, rfl⟩
  · next hp => cases h; exact .inr ⟨hp, rfl⟩
  · cases h

theorem toSend_reply {τ : ServerRun} {m : Msg} (h : τ.toSend = some m) :
    ∃ r : Reply, m = r.bytes := by
  rcases toSend_cases h with ⟨r, -, e⟩ | ⟨-, e⟩
  · exact ⟨r, e⟩
  · exact ⟨_, e⟩

theorem Wired.not_held {τ : ServerRun} {m : Msg} (h : Wired args σ)
    (hs : σ.server.step (.recv m) = some τ) (c : ι) : (σ.ends c).requester ≠ .held := by
  intro hc
  have := h.owes c hc
  rw [(owes_recv hs).1] at this
  cases this

theorem wired_init (s : Server) : Wired args (Net.init ι s) where
  ends _ := rfl
  named _ h := absurd rfl h
  owes _ h := by cases h
  one _ _ h := by cases h

variable [DecidableEq ι] {a : Act ι}

/-- A step of the net is a step of the server or leaves the server alone. -/
theorem NetStep.server (h : NetStep args σ a σ') :
    σ'.server = σ.server ∨ ∃ c, σ.server.step c = some σ'.server := by
  cases h with
  | client => exact .inl rfl
  | request _ _ _ _ hs => exact .inr ⟨_, hs⟩
  | requestStale _ _ _ _ hs => exact .inr ⟨_, hs⟩
  | answer _ _ _ hs => exact .inr ⟨_, hs⟩
  | broadcast _ _ hs => exact .inr ⟨_, hs⟩

theorem NetStep.serverInv {n : Nat} (h : NetStep args σ a σ') (hi : ServerInv n σ.server) :
    ServerInv n σ'.server := by
  rcases h.server with e | ⟨c, hs⟩
  · rw [e]; exact hi
  · exact serverInv_step hi hs

theorem NetStep.ids_subset {n : Nat} (h : NetStep args σ a σ') (hi : ServerInv n σ.server) :
    σ.server.ids ⊆ σ'.server.ids := by
  rcases h.server with e | ⟨c, hs⟩
  · rw [e]; exact fun _ hx => hx
  · exact (ids_step hi hs).subset

theorem NetStep.ids_cases {n : Nat} (h : NetStep args σ a σ') (hi : ServerInv n σ.server) :
    σ'.server.ids = σ.server.ids ∨
    (∃ c, a = .request c ∧ σ.server.pc = .handshakeRecv ∧ σ'.server.pc = .handshakeSend .ack) ∨
    ∃ k, a = .requestStale k ∧ k < σ.stale.length ∧ σ.server.pc = .handshakeRecv := by
  cases h with
  | client => exact .inl rfl
  | request c m τ hm hs =>
    rcases ids_step_cases hi hs with ⟨e, -⟩ | ⟨_, _, -, hpc, -, -, -, hack, -⟩
    · exact .inl e
    · exact .inr (.inl ⟨c, rfl, hpc, hack⟩)
  | requestStale k m τ hm hs =>
    rcases ids_step_cases hi hs with ⟨e, -⟩ | ⟨_, _, -, hpc, -⟩
    · exact .inl e
    · exact .inr (.inr ⟨k, rfl, (List.getElem?_eq_some_iff.mp hm).1, hpc⟩)
  | answer m τ _ hs =>
    rcases ids_step_cases hi hs with ⟨e, -⟩ | ⟨_, _, e, -⟩
    · exact .inl e
    · cases e
  | broadcast heard τ hs =>
    rcases ids_step_cases hi hs with ⟨e, -⟩ | ⟨_, _, e, -⟩
    · exact .inl e
    · cases e

/-! ## Every state is wired -/

theorem Net.forall_setEnd {p : ι → ClientEnd → Prop} {c : ι} {e : ClientEnd} (h : p c e)
    (hσ : ∀ c', c' ≠ c → p c' (σ.ends c')) : ∀ c', p c' ((σ.setEnd c e).ends c') :=
  (Function.forall_update_iff σ.ends p).mpr ⟨h, hσ⟩

theorem Wired.step (h : Wired args σ) (hs : NetStep args σ a σ') : Wired args σ' := by
  cases hs with
  | client c a e he =>
    have hheld : ∀ c', ((σ.setEnd c e).ends c').requester = .held →
        (σ.ends c').requester = .held :=
      Net.forall_setEnd (p := fun c' e' => e'.requester = .held → (σ.ends c').requester = .held)
        (ClientEnd.held_step he) fun _ _ h => h
    exact
      { ends := Net.forall_setEnd (p := fun _ e' => e'.Wired)
          (ClientEnd.wired_step (h.ends c) he) fun c' _ => h.ends c'
        named := Net.forall_setEnd (p := fun c' e' => e'.run.pc ≠ .start →
          e'.run.client.name = (args c').id.take 63)
          (ClientEnd.named_step (h.named c) he) fun c' _ => h.named c'
        owes := fun c' hc => h.owes c' (hheld c' hc)
        one := fun c₁ c₂ h₁ h₂ => h.one c₁ c₂ (hheld c₁ h₁) (hheld c₂ h₂) }
  | request c m τ hm hs =>
    have hnone := h.not_held hs
    have hheld : ∀ c', ((σ.setEnd c { σ.ends c with requester := .held }).ends c').requester =
        .held → c' = c :=
      Net.forall_setEnd (p := fun c' e' => e'.requester = .held → c' = c) (fun _ => rfl)
        fun c' _ hc => absurd hc (hnone c')
    exact
      { ends := Net.forall_setEnd (p := fun _ e' => e'.Wired)
          (ClientEnd.wired_held (h.ends c) hm) fun c' _ => h.ends c'
        named := Net.forall_setEnd (p := fun c' e' => e'.run.pc ≠ .start →
          e'.run.client.name = (args c').id.take 63) (h.named c) fun c' _ => h.named c'
        owes := fun _ _ => (owes_recv hs).2
        one := fun c₁ c₂ h₁ h₂ => (hheld c₁ h₁).trans (hheld c₂ h₂).symm }
  | requestStale k m τ _ hs =>
    exact ⟨h.ends, h.named, fun c hc => absurd hc (h.not_held hs c), h.one⟩
  | answer m τ hm hs =>
    obtain ⟨r, rfl⟩ := toSend_reply hm
    exact ⟨fun c => ClientEnd.wired_answer (h.ends c) r, h.named,
      fun c hc => absurd hc (Requester.answer_ne_held _ _),
      fun c _ hc => absurd hc (Requester.answer_ne_held _ _)⟩
  | broadcast heard τ hs =>
    refine ⟨fun c => ClientEnd.wired_deliver (h.ends c) _ _, fun c => ?_, fun c hc => ?_,
      fun c c' hc hc' => ?_⟩
    · simpa only [ClientEnd.deliver_run] using h.named c
    · rw [ClientEnd.deliver_requester] at hc
      exact (pc_publish hs).2.2.trans (h.owes c hc)
    · rw [ClientEnd.deliver_requester] at hc hc'
      exact h.one c c' hc hc'

end Simulith
