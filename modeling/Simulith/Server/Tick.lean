import Simulith.Server.Alternation

/-!
# The calls of the tick phase

What each of the three calls of the tick phase does to the flags: a broadcast
clears them, a request sets the flag of the id it carries, a reply changes none
and ends the round when all are set.
-/

namespace Simulith

open CStr

theorem ServerInv.full_length {n : Nat} {σ : ServerRun} (h : ServerInv n σ) (hp : σ.pc.InTick) :
    σ.ids.length = σ.server.expectedClients := by
  rw [h.ready, h.full hp, h.expected]

theorem tickHead_flags (σ : ServerRun) (x : List UInt8) :
    σ.tickHead.server.HasResponded x ↔ σ.server.HasResponded x := by
  unfold ServerRun.tickHead
  split
  · exact Iff.rfl
  · exact Iff.rfl

theorem publish_spec {n : Nat} {σ σ' : ServerRun} {t : UInt64} (hi : ServerInv n σ)
    (hs : σ.step (.publish t) = some σ') :
    σ.pc = .broadcast ∧ σ'.ids = σ.ids ∧ (∀ x, ¬ σ'.server.HasResponded x) ∧
      σ' = { σ with server := σ.server.resetResponses, pc := .tickRecv } := by
  rw [step_eq_some] at hs
  cases hs with
  | publish hpc =>
    have hlen := hi.full_length (by rw [hpc]; trivial)
    have hpos : 0 < σ.ids.length := by rw [hlen, hi.expected]; exact hi.pos
    have hclosed : ¬ σ.server.resetResponses.allClientsResponded = true := by
      rw [Server.allClientsResponded_iff (hi.registered.congr Server.names_resetResponses) hlen]
      intro hall
      exact Server.not_hasResponded_resetResponses _ (hall _ (List.getElem_mem hpos))
    refine ⟨hpc, (tickHead_ids _).trans (ids_congr Server.names_resetResponses), fun x => ?_, ?_⟩
    · rw [tickHead_flags]
      exact Server.not_hasResponded_resetResponses x
    · simp only [ServerRun.tickHead, if_neg hclosed]

/-- A request received while the server waits sets the flag of the id it carries. -/
theorem tickRecv_spec {n : Nat} {σ σ' : ServerRun} {m : Msg} (hi : ServerInv n σ)
    (hp : σ.pc.InTick) (hm : Fits m) (hs : σ.step (.recv m) = some σ') :
    σ.pc = .tickRecv ∧ σ'.pc = .tickSend ∧ σ'.ids = σ.ids ∧
      ∀ x ∈ σ.ids, σ'.server.HasResponded x ↔ σ.server.HasResponded x ∨ x = str m := by
  rw [step_eq_some] at hs
  cases hs with
  | handshakeRecv _ hpc _ => rw [hpc] at hp; exact hp.elim
  | tickRecv _ hpc _ =>
    obtain ⟨b, hb, e⟩ := tickReceived_fits σ hm
    rw [e, ← hb]
    exact ⟨hpc, rfl, ids_congr (Server.names_handleAck _), fun x hx =>
      Server.hasResponded_handleAck hi.registered (hi.full_length hp) hx _⟩

/-- A reply changes no flag; if the server then broadcasts, all are set. -/
theorem tickSend_spec {n : Nat} {σ σ' : ServerRun} {m : Msg} (hi : ServerInv n σ)
    (hp : σ.pc.InTick) (hs : σ.step (.send m) = some σ') :
    σ.pc = .tickSend ∧ σ'.ids = σ.ids ∧
      (∀ x, σ'.server.HasResponded x ↔ σ.server.HasResponded x) ∧
      (σ'.pc = .tickRecv ∨ (σ'.pc = .broadcast ∧ ∀ x ∈ σ.ids, σ.server.HasResponded x)) := by
  rw [step_eq_some] at hs
  cases hs with
  | handshakeSend _ hpc => rw [hpc] at hp; exact hp.elim
  | tickSend hpc =>
    refine ⟨hpc, tickHead_ids _, tickHead_flags _, ?_⟩
    unfold ServerRun.tickHead
    split
    · next hall =>
      exact .inr ⟨rfl, (Server.allClientsResponded_iff hi.registered (hi.full_length hp)).mp hall⟩
    · exact .inl rfl

theorem waits_step {σ σ' : ServerRun} {c : ServerCall}
    (h : σ.pc = .tickRecv → σ.server.allClientsResponded = false) (hs : σ.step c = some σ') :
    σ'.pc = .tickRecv → σ'.server.allClientsResponded = false := by
  have hhead : ∀ υ : ServerRun, υ.tickHead.pc = .tickRecv →
      υ.tickHead.server.allClientsResponded = false := by
    intro υ
    unfold ServerRun.tickHead
    split
    · exact fun hp => by cases hp
    · next hn => exact fun _ => Bool.not_eq_true _ ▸ hn
  rw [step_eq_some] at hs
  cases hs with
  | handshakeRecv m hpc _ =>
    unfold ServerRun.handshakeReceived
    split
    · exact fun hp => by rw [show σ.pc = .tickRecv from hp] at hpc; cases hpc
    · split
      · exact fun hp => by cases hp
      · split <;> exact fun hp => by cases hp
  | tickRecv m hpc _ =>
    unfold ServerRun.tickReceived
    split
    · exact fun _ => h hpc
    · split <;> exact fun hp => by cases hp
  | fail _ => exact h
  | handshakeSend _ _ =>
    intro hp
    rcases handshakeHead_pc { σ with owes := false } with h | h <;> rw [h] at hp <;> cases hp
  | tickSend _ => exact hhead _
  | publish _ => exact hhead _

end Simulith
