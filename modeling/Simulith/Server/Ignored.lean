import Simulith.Server.Tick

/-!
# Requests that change nothing

`ServerRun.Ignores m` is what the server, waiting for a request, does not react
to but by a reply: in the handshake phase a message that is no READY or that of
an id it has, in the tick phase the ack of nobody or of one who is not awaited.
`ignores_iff` says that it is these and no others. Until the reply the server
is as it was, owing it (`Owing`).
-/

namespace Simulith

open CStr

variable {n : Nat} {σ τ τ' : ServerRun} {m : Msg} {c : ServerCall}

def ServerRun.Ignores (σ : ServerRun) (m : Msg) : Prop :=
  match σ.pc with
  | .handshakeRecv =>
    handshakeId m = none ∨ handshakeId m = some [] ∨ ∃ x ∈ σ.ids, handshakeId m = some x
  | .tickRecv => str m ∉ σ.ids ∨ σ.server.HasResponded (str m)
  | _ => False

instance (σ : ServerRun) (m : Msg) : Decidable (σ.Ignores m) := by
  unfold ServerRun.Ignores
  split <;> infer_instance

/-- The state with a request to answer. -/
inductive ServerRun.Owing (σ : ServerRun) : ServerRun → Prop where
  | handshake (r : Reply) : σ.pc = .handshakeRecv → σ.owes = false →
      Owing σ { σ with pc := .handshakeSend r, owes := true }
  | tick : σ.pc = .tickRecv → σ.owes = false → Owing σ { σ with pc := .tickSend, owes := true }

theorem ServerRun.Owing.server (h : σ.Owing τ) : τ.server = σ.server := by
  cases h with
  | handshake => rfl
  | tick => rfl

theorem handshakeReceived_owing (hi : ServerInv n σ) (hp : σ.pc = .handshakeRecv)
    (ho : σ.owes = false) (hm : Fits m) :
    (σ.Ignores m ∧ σ.Owing (σ.handshakeReceived m)) ∨
      (¬ σ.Ignores m ∧ ∃ x, (σ.handshakeReceived m).ids = σ.ids ++ [x]) := by
  have h0 : m.length ≠ 0 := by
    have := hm.1
    omega
  have h63 : m.length < 64 := Nat.lt_succ_of_le hm.2
  unfold ServerRun.Ignores
  rw [hp]
  rcases handshakeReceived_cases hi.registered (hi.room hp) h0 h63 with
    ⟨hid, e⟩ | ⟨x, hx, hid, e⟩ | ⟨x, cid, hid, hne, hnew, -, e, hreg⟩
  · left
    rw [e]
    exact ⟨hid.imp_right .inl, .handshake _ hp ho⟩
  · left
    rw [e]
    exact ⟨.inr (.inr ⟨x, hx, hid⟩), .handshake _ hp ho⟩
  · right
    rw [e]
    refine ⟨?_, x, hreg.ids_eq⟩
    rintro (h | h | ⟨y, hy, h⟩)
    · rw [hid] at h
      cases h
    · rw [hid] at h
      exact hne (Option.some.inj h)
    · rw [hid] at h
      exact hnew (Option.some.inj h ▸ hy)

theorem tickReceived_owing (hi : ServerInv n σ) (hp : σ.pc = .tickRecv) (ho : σ.owes = false)
    (hm : Fits m) :
    (σ.Ignores m ∧ σ.Owing (σ.tickReceived m)) ∨
      (¬ σ.Ignores m ∧ ¬ σ.server.HasResponded (str m) ∧
        (σ.tickReceived m).server.HasResponded (str m)) := by
  have hlen := hi.full_length (by rw [hp]; trivial)
  obtain ⟨b, hb, e⟩ := tickReceived_fits σ hm
  unfold ServerRun.Ignores
  rw [hp, e, ← hb]
  by_cases hx : str b.bytes ∈ σ.ids
  · by_cases hr : σ.server.HasResponded (str b.bytes)
    · left
      rw [Server.handleAck_of_hasResponded hi.registered hlen hr]
      exact ⟨.inr hr, .tick hp ho⟩
    · right
      refine ⟨fun h => h.elim (fun h => h hx) hr, hr, ?_⟩
      exact (Server.hasResponded_handleAck hi.registered hlen hx _).mpr (.inr rfl)
  · left
    rw [Server.handleAck_of_notMem hi.registered hlen hx]
    exact ⟨.inl hx, .tick hp ho⟩

/-- **What the server ignores**: the requests that leave its data as they are. -/
theorem ignores_iff (hi : ServerInv n σ) (hm : Fits m) (hs : σ.step (.recv m) = some τ) :
    (σ.Ignores m ↔ τ.server = σ.server) ∧ (σ.Ignores m → σ.Owing τ) := by
  rw [step_eq_some] at hs
  cases hs with
  | handshakeRecv _ hp ho =>
    rcases handshakeReceived_owing hi hp ho hm with ⟨hg, how⟩ | ⟨hg, x, hids⟩
    · exact ⟨iff_of_true hg how.server, fun _ => how⟩
    · refine ⟨iff_of_false hg fun e => ?_, fun h => absurd h hg⟩
      have hsame : (σ.handshakeReceived m).ids = σ.ids := congrArg (fun s => s.clientStates.ids) e
      rw [hsame] at hids
      simp at hids
  | tickRecv _ hp ho =>
    rcases tickReceived_owing hi hp ho hm with ⟨hg, how⟩ | ⟨hg, hno, hyes⟩
    · exact ⟨iff_of_true hg how.server, fun _ => how⟩
    · refine ⟨iff_of_false hg fun e => ?_, fun h => absurd h hg⟩
      rw [e] at hyes
      exact hno hyes

theorem ServerRun.Owing.send_of_step (h : σ.Owing τ) (hs : τ.step c = some τ') :
    ∃ m, c = .send m := by
  cases h with
  | handshake r hp ho =>
    cases c with
    | send m => exact ⟨m, rfl⟩
    | _ => cases hs
  | tick hp ho =>
    cases c with
    | send m => exact ⟨m, rfl⟩
    | _ => cases hs

theorem ServerRun.Owing.reply (h : σ.Owing τ) (hi : ServerInv n σ)
    (hwait : σ.pc = .tickRecv → σ.server.allClientsResponded = false) :
    ∃ r : Reply, (τ.pc = .handshakeSend r ∨ (τ.pc = .tickSend ∧ r = .ack)) ∧
      τ.step (.send r.bytes) = some σ := by
  obtain ⟨server, ready, pc, owes⟩ := σ
  cases h with
  | handshake r hp ho =>
    cases hp
    cases ho
    have hlt : ready < server.expectedClients := hi.expected.symm ▸ hi.waiting rfl
    refine ⟨r, .inl rfl, ?_⟩
    rw [step_eq_some.mpr (.handshakeSend r rfl), ServerRun.handshakeHead, if_pos hlt]
  | tick hp ho =>
    cases hp
    cases ho
    refine ⟨.ack, .inr ⟨rfl, rfl⟩, ?_⟩
    have hopen : ¬ server.allClientsResponded = true := by simp [hwait rfl]
    rw [step_eq_some.mpr (.tickSend rfl), ServerRun.tickHead, if_neg hopen]

end Simulith
