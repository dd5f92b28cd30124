import Mathlib.Data.Fin.VecNotation
import Simulith.Net.Admission

/-!
# Ghost registrations

The server registers a client before the client learns of it. Every registered
id belongs to a client that has joined or is about to, as long as no receive
timeout fires in a client already registered and no READY is registered of a
client that has given up (`Punctual`). `ghost_registration` is a run in which
that goes wrong: the id stays registered, and keeps the client out when it
starts over.
-/

namespace Simulith

/-- No receive timeout of a registered client; in the handshake phase no READY
of a client that does not wait for the reply to it. -/
def Punctual {ι : Type*} (args : ι → ClientArgs) (σ : Net ι) : Act ι → Prop
  | .client c .timeout => (args c).id ∉ σ.server.ids
  | .request c => σ.server.pc = .handshakeRecv → (σ.ends c).run.pc = .await
  | .requestStale _ => σ.server.pc ≠ .handshakeRecv
  | _ => True

instance {ι : Type*} (args : ι → ClientArgs) (σ : Net ι) (a : Act ι) :
    Decidable (Punctual args σ a) :=
  match a with
  | .client _ .timeout => inferInstanceAs (Decidable (_ ∉ _))
  | .request _ => inferInstanceAs (Decidable (_ → _))
  | .requestStale _ => inferInstanceAs (Decidable (_ ≠ _))
  | .client _ (.init _) => isTrue trivial
  | .client _ .subscribe => isTrue trivial
  | .client _ .send => isTrue trivial
  | .client _ .sendFail => isTrue trivial
  | .client _ .reply => isTrue trivial
  | .client _ .tick => isTrue trivial
  | .client _ .restart => isTrue trivial
  | .answer => isTrue trivial
  | .broadcast _ => isTrue trivial

structure NoGhost {ι : Type*} (args : ι → ClientArgs) (σ : Net ι) : Prop where
  wired : Wired args σ
  /-- every registered id has an admitted owner -/
  owner : ∀ x ∈ σ.server.ids, ∃ c, (args c).id = x ∧ σ.Admitted c
  noDup : σ.server.pc ≠ .handshakeSend .dupId

variable {ι : Type*} [DecidableEq ι] {args : ι → ClientArgs} {σ σ' : Net ι} {a : Act ι} {n : Nat}

theorem dupId_of_step {τ τ' : ServerRun} {c : ServerCall} (hi : ServerInv n τ)
    (h : τ.step c = some τ') (hp : τ'.pc = .handshakeSend .dupId) (hne : τ.pc ≠ .handshakeSend .dupId) :
    ∃ m, c = .recv m ∧ τ.pc = .handshakeRecv ∧ ∃ x ∈ τ.ids, handshakeId m = some x := by
  rw [step_eq_some] at h
  cases h with
  | handshakeRecv m hpc _ =>
    refine ⟨m, rfl, hpc, ?_⟩
    have hlt : τ.ids.length < maxClients := by
      have := hi.waiting hpc; have := hi.ready; have := hi.le; omega
    by_cases h0 : m.length = 0
    · rw [ServerRun.handshakeReceived, if_pos h0, hpc] at hp
      cases hp
    by_cases h63 : m.length < 64
    · rcases handshakeReceived_cases hi.registered hlt h0 h63 with
        ⟨-, e⟩ | ⟨x, hx, hm, -⟩ | ⟨x, cid, -, -, -, -, e, -⟩
      · rw [e] at hp; cases hp
      · exact ⟨x, hx, hm⟩
      · rw [e] at hp; cases hp
    · have hnone : CStr.recvTerminated 64 m = none := CStr.recvTerminated_eq_none.mpr (by omega)
      simp only [ServerRun.handshakeReceived, if_neg h0, hnone] at hp
      cases hp
  | tickRecv m hpc _ =>
    unfold ServerRun.tickReceived at hp
    split at hp
    · rw [hpc] at hp; cases hp
    · split at hp <;> cases hp
  | fail _ => exact absurd hp hne
  | handshakeSend _ _ =>
    rcases handshakeHead_pc { τ with owes := false } with h | h <;> rw [h] at hp <;> cases hp
  | tickSend _ =>
    rcases tickHead_pc { τ with owes := false } with h | h <;> rw [h] at hp <;> cases hp
  | publish _ =>
    rcases tickHead_pc { τ with server := τ.server.resetResponses } with h | h <;>
      rw [h] at hp <;> cases hp

theorem NoGhost.step (hlen : ∀ c, (args c).id.length ≤ 57)
    (hinj : ∀ c c', (args c).id = (args c').id → c = c') (h : NoGhost args σ)
    (hi : ServerInv n σ.server) (ha : Punctual args σ a) (hs : NetStep args σ a σ') :
    NoGhost args σ' := by
  -- an owner is not let go
  have hkeep : ∀ x ∈ σ.server.ids, ∃ c, (args c).id = x ∧ σ'.Admitted c := by
    intro x hx
    obtain ⟨c, rfl, hc⟩ := h.owner x hx
    refine ⟨c, rfl, hc.step h.wired hs ?_⟩
    rintro rfl
    exact ha hx
  refine { wired := h.wired.step hs, owner := fun x hx => ?_, noDup := fun hp => ?_ }
  · rcases hs.ids_cases hi with e | ⟨c, rfl, hpc, hack⟩ | ⟨k, rfl, -, hpc⟩
    · exact hkeep x (e ▸ hx)
    · have hp := ha hpc
      have hreg := registered_id h.wired hi hs (.inl hp) hack
      rcases List.mem_append.mp (hreg.2 ▸ hx) with hx | hx
      · exact hkeep x hx
      · obtain ⟨hp', hg⟩ := granted_of_ack hs hack
        exact ⟨c, (List.mem_singleton.mp hx).symm, .inr ⟨hp'.trans hp, hg⟩⟩
    · exact absurd hpc ha
  · cases hs with
    | client c a e _ => exact h.noDup hp
    | request c m τ hm hs =>
      obtain ⟨m', e, hpc, x, hx, hid⟩ := dupId_of_step hi hs hp h.noDup
      obtain rfl := ServerCall.recv.inj e
      have hawait := ha hpc
      rw [handshakeId_sent h.wired hlen hawait hm] at hid
      obtain rfl := Option.some.inj hid
      -- the owner of the id is the client itself, whose READY has only now been read
      obtain ⟨c', hc', hadm⟩ := h.owner _ hx
      obtain rfl := hinj _ _ hc'
      rcases hadm with hj | ⟨-, hg | ⟨hg, -⟩⟩
      · rw [hawait] at hj; cases hj
      · rw [hm] at hg; cases hg
      · rw [hm] at hg; cases hg
    | requestStale k m τ hm hs =>
      obtain ⟨_, -, hpc, -⟩ := dupId_of_step hi hs hp h.noDup
      exact ha hpc
    | answer m τ _ hs =>
      obtain ⟨_, e, -⟩ := dupId_of_step hi hs hp h.noDup
      cases e
    | broadcast heard τ hs =>
      obtain ⟨_, e, -⟩ := dupId_of_step hi hs hp h.noDup
      cases e

/-- **No ghosts.** In a punctual run of clients with distinct ids every registered
id belongs to a client that has joined or waits for the reply, so the server
does not wait for a client whose handshake failed, and no READY is answered
DUP_ID. -/
theorem no_ghosts (hlen : ∀ c, (args c).id.length ≤ 57)
    (hinj : ∀ c c', (args c).id = (args c').id → c = c') {N : Int} {iv : UInt64} {s : Server}
    (hs : ServerReady N iv s) {acts : List (Act ι)}
    (hP : Lts.Along (Net.step args) (Punctual args) (Net.init ι s) acts)
    (he : Lts.exec (Net.step args) (Net.init ι s) acts = some σ) :
    (∀ x ∈ σ.server.ids, ∃ c, (args c).id = x ∧
      ((σ.ends c).run.pc.Joined ∨ (σ.ends c).run.pc = .await)) ∧
    (∀ c, (σ.ends c).run.pc = .failed → (args c).id ∉ σ.server.ids) ∧
    σ.server.pc ≠ .handshakeSend .dupId := by
  have hi₀ := serverInv_init hs
  have h₀ : NoGhost args (Net.init ι s) :=
    { wired := wired_init s
      owner := fun x hx => by
        rw [show (Net.init ι s).server.ids = [] from ids_simulithServerRun hs] at hx
        cases hx
      noDup := by
        rcases handshakeHead_pc ⟨s, 0, .handshakeRecv, false⟩ with hp | hp <;>
          exact fun h => by rw [show (Net.init ι s).server.pc = _ from hp] at h; cases h }
  obtain ⟨h, -⟩ := Lts.exec_invariant
    (I := fun σ => NoGhost args σ ∧ ServerInv s.expectedClients σ.server)
    (fun σ a σ' h ha hs => ⟨h.1.step hlen hinj h.2 ha (.of_step hs),
      NetStep.serverInv (.of_step hs) h.2⟩) ⟨h₀, hi₀⟩ hP he
  have hpc : ∀ x ∈ σ.server.ids, ∃ c, (args c).id = x ∧
      ((σ.ends c).run.pc.Joined ∨ (σ.ends c).run.pc = .await) := fun x hx =>
    have ⟨c, hc, hadm⟩ := h.owner x hx
    ⟨c, hc, hadm.imp_right And.left⟩
  refine ⟨hpc, fun c hf hx => ?_, h.noDup⟩
  obtain ⟨c', hc', hj⟩ := hpc _ hx
  obtain rfl := hinj _ _ hc'
  rcases hj with hj | hj <;> rw [hf] at hj <;> cases hj

theorem no_ghosts_two_clients :
    let args := ![ClientArgs.named [97] (by decide) (by decide),
      ClientArgs.named [98] (by decide) (by decide)]
    let acts := [.client 1 (.init .ok), .client 1 .sendFail, .client 1 .restart] ++ join 0 ++ join 1
    ∃ σ, Lts.exec (Net.step args) (Net.init (Fin 2) (.fresh 2 10)) acts = some σ ∧
      ∀ x ∈ σ.server.ids, ∃ c, (args c).id = x ∧
        ((σ.ends c).run.pc.Joined ∨ (σ.ends c).run.pc = .await) :=
  have ⟨σ, h⟩ := Option.isSome_iff_exists.mp (by decide)
  ⟨σ, h, (no_ghosts (by decide) (by decide)
    (serverReady_fresh (by decide) (by decide) (by decide)) (by decide) h).1⟩

/-- A client times out and the server registers it all the same. The server
broadcasts with that client to wait for; had it more clients to wait for, it
would answer DUP_ID to the client that starts over. -/
theorem ghost_registration :
    let args := ![ClientArgs.named [97] (by decide) (by decide),
      ClientArgs.named [98] (by decide) (by decide)]
    let late : List (Act (Fin 2)) := [.client 0 (.init .ok), .client 0 .send, .client 0 .timeout,
      .request 0, .answer]
    (∃ σ, Lts.exec (Net.step args) (Net.init (Fin 2) (.fresh 1 10))
        (late ++ [.broadcast fun _ => true]) = some σ ∧
      (args 0).id ∈ σ.server.ids ∧ (σ.ends 0).run.pc = .failed) ∧
    ∃ σ, Lts.exec (Net.step args) (Net.init (Fin 2) (.fresh 2 10))
        (late ++ [.client 0 .restart, .client 0 (.init .ok), .client 0 .send, .request 0]) =
          some σ ∧ (σ.ends 0).requester = .held ∧ σ.server.pc = .handshakeSend .dupId := by
  exact ⟨Lts.exists_exec_of_any (by decide), Lts.exists_exec_of_any (by decide)⟩

end Simulith
