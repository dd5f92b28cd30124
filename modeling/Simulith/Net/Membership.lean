import Mathlib.Data.Fin.VecNotation
import Simulith.Net.Admission

/-!
# What a successful handshake means

A client whose handshake returns 0 is a member of the server's barrier, and the
only one with its id, as long as the server reads the READY of a waiting client
in its handshake phase only (`ReadsInPhase`). The tick phase answers every
message ACK: `latecomer_no_member` is what comes of it.
-/

namespace Simulith

/-- A request the server may read: of at most 63 bytes, and in the tick phase
not of a client that waits for the reply to READY. -/
def ReadsInPhase {ι : Type*} (σ : Net ι) : Act ι → Prop
  | .request c => (∀ m ∈ (σ.ends c).requester.underway, m.length ≤ 63) ∧
      (σ.server.pc = .tickRecv → (σ.ends c).run.pc ≠ .await)
  | .requestStale k => ∀ m ∈ σ.stale[k]?, m.length ≤ 63
  | _ => True

instance {ι : Type*} (σ : Net ι) (a : Act ι) : Decidable (ReadsInPhase σ a) :=
  match a with
  | .client _ _ => isTrue trivial
  | .request _ => inferInstanceAs (Decidable (_ ∧ _))
  | .requestStale _ => inferInstanceAs (Decidable (∀ _ ∈ _, _))
  | .answer => isTrue trivial
  | .broadcast _ => isTrue trivial

structure Membership {ι : Type*} (args : ι → ClientArgs) (σ : Net ι) : Prop where
  wired : Wired args σ
  defined : σ.server.pc ≠ .undefined
  member : ∀ c, σ.Admitted c → (args c).id ∈ σ.server.ids
  unique : ∀ c c', σ.Admitted c → σ.Admitted c' → (args c).id = (args c').id → c = c'
  /-- in the tick phase no READY is being answered -/
  acked : ∀ c, (σ.ends c).requester = .held → σ.server.pc = .tickSend →
    (σ.ends c).run.pc ≠ .await

variable {ι : Type*} [DecidableEq ι] {args : ι → ClientArgs} {σ σ' : Net ι} {a : Act ι} {n : Nat}

theorem tickSend_of_recv {τ τ' : ServerRun} {m : Msg} (h : τ.step (.recv m) = some τ')
    (hp : τ'.pc = .tickSend) : τ.pc = .tickRecv := by
  rw [step_eq_some] at h
  cases h with
  | handshakeRecv _ hpc _ =>
    unfold ServerRun.handshakeReceived at hp
    split at hp
    · rw [hpc] at hp; cases hp
    · split at hp
      · cases hp
      · split at hp <;> cases hp
  | tickRecv _ hpc _ => exact hpc

theorem NetStep.defined (hs : NetStep args σ a σ') (hd : σ.server.pc ≠ .undefined)
    (ha : ReadsInPhase σ a) : σ'.server.pc ≠ .undefined := by
  cases hs with
  | client => exact hd
  | request c m τ hm hs =>
    refine defined_step hd (fun m' e => ?_) hs
    obtain rfl := ServerCall.recv.inj e
    exact ha.1 m (by rw [hm]; exact List.mem_singleton_self m)
  | requestStale k m τ hm hs =>
    refine defined_step hd (fun m' e => ?_) hs
    obtain rfl := ServerCall.recv.inj e
    exact ha m hm
  | answer m τ _ hs => exact defined_step hd (fun _ e => by cases e) hs
  | broadcast heard τ hs => exact defined_step hd (fun _ e => by cases e) hs

theorem Membership.step (h : Membership args σ) (hi : ServerInv n σ.server)
    (ha : ReadsInPhase σ a) (hs : NetStep args σ a σ') : Membership args σ' := by
  -- a client admitted by this step is one the server registers
  have hnew : ∀ c, σ'.Admitted c → σ.Admitted c ∨ (a = .request c ∧
      (args c).id ∉ σ.server.ids ∧ σ'.server.ids = σ.server.ids ++ [(args c).id]) := by
    intro c hc
    rcases hc.of_step h.wired hs with hc | ⟨rfl, hp, hack⟩ | ⟨-, hp, hheld, htick⟩
    · exact .inl hc
    · exact .inr ⟨rfl, registered_id h.wired hi hs (.inl hp) hack⟩
    · exact absurd hp (h.acked c hheld htick)
  refine
    { wired := h.wired.step hs
      defined := hs.defined h.defined ha
      member := fun c hc => ?_
      unique := fun c c' hc hc' e => ?_
      acked := ?_ }
  · rcases hnew c hc with hc | ⟨-, -, hadd⟩
    · exact hs.ids_subset hi (h.member c hc)
    · rw [hadd]
      exact List.mem_append_right _ (List.mem_singleton_self _)
  · rcases hnew c hc with hc | ⟨ec, hn, -⟩ <;> rcases hnew c' hc' with hc' | ⟨ec', hn', -⟩
    · exact h.unique c c' hc hc' e
    · exact absurd (e ▸ h.member c hc) hn'
    · exact absurd (e ▸ h.member c' hc') hn
    · exact Act.request.inj (ec.symm.trans ec')
  · cases hs with
    | client c₀ a e he =>
      refine Net.forall_setEnd (σ := σ) (p := fun _ e => e.requester = .held →
        σ.server.pc = .tickSend → e.run.pc ≠ .await) ?_ fun c' _ => h.acked c'
      intro hh ht hp
      exact h.acked c₀ (ClientEnd.held_step he hh) ht (ClientEnd.await_step he hh hp)
    | request c₀ m τ hm hs =>
      refine Net.forall_setEnd (σ := σ) (p := fun _ e => e.requester = .held →
        τ.pc = .tickSend → e.run.pc ≠ .await) ?_ fun c' _ hh => ?_
      · exact fun _ ht => ha.2 (tickSend_of_recv hs ht)
      · exact absurd hh (h.wired.not_held hs c')
    | requestStale k m τ _ hs => exact fun c hh => absurd hh (h.wired.not_held hs c)
    | answer m τ _ _ => exact fun c hh => absurd hh (Requester.answer_ne_held _ _)
    | broadcast heard τ hs =>
      intro c _ ht
      rcases (pc_publish hs).2.1 with hp | hp <;> rw [hp] at ht <;> cases ht

omit [DecidableEq ι] in
theorem membership_init (s : Server) : Membership args (Net.init ι s) where
  wired := wired_init s
  defined := (well_init s).defined
  member c hc := by rcases hc with hc | ⟨hc, -⟩ <;> cases hc
  unique c _ hc := by rcases hc with hc | ⟨hc, -⟩ <;> cases hc
  acked c hc := by cases hc

/-- **Membership.** In a run whose server reads the READY of a waiting client in
its handshake phase only, the barrier waits for every client whose handshake
has returned 0, and no two of these have the same id. -/
theorem handshake_means_membership {N : Int} {iv : UInt64} {s : Server} (hs : ServerReady N iv s)
    {acts : List (Act ι)} (hP : Lts.Along (Net.step args) ReadsInPhase (Net.init ι s) acts)
    (he : Lts.exec (Net.step args) (Net.init ι s) acts = some σ) :
    σ.server.pc ≠ .undefined ∧
    (∀ c, (σ.ends c).run.pc.Joined → σ.server.Awaits (args c).id) ∧
    ∀ c c', (σ.ends c).run.pc.Joined → (σ.ends c').run.pc.Joined → (args c).id = (args c').id →
      c = c' := by
  obtain ⟨hm, hi⟩ := Lts.exec_invariant
    (I := fun σ => Membership args σ ∧ ServerInv s.expectedClients σ.server)
    (fun σ a σ' h ha hs => ⟨h.1.step h.2 ha (.of_step hs), NetStep.serverInv (.of_step hs) h.2⟩)
    ⟨membership_init s, serverInv_init hs⟩ hP he
  exact ⟨hm.defined, fun c hc => hi.awaits (hm.member c (.inl hc)),
    fun c c' hc hc' e => hm.unique c c' (.inl hc) (.inl hc') e⟩

theorem handshake_means_membership_two_clients :
    let args := ![ClientArgs.named [97] (by decide) (by decide),
      ClientArgs.named [98] (by decide) (by decide)]
    ∃ σ, Lts.exec (Net.step args) (Net.init (Fin 2) (.fresh 2 10)) (join 0 ++ join 1) = some σ ∧
      ∀ c, (σ.ends c).run.pc.Joined → σ.server.Awaits (args c).id :=
  have ⟨σ, h⟩ := Option.isSome_iff_exists.mp (by decide)
  ⟨σ, h, (handshake_means_membership (serverReady_fresh (by decide) (by decide) (by decide))
    (by decide) h).2.1⟩

/-- A client that joins while ticks are exchanged: its handshake returns 0, but
the barrier does not wait for its id, or it is the second to join with that id. -/
theorem latecomer_no_member :
    let acts : List (Act (Fin 2)) := join 0 ++ .broadcast (fun _ => true) :: join 1
    let a := ClientArgs.named [97] (by decide) (by decide)
    let b := ClientArgs.named [98] (by decide) (by decide)
    (∃ σ, Lts.exec (Net.step ![a, b]) (Net.init (Fin 2) (.fresh 1 10)) acts = some σ ∧
      (σ.ends 1).run.pc.Joined ∧ ¬ σ.server.Awaits b.id) ∧
    ∃ σ, Lts.exec (Net.step ![a, a]) (Net.init (Fin 2) (.fresh 1 10)) acts = some σ ∧
      ∀ c, (σ.ends c).run.pc.Joined := by
  exact ⟨Lts.exists_exec_of_any (by decide), Lts.exists_exec_of_any (by decide)⟩

end Simulith
