import Simulith.Net.Progress

/-!
# What one loss costs

A broadcast is sent once and the server waits for every ack without limit. A
client that has missed the broadcast, or has given up, rests for good with the
server waiting for it (`Net.Mute`), so after any history the server can
broadcast again if and only if every client has heard the last broadcast and
none has failed (`broadcast_again_iff`).
-/

namespace Simulith

variable {ι : Type*} [DecidableEq ι] {args : ι → ClientArgs} {σ σ' : Net ι} {a : Act ι} {c : ι}
  {n : Nat} {heard : ι → Bool}

/-- The server can come to a broadcast, nobody starting over. -/
def Net.CanBroadcast (args : ι → ClientArgs) (σ : Net ι) : Prop :=
  ∃ more heard σ', (∀ a ∈ more, a.Once) ∧
    Lts.exec (Net.step args) σ (more ++ [.broadcast heard]) = some σ'

/-- The client has no ack to send, and the server waits for one. -/
structure Net.Mute (args : ι → ClientArgs) (σ : Net ι) (c : ι) : Prop where
  resting : (σ.ends c).Resting
  deaf : (σ.ends c).feed = [] ∨ (σ.ends c).run.pc = .failed
  flag : ¬ σ.server.server.HasResponded (args c).id

namespace ClientEnd

variable {args : ClientArgs} {e e' : ClientEnd} {b : ClientAct}

theorem failed_endStep (hs : EndStep args e b e') (hb : b ≠ .restart) (hp : e.run.pc = .failed) :
    e'.run = e.run ∧ e'.requester = e.requester := by
  cases hs with
  | subscribe => exact ⟨rfl, rfl⟩
  | restart => exact absurd rfl hb
  | _ => simp_all

theorem Resting.deaf_endStep (h : e.Resting) (hd : e.feed = [] ∨ e.run.pc = .failed)
    (hb : b ≠ .restart) (hs : EndStep args e b e') :
    e'.Resting ∧ (e'.feed = [] ∨ e'.run.pc = .failed) := by
  rcases hd with hf | hp
  · rcases h.endStep hb hs with ⟨hr, hf', -⟩ | ⟨t, feed, hf', -⟩
    · exact ⟨hr, .inl (hf'.trans hf)⟩
    · rw [hf] at hf'
      cases hf'
  · obtain ⟨hrun, hreq⟩ := failed_endStep hs hb hp
    refine ⟨?_, .inr (hrun ▸ hp)⟩
    cases h with
    | failed m _ hr => exact .failed m (hrun ▸ hp) (hreq ▸ hr)
    | _ => simp_all

end ClientEnd

/-- **One step**: a mute client stays mute, and there is no broadcast. -/
theorem Net.Mute.step (h : σ.Mute args c) (ht : Ticking args False σ) (hst : Steady args n σ)
    (hlen : ∀ c, (args c).id.length ≤ 57) (ha : a.Once) (hs : NetStep args σ a σ') :
    σ'.Mute args c := by
  cases hs with
  | client c' b e he =>
    have hb : b ≠ .restart := by
      rintro rfl
      exact ha
    have hend : ((σ.setEnd c' e).ends c).Resting ∧
        (((σ.setEnd c' e).ends c).feed = [] ∨ ((σ.setEnd c' e).ends c).run.pc = .failed) := by
      by_cases hc : c = c'
      · subst hc
        simp only [Net.setEnd, Function.update_self]
        exact h.resting.deaf_endStep h.deaf hb he
      · simp only [Net.setEnd, Function.update_of_ne hc]
        exact ⟨h.resting, h.deaf⟩
    exact ⟨hend.1, hend.2, h.flag⟩
  | request c' m τ hm hs =>
    have hc : c ≠ c' := by
      rintro rfl
      exact h.resting.not_sent hm
    have hend : (σ.setEnd c' { σ.ends c' with requester := .held }).ends c = σ.ends c :=
      Function.update_of_ne hc _ _
    refine ⟨hend ▸ h.resting, hend ▸ h.deaf, fun hr => ?_⟩
    exact ((ht.request_flags hst hlen hm hs c).mp hr).elim h.flag hc
  | requestStale k m τ hm _ =>
    rw [hst.stale] at hm
    cases hm
  | answer m τ _ hs =>
    have hend : (σ.ends c).answer m = σ.ends c :=
      ClientEnd.answer_of_not_held h.resting.not_held m
    refine ⟨?_, ?_, fun hr => h.flag (((tickSend_spec hst.inv ht.tick hs).2.2.1 _).mp hr)⟩
    · simp only [hend]
      exact h.resting
    · simp only [hend]
      exact h.deaf
  | broadcast heard τ hs => exact absurd (ht.due (pc_publish hs).1 c) h.flag

theorem Net.Mute.not_canBroadcast [Fintype ι] (h : σ.Mute args c) (ht : Ticking args False σ)
    (hst : Steady args (Fintype.card ι) σ) (hlen : ∀ c, (args c).id.length ≤ 57) :
    ¬ σ.CanBroadcast args := by
  rintro ⟨more, heard, σ', honce, he⟩
  obtain ⟨τ, hτ, hs⟩ := Lts.exec_snoc_eq_some.mp he
  have hkeep : Steady args (Fintype.card ι) τ ∧ Ticking args False τ ∧ τ.Mute args c :=
    Lts.exec_invariant (P := fun _ a => a.Once)
      (I := fun σ => Steady args (Fintype.card ι) σ ∧ Ticking args False σ ∧ σ.Mute args c)
      (fun _ _ _ h ha hs => ⟨h.1.step hlen ha (.of_step hs),
        h.2.1.step h.1 hlen ha False.elim (.of_step hs),
        h.2.2.step h.2.1 h.1 hlen ha (.of_step hs)⟩)
      ⟨hst, ht, h⟩ (Lts.along_of_forall fun a ha _ => honce a ha) hτ
  cases NetStep.of_step hs with
  | broadcast _ υ hυ => exact hkeep.2.2.flag (hkeep.2.1.due (pc_publish hυ).1 c)

/-! ## The broadcast -/

/-- A client that has missed the broadcast, or has failed before it, is mute. -/
theorem mute_broadcast (hst : Steady args n σ)
    (hready : ∀ c, (σ.ends c).Resting ∧ (σ.ends c).UpToDate (args c) σ.broadcasts)
    (hs : NetStep args σ (.broadcast heard) σ')
    (hc : (σ.ends c).run.pc = .failed ∨ ¬ (heard c = true ∧ (σ.ends c).subscribed = true)) :
    σ'.Mute args c := by
  cases hs with
  | broadcast _ τ hs =>
    obtain ⟨hr, hu⟩ := hready c
    have hlag : ((σ.ends c).deliver (heard c) σ.server.server.currentTimeNs).Lagging (args c) False
        (σ.broadcasts ++ [σ.server.server.currentTimeNs]) :=
      ClientEnd.lagging_deliver hr hu False.elim
    refine ⟨hlag.resting, ?_, (publish_spec hst.inv hs).2.2.1 _⟩
    rcases hc with hp | hmiss
    · exact .inr ((congrArg ClientRun.pc (ClientEnd.deliver_run ..)).trans hp)
    · have hdrop : ¬ (heard c && (σ.ends c).subscribed) = true := by simpa using hmiss
      left
      simp only [ClientEnd.deliver, if_neg hdrop]
      exact hu.feed

theorem ClientEnd.Resting.admitted {e : ClientEnd} {pc : ServerPc} (h : e.Resting)
    (hp : e.run.pc ≠ .failed) : e.Admitted pc := by
  cases h with
  | tick hp _ => exact .inl (by rw [hp]; trivial)
  | joining hp hr => exact .inr ⟨hp, .inl hr⟩
  | acked m hp _ => exact .inl (by rw [hp]; trivial)
  | failed m hp' _ => exact absurd hp' hp

/-- After a broadcast that all have heard it is as if nothing had been lost before. -/
theorem live_broadcast [Fintype ι] (hst : Steady args (Fintype.card ι) σ)
    (hlen : ∀ c, (args c).id.length ≤ 57)
    (hdistinct : ∀ c c', (args c).id = (args c').id → c = c')
    (hmem : ∀ c, (args c).id ∈ σ.server.ids) (howner : ∀ x ∈ σ.server.ids, ∃ c, (args c).id = x)
    (hready : ∀ c, (σ.ends c).Resting ∧ (σ.ends c).UpToDate (args c) σ.broadcasts)
    (hs : NetStep args σ (.broadcast heard) σ')
    (hall : ∀ c, (σ.ends c).run.pc ≠ .failed ∧ heard c = true ∧ (σ.ends c).subscribed = true) :
    Live args σ' := by
  have hstep := hst.step hlen (show (Act.broadcast heard : Act ι).Once from trivial) hs
  have ht : Ticking args True σ' := ticking_broadcast hst hs hdistinct hmem howner hready
    fun _ c _ => (hall c).2
  refine
    { steady := hstep, phase := .inr ht, inside := fun c => .inr ?_,
      member := fun c _ => ht.member c, holder := fun ho => ?_, waits := ?_ }
  · cases hs with
    | broadcast _ τ _ =>
      obtain ⟨hr, hu⟩ := hready c
      have hlag : ((σ.ends c).deliver (heard c) σ.server.server.currentTimeNs).Lagging (args c)
          False (σ.broadcasts ++ [σ.server.server.currentTimeNs]) :=
        ClientEnd.lagging_deliver hr hu False.elim
      refine hlag.resting.admitted ?_
      rw [ClientEnd.deliver_run]
      exact (hall c).1
  · cases hs with
    | broadcast _ τ hs =>
      have howes := (pc_publish hs).2.2.trans (hst.well.not_owes (.inr (.inr (pc_publish hs).1)))
      rw [show τ.owes = true from ho] at howes
      cases howes
  · cases hs with
    | broadcast _ τ hs =>
      exact waits_step (fun hp => by rw [(pc_publish hs).1] at hp; cases hp) hs

theorem Live.canBroadcast [Fintype ι] (h : Live args σ) (hlen : ∀ c, (args c).id.length ≤ 57)
    (hdistinct : ∀ c c', (args c).id = (args c').id → c = c') : σ.CanBroadcast args := by
  obtain ⟨more, τ, _, σ', hA, hτ, hs, heard, rfl⟩ := Lts.exists_exec_goal
    (P := fun σ a => a.Lossless σ) (G := fun _ a => ∃ heard, a = Act.broadcast heard)
    (Net.work args) (fun _ _ _ h ha hs => h.step hlen hdistinct ha (.of_step hs))
    (fun _ h => h.progress hlen hdistinct) h
  refine ⟨more, heard, σ', fun a ha => ?_, Lts.exec_snoc_eq_some.mpr ⟨τ, hτ, hs⟩⟩
  obtain ⟨pre, post, υ, -, rfl, hυ, -⟩ := Lts.exec_mem hτ ha
  exact (Lts.along_iff.mp hA.left pre a post υ rfl hυ).once

/-- **What one loss costs.** A server for as many clients as there are, with ids
of at most 57 bytes, and nobody starts over; whatever has been dropped and
whoever has given up so far. After a broadcast the server can broadcast again if
and only if no client has failed and every client has heard this one. -/
theorem broadcast_again_iff [Fintype ι] (hlen : ∀ c, (args c).id.length ≤ 57) {iv : UInt64}
    {s : Server} (hs : ServerReady (Fintype.card ι) iv s) {acts : List (Act ι)}
    (honce : ∀ a ∈ acts, a.Once) (he : Lts.exec (Net.step args) (Net.init ι s) acts = some σ)
    (hb : σ.step args (.broadcast heard) = some σ') :
    σ'.CanBroadcast args ↔
      ∀ c, (σ.ends c).run.pc ≠ .failed ∧ heard c = true ∧ (σ.ends c).subscribed = true := by
  obtain ⟨hst, hphase⟩ := gathering_or_ticking (ℓ := False) hlen hs
    (Lts.along_of_forall fun a ha _ => ⟨honce a ha, False.elim⟩) he
  have hb' := NetStep.of_step hb
  have hpc : σ.server.pc = .broadcast := by
    cases hb' with
    | broadcast _ τ hs => exact (pc_publish hs).1
  obtain ⟨hdistinct, hmem, howner, hready⟩ :
      (∀ c c', (args c).id = (args c').id → c = c') ∧ (∀ c, (args c).id ∈ σ.server.ids) ∧
      (∀ x ∈ σ.server.ids, ∃ c, (args c).id = x) ∧
      ∀ c, (σ.ends c).Resting ∧ (σ.ends c).UpToDate (args c) σ.broadcasts := by
    rcases hphase with hg | ht
    · obtain ⟨hdistinct, hmem, -⟩ := hg.full hst hpc
      exact ⟨hdistinct, hmem, fun x hx => have ⟨c, hc, _⟩ := hg.owner x hx; ⟨c, hc⟩,
        hg.ready hst hpc⟩
    · exact ⟨ht.distinct, ht.member, ht.owner, ht.ready hst hpc⟩
  constructor
  · intro hcan c
    by_contra hc
    have hmiss : (σ.ends c).run.pc = .failed ∨
        ¬ (heard c = true ∧ (σ.ends c).subscribed = true) := by
      rcases not_and_or.mp hc with h | h
      · exact .inl (not_not.mp h)
      · exact .inr h
    have ht : Ticking args False σ' :=
      ticking_broadcast hst hb' hdistinct hmem howner hready False.elim
    exact (mute_broadcast hst hready hb' hmiss).not_canBroadcast ht
      (hst.step hlen (show (Act.broadcast heard : Act ι).Once from trivial) hb') hlen hcan
  · exact fun hall =>
      (live_broadcast hst hlen hdistinct hmem howner hready hb' hall).canBroadcast hlen hdistinct

theorem broadcast_again_iff_two_clients :
    let args := ![ClientArgs.named [97] (by decide) (by decide),
      ClientArgs.named [98] (by decide) (by decide)]
    let acts := join 0 ++ .client 0 .subscribe :: join 1 ++ [.client 1 .subscribe]
    ∃ σ σ' τ, Lts.exec (Net.step args) (Net.init (Fin 2) (.fresh 2 10)) acts = some σ ∧
      σ.step args (.broadcast fun _ => true) = some σ' ∧ σ'.CanBroadcast args ∧
      σ.step args (.broadcast fun c => c = 0) = some τ ∧ ¬ τ.CanBroadcast args := by
  intro args acts
  obtain ⟨σ, hσ, hsub, hpc, hstep⟩ : ∃ σ,
      Lts.exec (Net.step args) (Net.init (Fin 2) (.fresh 2 10)) acts = some σ ∧
      (∀ c, (σ.ends c).subscribed = true) ∧ (∀ c, (σ.ends c).run.pc ≠ .failed) ∧
      (σ.step args (.broadcast fun _ => true)).isSome ∧
      (σ.step args (.broadcast fun c => c = 0)).isSome := Lts.exists_exec_of_any (by decide)
  obtain ⟨σ', hσ'⟩ := Option.isSome_iff_exists.mp hstep.1
  obtain ⟨τ, hτ⟩ := Option.isSome_iff_exists.mp hstep.2
  have hready : ServerReady (Fintype.card (Fin 2)) 10 (.fresh 2 10) :=
    serverReady_fresh (by decide) (by decide) (by decide)
  refine ⟨σ, σ', τ, hσ, hσ', ?_, hτ, fun hcan => ?_⟩
  · exact (broadcast_again_iff (by decide) hready (by decide) hσ hσ').mpr fun c =>
      ⟨hpc c, rfl, hsub c⟩
  · have := (broadcast_again_iff (by decide) hready (by decide) hσ hτ).mp hcan 1
    simp at this

end Simulith
