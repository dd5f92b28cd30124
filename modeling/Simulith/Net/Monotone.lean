import Mathlib.Algebra.GroupWithZero.Nat
import Mathlib.Data.Fin.VecNotation
import Simulith.Net.Wire
import Simulith.Session.Clock

/-!
# Time only goes forward

Any clients, any losses, any restarts. A run of the net is a run of the server
(`exists_server_calls`), so its broadcasts are spaced by the interval, and what
`on_tick` has been given, with what has yet to be received, is a subsequence of
them (`ticks_sublist`). A client therefore sees strictly increasing times, as
long as the 64-bit clock does not wrap (`ticks_increase`).
-/

namespace Simulith

namespace ClientEnd

variable {args : ClientArgs} {e e' : ClientEnd} {a : ClientAct}

theorem ticks_step (h : e.step args a = some e') :
    (e'.run.ticks ++ e'.feed).Sublist (e.run.ticks ++ e.feed) := by
  by_cases hr : a = .restart
  · -- what was delivered to the closed socket is gone
    subst hr
    obtain ⟨r, hr, rfl⟩ := Option.map_eq_some_iff.mp h
    simp only [ClientRun.step] at hr
    split at hr
    · cases hr
      simp
    · cases hr
  · cases EndStep.of_step h with
    | init o r _ _ _ ht _ => rw [ht]
    | joinReply m _ _ =>
      have ht : (e.run.handshakeReceived m).ticks = e.run.ticks := by
        unfold ClientRun.handshakeReceived
        split <;> rfl
      rw [ht]
    | tick t feed _ hf =>
      rw [hf]
      simp only
      split
      · simp
      · exact (List.sublist_cons_self t feed).append_left _
    | restart => exact absurd rfl hr
    | _ => exact List.Sublist.refl _

end ClientEnd

variable {ι : Type*} [DecidableEq ι] {args : ι → ClientArgs} {σ σ' : Net ι} {a : Act ι}

theorem exists_server_calls {s : Server} {acts : List (Act ι)}
    (he : Lts.exec (Net.step args) (Net.init ι s) acts = some σ) :
    ∃ cs, Lts.exec ServerRun.step (simulithServerRun s) cs = some σ.server ∧
      publishes cs = σ.broadcasts := by
  refine Lts.exec_preserves (I := fun σ : Net ι => ∃ cs,
    Lts.exec ServerRun.step (simulithServerRun s) cs = some σ.server ∧
      publishes cs = σ.broadcasts) (fun σ a σ' h hs => ?_) ⟨[], rfl, rfl⟩ he
  obtain ⟨cs, hcs, hpub⟩ := h
  have hquiet : ∀ {c : ServerCall} {τ : ServerRun}, σ.server.step c = some τ → c.time = none →
      ∃ cs, Lts.exec ServerRun.step (simulithServerRun s) cs = some τ ∧
        publishes cs = σ.broadcasts := by
    intro c τ hc ht
    refine ⟨cs ++ [c], Lts.exec_snoc_eq_some.mpr ⟨_, hcs, hc⟩, ?_⟩
    rw [publishes_snoc, ht, Option.toList_none, List.append_nil, hpub]
  cases NetStep.of_step hs with
  | client => exact ⟨cs, hcs, hpub⟩
  | request c m τ _ hτ => exact hquiet hτ rfl
  | requestStale k m τ _ hτ => exact hquiet hτ rfl
  | answer m τ _ hτ => exact hquiet hτ rfl
  | broadcast heard τ hτ =>
    refine ⟨cs ++ [.publish σ.server.server.currentTimeNs],
      Lts.exec_snoc_eq_some.mpr ⟨_, hcs, hτ⟩, ?_⟩
    rw [publishes_snoc, hpub]
    rfl

/-- No client sees a time that was not broadcast, or one twice, or two in another order. -/
theorem ticks_sublist {s : Server} {acts : List (Act ι)}
    (he : Lts.exec (Net.step args) (Net.init ι s) acts = some σ) (c : ι) :
    ((σ.ends c).run.ticks ++ (σ.ends c).feed).Sublist σ.broadcasts := by
  refine Lts.exec_preserves (I := fun σ : Net ι => ∀ c,
    ((σ.ends c).run.ticks ++ (σ.ends c).feed).Sublist σ.broadcasts) (fun σ a σ' h hs => ?_)
    ?_ he c
  swap
  · exact fun c => List.Sublist.refl []
  cases a with
  | client c₀ b =>
    obtain ⟨e, hend, rfl⟩ := Option.map_eq_some_iff.mp hs
    exact Net.forall_setEnd (p := fun _ e => (e.run.ticks ++ e.feed).Sublist σ.broadcasts)
      ((ClientEnd.ticks_step hend).trans (h c₀)) fun c _ => h c
  | broadcast heard =>
    obtain ⟨τ, -, rfl⟩ := Option.map_eq_some_iff.mp hs
    intro c
    simp only [ClientEnd.deliver_run]
    unfold ClientEnd.deliver
    split
    · simp only [← List.append_assoc]
      exact (h c).append_right _
    · exact (h c).trans (List.sublist_append_left _ _)
  | request c₀ =>
    cases NetStep.of_step hs with
    | request _ m τ _ _ =>
      exact Net.forall_setEnd (p := fun _ e => (e.run.ticks ++ e.feed).Sublist σ.broadcasts)
        (h c₀) fun c _ => h c
  | requestStale k =>
    cases NetStep.of_step hs with
    | requestStale => exact h
  | answer =>
    cases NetStep.of_step hs with
    | answer => exact h

theorem pairwise_lt_of_spaced {ts : List UInt64} {t₀ iv : UInt64} (hiv : iv ≠ 0)
    (hts : ∀ j t, ts[j]? = some t → t = t₀ + UInt64.ofNat j * iv)
    (hfit : t₀.toNat + (ts.length - 1) * iv.toNat < 2 ^ 64) : ts.Pairwise (· < ·) := by
  have hpos : 0 < iv.toNat := by
    rw [Nat.pos_iff_ne_zero]
    exact fun h => hiv (UInt64.toNat_inj.mp h)
  have htime : ∀ j (hj : j < ts.length), ts[j].toNat = t₀.toNat + j * iv.toNat := by
    intro j hj
    rw [hts j _ (List.getElem?_eq_getElem hj)]
    have hle : j * iv.toNat ≤ (ts.length - 1) * iv.toNat := Nat.mul_le_mul_right _ (by omega)
    have hj : j < 2 ^ 64 := by
      have := Nat.le_mul_of_pos_right j hpos
      omega
    rw [UInt64.toNat_add, UInt64.toNat_mul, UInt64.toNat_ofNat', Nat.mod_eq_of_lt hj,
      Nat.mod_eq_of_lt (a := j * iv.toNat) (by omega), Nat.mod_eq_of_lt (by omega)]
  rw [List.pairwise_iff_getElem]
  intro i j hi hj hij
  rw [UInt64.lt_iff_toNat_lt, htime i hi, htime j hj]
  have := Nat.mul_lt_mul_of_pos_right hij hpos
  omega

/-- **Time only goes forward.** Any number of clients with any ids; whatever is
lost, times out or starts over. The times a client's `on_tick` has been given
are among those broadcast, in their order, and each is greater than the one
before it, as long as the clock has not wrapped. -/
theorem ticks_increase {N : Int} {iv : UInt64} {s : Server} (hs : ServerReady N iv s)
    {acts : List (Act ι)} (he : Lts.exec (Net.step args) (Net.init ι s) acts = some σ) :
    (∀ c, (σ.ends c).run.ticks.Sublist σ.broadcasts) ∧
    (s.currentTimeNs.toNat + (σ.broadcasts.length - 1) * iv.toNat < 2 ^ 64 →
      ∀ c, (σ.ends c).run.ticks.Pairwise (· < ·)) := by
  have hsub : ∀ c, (σ.ends c).run.ticks.Sublist σ.broadcasts := fun c =>
    (List.sublist_append_left _ _).trans (ticks_sublist he c)
  refine ⟨hsub, fun hfit c => (pairwise_lt_of_spaced hs.spec.2.2.1 ?_ hfit).sublist (hsub c)⟩
  obtain ⟨cs, hcs, hpub⟩ := exists_server_calls he
  rw [← hpub]
  exact (clock_run hs.spec.2.1 hcs).times

/-- Two clients with one id, the second of which joins during the tick phase. -/
theorem ticks_increase_two_clients :
    let args : Fin 2 → ClientArgs := fun _ => .named [97] (by decide) (by decide)
    let acts : List (Act (Fin 2)) := join 0 ++ [.client 1 (.init .ok), .client 1 .subscribe,
      .broadcast fun _ => true, .client 1 .send, .request 1, .answer, .client 1 .reply,
      .client 1 .tick, .client 1 .send, .request 1, .answer, .broadcast fun _ => true,
      .client 1 .reply, .client 1 .tick]
    ∃ σ, Lts.exec (Net.step args) (Net.init (Fin 2) (.fresh 1 10)) acts = some σ ∧
      (σ.ends 1).run.ticks.Pairwise (· < ·) := by
  intro args acts
  obtain ⟨σ, h, hlen⟩ : ∃ σ,
      Lts.exec (Net.step args) (Net.init (Fin 2) (.fresh 1 10)) acts = some σ ∧
      (Server.fresh 1 10).currentTimeNs.toNat + (σ.broadcasts.length - 1) * (10 : UInt64).toNat <
        2 ^ 64 := Lts.exists_exec_of_any (by decide)
  exact ⟨σ, h, (ticks_increase (serverReady_fresh (by decide) (by decide) (by decide)) h).2 hlen 1⟩

end Simulith
