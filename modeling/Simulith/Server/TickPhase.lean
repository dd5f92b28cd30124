import Simulith.Server.Registry
import Simulith.Server.Tick
import Simulith.Server.TickSpec

/-!
# The tick phase refines a barrier

`TickRel` relates the barrier of `TickSpec` to the server's 32 slots, flag
counts and resets; `tickRel_step` is the simulation in both directions.
`tick_phase_refines` is the equality of the two systems' traces, and what the
specification says of them.
-/

namespace Simulith

open CStr

/-- The concrete calls of the abstract phases. -/
def TickPc.Matches : TickPc → ServerPc → Prop
  | .due, .broadcast => True
  | .waiting, .tickRecv => True
  | .answering, .tickSend => True
  | _, _ => False

structure TickRel (n : Nat) (σ : ServerRun) (a : TickSpec) : Prop where
  inv : ServerInv n σ
  well : Well σ
  pc : a.pc.Matches σ.pc
  members : a.barrier.members = σ.ids
  time : a.timeNs = σ.server.currentTimeNs
  interval : a.intervalNs = σ.server.tickIntervalNs
  flags : a.pc ≠ .due → ∀ x ∈ σ.ids, σ.server.HasResponded x ↔ x ∈ a.barrier.since

theorem Matches.cases {p : TickPc} {q : ServerPc} (h : p.Matches q) :
    (p = .due ∧ q = .broadcast) ∨ (p = .waiting ∧ q = .tickRecv) ∨
      (p = .answering ∧ q = .tickSend) := by
  cases p <;> cases q <;> simp_all [TickPc.Matches]

theorem TickRel.due_iff {n : Nat} {σ : ServerRun} {a : TickSpec} (h : TickRel n σ a) :
    σ.pc = .broadcast ↔ a.pc = .due := by
  rcases Matches.cases h.pc with ⟨e, e'⟩ | ⟨e, e'⟩ | ⟨e, e'⟩ <;> simp [e, e']

theorem TickRel.owes_iff {n : Nat} {σ : ServerRun} {a : TickSpec} (h : TickRel n σ a) :
    σ.owes = true ↔ a.pc = .answering := by
  rw [h.well.owes]
  rcases Matches.cases h.pc with ⟨e, e'⟩ | ⟨e, e'⟩ | ⟨e, e'⟩ <;> simp [e, e', ServerPc.Sending]

theorem TickRel.responded_iff {n : Nat} {σ : ServerRun} {a : TickSpec} (h : TickRel n σ a)
    (hp : a.pc ≠ .due) : σ.server.allClientsResponded = true ↔ a.barrier.Complete := by
  have htick : σ.pc.InTick := by
    rcases Matches.cases h.pc with ⟨-, e⟩ | ⟨-, e⟩ | ⟨-, e⟩ <;> rw [e] <;> trivial
  rw [Server.allClientsResponded_iff h.inv.registered (h.inv.full_length htick),
    Barrier.complete_congr (P := σ.server.HasResponded), h.members]
  rw [h.members]
  exact h.flags hp

theorem tickRel_publish {n : Nat} {σ : ServerRun} {a : TickSpec} (h : TickRel n σ a)
    (hpc : σ.pc = .broadcast) :
    TickRel n { σ with server := σ.server.resetResponses }.tickHead
      { a with barrier := a.barrier.reset, pc := .waiting } := by
  have hstep : σ.step (.publish σ.server.currentTimeNs) =
      some { σ with server := σ.server.resetResponses }.tickHead := step_eq_some.mpr (.publish hpc)
  obtain ⟨-, hids, hflags, e⟩ := publish_spec h.inv hstep
  have hinv := serverInv_step h.inv hstep
  have hwell := (well_step h.well (fun _ e => by cases e) hstep).1
  rw [e] at hids hflags hinv hwell ⊢
  exact
    { inv := hinv, well := hwell, pc := trivial
      members := h.members.trans hids.symm
      time := h.time, interval := h.interval
      flags := fun _ x _ => iff_of_false (hflags x) List.not_mem_nil }

theorem tickRel_recv {n : Nat} {σ : ServerRun} {a : TickSpec} (h : TickRel n σ a)
    (hpc : σ.pc = .tickRecv) (ha : a.pc = .waiting) {m : Msg} (hm : Fits m) :
    TickRel n (σ.tickReceived m)
      { a with barrier := a.barrier.arrive (str m), pc := .answering } := by
  have ho : σ.owes = false := h.well.not_owes (.inr (.inl hpc))
  have hstep : σ.step (.recv m) = some (σ.tickReceived m) := step_eq_some.mpr (.tickRecv m hpc ho)
  have hinv := serverInv_step h.inv hstep
  have hwell := (well_step h.well (fun m' e => by cases e; exact hm) hstep).1
  obtain ⟨-, -, hids, hflags⟩ := tickRecv_spec h.inv (by rw [hpc]; trivial) hm hstep
  obtain ⟨b, -, e⟩ := tickReceived_fits σ hm
  rw [e] at hids hflags hinv hwell ⊢
  refine
    { inv := hinv, well := hwell, pc := trivial
      members := h.members.trans hids.symm
      time := h.time.trans (Server.currentTimeNs_handleAck _).symm
      interval := h.interval.trans (Server.tickIntervalNs_handleAck _).symm
      flags := fun _ x hx => ?_ }
  rw [hids] at hx
  rw [hflags x hx, h.flags (by simp [ha]) x hx, Barrier.mem_since_arrive]

theorem tickRel_send {n : Nat} {σ : ServerRun} {a : TickSpec} (h : TickRel n σ a)
    (hpc : σ.pc = .tickSend) (ha : a.pc = .answering) :
    TickRel n { σ with owes := false }.tickHead
      (if a.barrier.Complete then { a with timeNs := a.timeNs + a.intervalNs, pc := .due }
        else { a with pc := .waiting }) := by
  have hstep : σ.step (.send Reply.ack.bytes) = some { σ with owes := false }.tickHead :=
    step_eq_some.mpr (.tickSend hpc)
  have hinv := serverInv_step h.inv hstep
  have hwell := (well_step h.well (fun _ e => by cases e) hstep).1
  have hne : a.pc ≠ .due := by rw [ha]; exact nofun
  have hiff := h.responded_iff hne
  by_cases hc : a.barrier.Complete
  · simp only [ServerRun.tickHead, hiff.mpr hc, if_true, hc] at hinv hwell ⊢
    exact
      { inv := hinv, well := hwell, pc := trivial, members := h.members
        time := by simp only [h.time, h.interval]
        interval := h.interval
        flags := fun hp => absurd rfl hp }
  · have hf : ¬ σ.server.allClientsResponded = true := fun hr => hc (hiff.mp hr)
    simp only [ServerRun.tickHead, if_neg hf, if_neg hc] at hinv hwell ⊢
    exact
      { inv := hinv, well := hwell, pc := trivial, members := h.members
        time := h.time, interval := h.interval, flags := fun _ => h.flags hne }

/-- **One call**: the two systems allow the same calls and stay related. -/
theorem tickRel_step {n : Nat} {σ : ServerRun} {a : TickSpec} {c : ServerCall}
    (h : TickRel n σ a) (hm : ∀ m, c = .recv m → Fits m) :
    (σ.step c = none ∧ a.step c = none) ∨
    ∃ σ' a', σ.step c = some σ' ∧ a.step c = some a' ∧ TickRel n σ' a' := by
  rcases Matches.cases h.pc with ⟨ha, hpc⟩ | ⟨ha, hpc⟩ | ⟨ha, hpc⟩
  · cases c with
    | publish t =>
      by_cases ht : t = σ.server.currentTimeNs
      · refine .inr ⟨_, _, ?_, ?_, tickRel_publish h hpc⟩
        · rw [ht]; exact step_eq_some.mpr (.publish hpc)
        · simp [TickSpec.step, ha, ht, h.time]
      · exact .inl ⟨by simp [ServerRun.step, hpc, ht], by simp [TickSpec.step, ha, h.time, ht]⟩
    | _ => exact .inl ⟨by simp [ServerRun.step, hpc], by simp [TickSpec.step, ha]⟩
  · have ho : σ.owes = false := h.well.not_owes (.inr (.inl hpc))
    cases c with
    | recv m =>
      refine .inr ⟨_, _, step_eq_some.mpr (.tickRecv m hpc ho), ?_,
        tickRel_recv h hpc ha (hm m rfl)⟩
      simp [TickSpec.step, ha]
    | recvFail =>
      exact .inr ⟨σ, a, step_eq_some.mpr (.fail (.inr hpc)), by simp [TickSpec.step, ha], h⟩
    | _ => exact .inl ⟨by simp [ServerRun.step, hpc], by simp [TickSpec.step, ha]⟩
  · cases c with
    | send m =>
      by_cases hr : m = Reply.ack.bytes
      · refine .inr ⟨_, _, ?_, ?_, tickRel_send h hpc ha⟩
        · rw [hr]; exact step_eq_some.mpr (.tickSend hpc)
        · simp only [TickSpec.step, ha, hr, and_self, if_true]
          split <;> rfl
      · exact .inl ⟨by simp [ServerRun.step, hpc, hr], by simp [TickSpec.step, hr]⟩
    | _ => exact .inl ⟨by simp [ServerRun.step, hpc], by simp [TickSpec.step, ha]⟩

/-- **The tick phase refines the barrier**: after any handshake phase, whatever
the peers send, the server makes the calls the specification makes, no others.
So every message is answered ACK, the `i`-th broadcast carries the first time
plus `i` intervals, and between two messages a broadcast is next exactly when
every registered id has been matched since the last one. -/
theorem tick_phase_refines {n : Int} {iv : UInt64} {s : Server} (hs : ServerReady n iv s)
    {hcs cs : List ServerCall} {σ : ServerRun}
    (hh : Lts.exec ServerRun.step (simulithServerRun s) hcs = some σ) (hp : publishes hcs = [])
    (hpc : σ.pc = .broadcast) (hm : ∀ m ∈ requests cs, Fits m) :
    ((Lts.exec ServerRun.step σ cs).isSome ↔
      (Lts.exec TickSpec.step (.start σ.ids s.currentTimeNs iv) cs).isSome) ∧
    ∀ σ', Lts.exec ServerRun.step σ cs = some σ' →
      (∀ i t, (publishes cs)[i]? = some t → t = s.currentTimeNs + UInt64.ofNat i * iv) ∧
      (σ'.owes = true → ∀ c, (σ'.step c).isSome ↔ c = .send Reply.ack.bytes) ∧
      (σ'.owes = false → publishes cs ≠ [] →
        (σ'.pc = .broadcast ↔ ∀ x ∈ σ.ids, ∃ m ∈ arrivals cs, str m = x)) := by
  have hfit := fits_of_broadcast hh hpc
  have hearly := early_run hs hfit hp hh
  have hinv := serverInv_exec (serverInv_init hs) hh
  have hrel : TickRel s.expectedClients σ (.start σ.ids s.currentTimeNs iv) :=
    { inv := hinv
      well := (well_exec (well_init s) hfit hh).1
      pc := by rw [hpc]; trivial
      members := rfl, time := hearly.time.symm, interval := hearly.interval.symm
      flags := fun h => absurd rfl h }
  rcases Lts.exec_related (R := TickRel s.expectedClients)
    (Q := fun c : ServerCall => ∀ m, c = .recv m → Fits m)
    (fun _ _ c hr hq => tickRel_step (c := c) hr hq) hrel
    (fun c hc m e => hm m (mem_requests.mpr (e ▸ hc))) with ⟨h1, h2⟩ | ⟨τ, a, h1, h2, hr⟩
  · exact ⟨by rw [h1, h2]; exact Iff.rfl, fun σ' h => by rw [h1] at h; cases h⟩
  refine ⟨by rw [h1, h2]; exact iff_of_true rfl rfl, fun σ' h => ?_⟩
  obtain rfl : τ = σ' := Option.some.inj (h1.symm.trans h)
  have hne : σ.ids ≠ [] := by
    intro h0
    have hlen := hinv.full_length (by rw [hpc]; trivial)
    have := hinv.pos
    rw [h0, hinv.expected, List.length_nil] at hlen
    omega
  have hhist := TickSpec.history_exec hne h2
  refine ⟨hhist.times, fun ho c => ?_, fun ho hpub => ?_⟩
  · rcases Matches.cases hr.pc with ⟨e, -⟩ | ⟨e, -⟩ | ⟨-, e⟩
    · rw [hr.owes_iff.mp ho] at e; cases e
    · rw [hr.owes_iff.mp ho] at e; cases e
    · cases c <;> simp [ServerRun.step, e, ho]
  · rw [hr.due_iff, hhist.due_iff (by simp [← hr.owes_iff, ho]) hpub]

/-- An unknown ack, then the one the barrier waits for. -/
theorem tick_phase_refines_one_client :
    let cs : List ServerCall := [.publish 0, .recv [98], .send Reply.ack.bytes, .recv [97],
      .send Reply.ack.bytes, .publish 10]
    ∃ σ, Lts.exec ServerRun.step (simulithServerRun (.fresh 1 10))
        [.recv (readyWord ++ [space, 97]), .send Reply.ack.bytes] = some σ ∧
      ((Lts.exec ServerRun.step σ cs).isSome ↔
        (Lts.exec TickSpec.step (.start σ.ids 0 10) cs).isSome) :=
  have ⟨σ, h, hpc⟩ := Lts.exists_exec_of_any (Q := fun σ : ServerRun => σ.pc = .broadcast)
    (by decide)
  ⟨σ, h, (tick_phase_refines (serverReady_fresh (by decide) (by decide) (by decide)) h rfl hpc
    (by decide)).1⟩

end Simulith
