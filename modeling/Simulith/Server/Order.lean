import Simulith.Server.TickPhase

/-!
# The order of registration

The ids a handshake phase registers are those its messages carry
(`mem_ids_iff`), in the order they came in, which decides their slots. Nothing
that follows depends on it: `registration_order_immaterial` compares two servers
by way of `TickSpec`, whose barrier does not tell such tables apart.
-/

namespace Simulith

open CStr

/-! ## The ids of a handshake phase -/

theorem mem_ids_of_recv {n : Nat} {σ σ' : ServerRun} {m : Msg} {x : List UInt8}
    (hi : ServerInv n σ) (hpc : σ.pc = .handshakeRecv) (hm : Fits m)
    (hx : handshakeId m = some x) (hne : x ≠ []) (hs : σ.step (.recv m) = some σ') :
    x ∈ σ'.ids := by
  have h0 : m.length ≠ 0 := by have := hm.1; omega
  cases step_eq_some.mp hs with
  | tickRecv _ hp _ => rw [hpc] at hp; cases hp
  | handshakeRecv _ _ _ =>
    rcases handshakeReceived_cases hi.registered (hi.room hpc) h0 (Nat.lt_succ_of_le hm.2) with
      ⟨hn, -⟩ | ⟨y, hy, hy', e⟩ | ⟨y, cid, hy', -, -, -, e, hreg⟩
    · rw [hx] at hn
      rcases hn with hn | hn
      · cases hn
      · exact absurd (Option.some.inj hn) hne
    · rw [hx] at hy'
      rw [e, Option.some.inj hy']
      exact hy
    · rw [hx] at hy'
      rw [ServerRun.ids, e, Option.some.inj hy']
      exact hreg.ids_eq ▸ List.mem_append_right _ (List.mem_singleton_self _)

/-- When the handshake phase has ended: the ids in the table are those that messages carried. -/
theorem mem_ids_iff {n : Int} {iv : UInt64} {s : Server} (hs : ServerReady n iv s)
    {cs : List ServerCall} {σ : ServerRun}
    (he : Lts.exec ServerRun.step (simulithServerRun s) cs = some σ) (hp : publishes cs = [])
    (hpc : σ.pc = .broadcast) (x : List UInt8) :
    x ∈ σ.ids ↔ x ≠ [] ∧ ∃ m ∈ requests cs, handshakeId m = some x := by
  have hfit := fits_of_broadcast he hpc
  have hinv := serverInv_init hs
  constructor
  · intro hx
    refine ⟨?_, ?_⟩
    · rintro rfl
      exact (serverInv_exec hinv he).registered.ne hx
    · obtain ⟨pre, m, post, τ, rfl, -, hr⟩ :=
        ids_parsed hinv (ids_simulithServerRun hs) hfit he x hx
      exact ⟨m, mem_requests.mpr (by simp), hr.parsed⟩
  · rintro ⟨hne, m, hm, hx⟩
    obtain ⟨pre, post, τ, τ', rfl, hτ, hstep, hpost⟩ := Lts.exec_mem he (mem_requests.mp hm)
    have hpre : publishes pre = [] := by
      rw [publishes, List.filterMap_append] at hp
      exact List.append_eq_nil_iff.mp hp |>.1
    have hfit' : ∀ m ∈ requests pre, Fits m := fun m hm =>
      hfit m (mem_requests.mpr (List.mem_append_left _ (mem_requests.mp hm)))
    have hearly := early_run hs hfit' hpre hτ
    have hrecv : τ.pc = .handshakeRecv := by
      cases step_eq_some.mp hstep with
      | handshakeRecv _ h _ => exact h
      | tickRecv _ h _ => rcases hearly.pc with h' | h' <;> rw [h] at h' <;> cases h'
    have hinv' := serverInv_exec hinv hτ
    have hmem := mem_ids_of_recv hinv' hrecv (hfit m hm) hx hne hstep
    exact (ids_exec (serverInv_step hinv' hstep) hpost).subset hmem

/-! ## Barriers with the same members -/

namespace TickSpec

/-- The members may be listed in another order. -/
structure Same (a b : TickSpec) : Prop where
  members : ∀ x, x ∈ a.barrier.members ↔ x ∈ b.barrier.members
  since : a.barrier.since = b.barrier.since
  time : a.timeNs = b.timeNs
  interval : a.intervalNs = b.intervalNs
  pc : a.pc = b.pc

theorem Same.complete_iff {a b : TickSpec} (h : a.Same b) :
    a.barrier.Complete ↔ b.barrier.Complete := by
  unfold Barrier.Complete
  rw [h.since]
  exact forall_congr' fun x => imp_congr_left (h.members x)

theorem Same.step {a b : TickSpec} (h : a.Same b) (c : ServerCall) :
    (a.step c = none ∧ b.step c = none) ∨
    ∃ a' b', a.step c = some a' ∧ b.step c = some b' ∧ a'.Same b' := by
  cases c with
  | publish t =>
    by_cases hp : a.pc = .due ∧ t = a.timeNs
    · exact .inr ⟨_, _, if_pos hp, if_pos (by rwa [← h.pc, ← h.time]),
        ⟨h.members, rfl, h.time, h.interval, rfl⟩⟩
    · exact .inl ⟨if_neg hp, if_neg (by rwa [← h.pc, ← h.time])⟩
  | recv m =>
    by_cases hp : a.pc = .waiting
    · refine .inr ⟨_, _, if_pos hp, if_pos (h.pc ▸ hp),
        ⟨h.members, ?_, h.time, h.interval, rfl⟩⟩
      simp only [Barrier.arrive, h.since]
    · exact .inl ⟨if_neg hp, if_neg (h.pc ▸ hp)⟩
  | recvFail =>
    by_cases hp : a.pc = .waiting
    · exact .inr ⟨_, _, if_pos hp, if_pos (h.pc ▸ hp), h⟩
    · exact .inl ⟨if_neg hp, if_neg (h.pc ▸ hp)⟩
  | send m =>
    by_cases hp : a.pc = .answering ∧ m = Reply.ack.bytes
    · have hp' : b.pc = .answering ∧ m = Reply.ack.bytes := by rwa [← h.pc]
      simp only [TickSpec.step, if_pos hp, if_pos hp']
      by_cases hc : a.barrier.Complete
      · rw [if_pos hc, if_pos (h.complete_iff.mp hc)]
        exact .inr ⟨_, _, rfl, rfl, h.members, h.since, by rw [h.time, h.interval], h.interval, rfl⟩
      · rw [if_neg hc, if_neg (mt h.complete_iff.mpr hc)]
        exact .inr ⟨_, _, rfl, rfl, h.members, h.since, h.time, h.interval, rfl⟩
    · exact .inl ⟨if_neg hp, if_neg (by rwa [← h.pc])⟩

end TickSpec

/-! ## Servers with the same members -/

/-- The two servers differ in the order of their tables, or are stuck alike. -/
inductive Twins (n : Nat) (σ τ : ServerRun) : Prop where
  | live (a b : TickSpec) : TickRel n σ a → TickRel n τ b → a.Same b → Twins n σ τ
  | wedged : σ.pc = .tickRecv ∧ σ.owes = true → τ.pc = .tickRecv ∧ τ.owes = true → Twins n σ τ
  | undefined : σ.pc = .undefined → τ.pc = .undefined → Twins n σ τ

theorem TickRel.recv_waiting {n : Nat} {σ : ServerRun} {a : TickSpec} (h : TickRel n σ a)
    (ha : a.pc = .waiting) (m : Msg) :
    σ.pc = .tickRecv ∧ σ.step (.recv m) = some (σ.tickReceived m) := by
  rcases Matches.cases h.pc with ⟨e, -⟩ | ⟨-, hpc⟩ | ⟨e, -⟩
  · rw [ha] at e; cases e
  · exact ⟨hpc, step_eq_some.mpr (.tickRecv m hpc (h.well.not_owes (.inr (.inl hpc))))⟩
  · rw [ha] at e; cases e

theorem TickRel.recv_none {n : Nat} {σ : ServerRun} {a : TickSpec} (h : TickRel n σ a)
    (ha : a.pc ≠ .waiting) (m : Msg) : σ.step (.recv m) = none := by
  rcases Matches.cases h.pc with ⟨-, hpc⟩ | ⟨e, -⟩ | ⟨-, hpc⟩
  · simp [ServerRun.step, hpc]
  · exact absurd e ha
  · simp [ServerRun.step, hpc]

theorem twins_misfit {n : Nat} {σ τ : ServerRun} {a b : TickSpec} {m : Msg} (hσ : TickRel n σ a)
    (hτ : TickRel n τ b) (hab : a.Same b) (hm : ¬ Fits m) :
    (σ.step (.recv m) = none ∧ τ.step (.recv m) = none) ∨
    ∃ σ' τ', σ.step (.recv m) = some σ' ∧ τ.step (.recv m) = some τ' ∧ Twins n σ' τ' := by
  by_cases ha : a.pc = .waiting
  · obtain ⟨hpc, hs⟩ := hσ.recv_waiting ha m
    obtain ⟨hpc', hs'⟩ := hτ.recv_waiting (hab.pc ▸ ha) m
    refine .inr ⟨_, _, hs, hs', ?_⟩
    by_cases h0 : m.length = 0
    · rw [ServerRun.tickReceived, if_pos h0, ServerRun.tickReceived, if_pos h0]
      exact .wedged ⟨hpc, rfl⟩ ⟨hpc', rfl⟩
    · have hlong : ∀ {υ υ' : ServerRun}, υ.step (.recv m) = some υ' → υ'.pc = .undefined :=
        fun h => ((misfit_step h hm).resolve_left fun hc => h0 hc.1).2
      exact .undefined (hlong hs) (hlong hs')
  · exact .inl ⟨hσ.recv_none ha m, hτ.recv_none (hab.pc ▸ ha) m⟩

theorem tickRel_start {n : Int} {iv : UInt64} {s : Server} (hs : ServerReady n iv s)
    {cs : List ServerCall} {σ : ServerRun}
    (he : Lts.exec ServerRun.step (simulithServerRun s) cs = some σ) (hp : publishes cs = [])
    (hpc : σ.pc = .broadcast) :
    TickRel s.expectedClients σ (.start σ.ids s.currentTimeNs iv) := by
  have hfit := fits_of_broadcast he hpc
  have hearly := early_run hs hfit hp he
  exact
    { inv := serverInv_exec (serverInv_init hs) he
      well := (well_exec (well_init s) hfit he).1
      pc := by rw [hpc]; trivial
      members := rfl, time := hearly.time.symm, interval := hearly.interval.symm
      flags := fun h => absurd rfl h }

/-- **One call**: twins make the same calls and stay twins. -/
theorem Twins.step {n : Nat} {σ τ : ServerRun} (h : Twins n σ τ) (c : ServerCall) :
    (σ.step c = none ∧ τ.step c = none) ∨
    ∃ σ' τ', σ.step c = some σ' ∧ τ.step c = some τ' ∧ Twins n σ' τ' := by
  cases h with
  | live a b hσ hτ hab =>
    by_cases hc : ∃ m, c = .recv m ∧ ¬ Fits m
    · obtain ⟨m, rfl, hm⟩ := hc
      exact twins_misfit hσ hτ hab hm
    have hfit : ∀ m, c = .recv m → Fits m := fun m e => by_contra fun hm => hc ⟨m, e, hm⟩
    have hnone : ∀ {υ d}, TickRel n υ d → d.step c = none → υ.step c = none := by
      intro υ d hr hd
      rcases tickRel_step hr hfit with ⟨h, -⟩ | ⟨_, _, -, h, -⟩
      · exact h
      · rw [hd] at h
        cases h
    have hsome : ∀ {υ d d'}, TickRel n υ d → d.step c = some d' →
        ∃ υ', υ.step c = some υ' ∧ TickRel n υ' d' := by
      intro υ d d' hr hd
      rcases tickRel_step hr hfit with ⟨-, h⟩ | ⟨υ', d'', hυ, h, hr'⟩
      · rw [hd] at h
        cases h
      · rw [hd] at h
        exact ⟨υ', hυ, Option.some.inj h ▸ hr'⟩
    rcases hab.step c with ⟨ha, hb⟩ | ⟨a', b', ha, hb, hab'⟩
    · exact .inl ⟨hnone hσ ha, hnone hτ hb⟩
    · obtain ⟨σ', hs, hσ'⟩ := hsome hσ ha
      obtain ⟨τ', ht, hτ'⟩ := hsome hτ hb
      exact .inr ⟨σ', τ', hs, ht, .live a' b' hσ' hτ' hab'⟩
  | wedged hσ hτ =>
    cases c with
    | recvFail =>
      exact .inr ⟨σ, τ, by simp [ServerRun.step, hσ.1], by simp [ServerRun.step, hτ.1],
        .wedged hσ hτ⟩
    | _ => exact .inl ⟨by simp [ServerRun.step, hσ], by simp [ServerRun.step, hτ]⟩
  | undefined hσ hτ => exact .inl ⟨step_undefined hσ c, step_undefined hτ c⟩

/-- **The order of registration does not matter.** Two servers, initialised alike
and at the same time, that have come to their first broadcast: if the READY
messages they have received carry the same ids, in whatever order and whatever
else came between, then they make the same calls from then on, whatever the peers
send. -/
theorem registration_order_immaterial {n : Int} {iv : UInt64} {s t : Server}
    (hs : ServerReady n iv s) (ht : ServerReady n iv t) (hclock : s.currentTimeNs = t.currentTimeNs)
    {hcs hct : List ServerCall} {σ τ : ServerRun}
    (hσ : Lts.exec ServerRun.step (simulithServerRun s) hcs = some σ)
    (hτ : Lts.exec ServerRun.step (simulithServerRun t) hct = some τ)
    (hp : publishes hcs = [] ∧ publishes hct = [])
    (hpc : σ.pc = .broadcast ∧ τ.pc = .broadcast)
    (hids : ∀ x ≠ [], (∃ m ∈ requests hcs, handshakeId m = some x) ↔
      ∃ m ∈ requests hct, handshakeId m = some x) (cs : List ServerCall) :
    (Lts.exec ServerRun.step σ cs).isSome ↔ (Lts.exec ServerRun.step τ cs).isSome := by
  have hsame : s.expectedClients = t.expectedClients := by
    have := hs.spec.1.2.2
    have := ht.spec.1.2.2
    omega
  have hrel' : TickRel s.expectedClients τ (.start τ.ids t.currentTimeNs iv) :=
    hsame ▸ tickRel_start ht hτ hp.2 hpc.2
  have htwins : Twins s.expectedClients σ τ := by
    refine .live _ _ (tickRel_start hs hσ hp.1 hpc.1) hrel' ⟨fun x => ?_, rfl, hclock, rfl, rfl⟩
    show x ∈ σ.ids ↔ x ∈ τ.ids
    rw [mem_ids_iff hs hσ hp.1 hpc.1, mem_ids_iff ht hτ hp.2 hpc.2]
    exact and_congr_right fun hne => hids x hne
  rcases Lts.exec_related (Q := fun _ => True) (fun _ _ c h _ => h.step c) htwins
    (fun c (_ : c ∈ cs) => trivial) with ⟨h1, h2⟩ | ⟨σ', τ', h1, h2, -⟩
  · rw [h1, h2]
  · rw [h1, h2]
    exact Iff.rfl

/-- Two clients in either order, with a message between them that is no READY. -/
theorem registration_order_immaterial_two_clients :
    let a : Msg := readyWord ++ [space, 97]
    let b : Msg := readyWord ++ [space, 98]
    ∃ σ τ, Lts.exec ServerRun.step (simulithServerRun (.fresh 2 10))
        [.recv a, .send Reply.ack.bytes, .recv b, .send Reply.ack.bytes] = some σ ∧
      Lts.exec ServerRun.step (simulithServerRun (.fresh 2 10)) [.recv b, .send Reply.ack.bytes,
        .recv [97], .send Reply.err.bytes, .recv a, .send Reply.ack.bytes] = some τ ∧
      σ.ids ≠ τ.ids ∧
      ∀ cs, (Lts.exec ServerRun.step σ cs).isSome ↔ (Lts.exec ServerRun.step τ cs).isSome := by
  intro a b
  obtain ⟨σ, hσ, hpc, hi⟩ : ∃ σ, Lts.exec ServerRun.step (simulithServerRun (.fresh 2 10))
      [.recv a, .send Reply.ack.bytes, .recv b, .send Reply.ack.bytes] = some σ ∧
      σ.pc = .broadcast ∧ σ.ids = [[97], [98]] := Lts.exists_exec_of_any (by decide)
  obtain ⟨τ, hτ, hpc', hi'⟩ : ∃ τ, Lts.exec ServerRun.step (simulithServerRun (.fresh 2 10))
      [.recv b, .send Reply.ack.bytes, .recv [97], .send Reply.err.bytes, .recv a,
        .send Reply.ack.bytes] = some τ ∧ τ.pc = .broadcast ∧ τ.ids = [[98], [97]] :=
    Lts.exists_exec_of_any (by decide)
  have hr : ServerReady 2 10 (.fresh 2 10) := serverReady_fresh (by decide) (by decide) (by decide)
  refine ⟨σ, τ, hσ, hτ, by rw [hi, hi']; decide, registration_order_immaterial hr hr rfl hσ hτ
    ⟨rfl, rfl⟩ ⟨hpc, hpc'⟩ fun x _ => ?_⟩
  have ha : handshakeId a = some [97] := by decide
  have hb : handshakeId b = some [98] := by decide
  have hj : handshakeId [97] = none := by decide
  simp [requests, ServerCall.request, ha, hb, hj, or_comm]

end Simulith
