import Simulith.Net.Lockstep

/-!
# The members of the tick phase

There may be more clients than the server waits for: its members are those it
has registered. The ids are distinct, of at most 57 bytes, and none is the
READY of another client (`Unambiguous`), so that a request is booked on the
client it comes from or on nobody (`Leading.request_flags`). The members are
then in lockstep whatever the other clients do.
-/

namespace Simulith

/-- Ids that name one client each, in a READY as in an ack. -/
structure Unambiguous {ι : Type*} (args : ι → ClientArgs) : Prop where
  short : ∀ c, (args c).id.length ≤ 57
  distinct : ∀ c c', (args c).id = (args c').id → c = c'
  apart : ∀ c c', (args c).id ≠ readyWord ++ space :: (args c').id

variable {ι : Type*} {args : ι → ClientArgs} {σ σ' : Net ι} {a : Act ι} {n : Nat}

theorem str_underway (hw : Wired args σ) (hlen : ∀ c, (args c).id.length ≤ 57) {c : ι} {m : Msg}
    (hm : (σ.ends c).requester = .sent m) :
    ((σ.ends c).run.pc = .ackWait ∧ CStr.str m = (args c).id) ∨
    ((σ.ends c).run.pc ≠ .ackWait ∧ CStr.str m = readyWord ++ space :: (args c).id) := by
  rcases (hw.ends c).sent hm with ⟨hp, rfl⟩ | ⟨hp, rfl⟩
  · have hname : (σ.ends c).run.client.name = (args c).id := by
      have := hlen c
      rw [hw.named c (by rcases hp with hp | hp <;> simp [hp]), List.take_of_length_le (by omega)]
    refine .inr ⟨by rcases hp with hp | hp <;> simp [hp], ?_⟩
    rw [Client.readyMsg_eq, hname]
    refine CStr.str_eq_self fun h0 => ?_
    rcases List.mem_append.mp h0 with h0 | h0
    · revert h0; decide
    · rcases List.mem_cons.mp h0 with h0 | h0
      · cases h0
      · exact (args c).id_cstr h0
  · exact .inl ⟨hp, by rw [ackMsg_eq_id hw hlen hp, CStr.str_eq_self (args c).id_cstr]⟩

theorem Unambiguous.id_eq_str_iff (hu : Unambiguous args) (hw : Wired args σ) {c c' : ι} {m : Msg}
    (hm : (σ.ends c).requester = .sent m) :
    (args c').id = CStr.str m ↔ c' = c ∧ (σ.ends c).run.pc = .ackWait := by
  rcases str_underway hw hu.short hm with ⟨hp, e⟩ | ⟨hp, e⟩
  · rw [e]
    exact ⟨fun h => ⟨hu.distinct _ _ h, hp⟩, fun h => by rw [h.1]⟩
  · rw [e]
    exact ⟨fun h => absurd h (hu.apart _ _), fun h => absurd h.2 hp⟩

/-- The net from the first broadcast on, as far as the members go. -/
structure Leading (args : ι → ClientArgs) (σ : Net ι) : Prop where
  tick : σ.server.pc.InTick
  owner : ∀ x ∈ σ.server.ids, ∃ c, (args c).id = x
  due : σ.server.pc = .broadcast → ∀ x ∈ σ.server.ids, σ.server.server.HasResponded x
  placed : ∀ c, (args c).id ∈ σ.server.ids →
    (σ.ends c).Placed (args c) False σ.broadcasts (σ.server.server.HasResponded (args c).id)

theorem Leading.ready (h : Leading args σ) (hst : Steady args n σ)
    (hpc : σ.server.pc = .broadcast) {c : ι} (hc : (args c).id ∈ σ.server.ids) :
    (σ.ends c).Resting ∧ (σ.ends c).UpToDate (args c) σ.broadcasts := by
  rcases h.placed c hc with ⟨hr, -⟩ | ⟨-, hs⟩
  · exact absurd (h.due hpc _ hc) hr
  · exact ⟨hs.resting (hst.not_held hpc c), hs.upToDate⟩

theorem Gathering.members_ready (h : Gathering args σ) (hu : Unambiguous args)
    (hst : Steady args n σ) (hpc : σ.server.pc = .broadcast) {c : ι}
    (hc : (args c).id ∈ σ.server.ids) :
    (σ.ends c).Resting ∧ (σ.ends c).UpToDate (args c) σ.broadcasts := by
  obtain ⟨c', hc', hen⟩ := h.owner _ hc
  obtain rfl := hu.distinct _ _ hc'
  have hs := h.silent c'
  refine ⟨hen.resting (hst.wired.ends c') hs (hst.not_held hpc c'), hs.feed, fun _ => ?_⟩
  rw [hs.ticks, h.none]

theorem Leading.request_flags (h : Leading args σ) (hu : Unambiguous args) (hst : Steady args n σ)
    {c c' : ι} {m : Msg} {τ : ServerRun} (hm : (σ.ends c).requester = .sent m)
    (hs : σ.server.step (.recv m) = some τ) (hc' : (args c').id ∈ σ.server.ids) :
    τ.server.HasResponded (args c').id ↔
      σ.server.server.HasResponded (args c').id ∨ c' = c := by
  obtain ⟨-, -, -, hflags⟩ := tickRecv_spec hst.inv h.tick (hst.wired.fits hu.short hm) hs
  rw [hflags _ hc', hu.id_eq_str_iff hst.wired hm]
  refine or_congr_right ⟨And.left, ?_⟩
  rintro rfl
  exact ⟨rfl, ((h.placed c' hc').acking hm).1⟩

variable [DecidableEq ι]

theorem leading_broadcast {heard : ι → Bool} (hst : Steady args n σ)
    (hs : NetStep args σ (.broadcast heard) σ') (howner : ∀ x ∈ σ.server.ids, ∃ c, (args c).id = x)
    (hready : ∀ c, (args c).id ∈ σ.server.ids →
      (σ.ends c).Resting ∧ (σ.ends c).UpToDate (args c) σ.broadcasts) : Leading args σ' := by
  cases hs with
  | broadcast _ τ hs =>
    obtain ⟨-, hids, hflags, e⟩ := publish_spec hst.inv hs
    have hpc : τ.pc = .tickRecv := by rw [e]
    exact
      { tick := by rw [hpc]; trivial
        owner := fun x hx => howner x (hids ▸ hx)
        due := fun hp => by rw [hpc] at hp; cases hp
        placed := fun c hc =>
          have hc := hready c (hids ▸ hc)
          .inl ⟨hflags _, .inl (ClientEnd.lagging_deliver hc.1 hc.2 False.elim)⟩ }

/-- **One step** of the tick phase, whatever the clients do that are not registered. -/
theorem Leading.step (h : Leading args σ) (hu : Unambiguous args) (hst : Steady args n σ)
    (ha : a.Once) (hs : NetStep args σ a σ') : Leading args σ' := by
  cases hs with
  | client c b e he =>
    refine { h with placed := ?_ }
    exact Net.forall_setEnd (p := fun c e => (args c).id ∈ σ.server.ids →
      e.Placed (args c) False σ.broadcasts (σ.server.server.HasResponded (args c).id))
      (fun hc => (h.placed c hc).endStep (by rintro rfl; exact ha) he) fun c' _ => h.placed c'
  | request c m τ hm hs =>
    obtain ⟨-, hpc, hids, -⟩ := tickRecv_spec hst.inv h.tick (hst.wired.fits hu.short hm) hs
    refine
      { tick := by rw [hpc]; trivial
        owner := fun x hx => h.owner x (hids ▸ hx)
        due := fun hp => by rw [hpc] at hp; cases hp
        placed := ?_ }
    refine Net.forall_setEnd (p := fun c e => (args c).id ∈ τ.ids →
      e.Placed (args c) False σ.broadcasts (τ.server.HasResponded (args c).id))
      (fun hc => ?_) fun c' hne hc' => ?_
    · rw [hids] at hc
      obtain ⟨hp, hup⟩ := (h.placed c hc).acking hm
      exact .inr ⟨(h.request_flags hu hst hm hs hc).mpr (.inr rfl), ⟨hup.feed, hup.ticks⟩,
        .inr ⟨hp, .inl rfl⟩⟩
    · rw [hids] at hc'
      have := h.placed c' hc'
      simpa only [ClientEnd.Placed, h.request_flags hu hst hm hs hc', hne, or_false] using this
  | requestStale k m τ hm hs =>
    rw [hst.stale] at hm
    cases hm
  | answer m τ hm hs =>
    obtain ⟨-, hids, hflags, hpc⟩ := tickSend_spec hst.inv h.tick hs
    refine
      { tick := by rcases hpc with hpc | ⟨hpc, -⟩ <;> rw [hpc] <;> trivial
        owner := fun x hx => h.owner x (hids ▸ hx)
        due := fun hp x hx => ?_
        placed := fun c hc => ?_ }
    · rcases hpc with hpc | ⟨-, hall⟩
      · rw [hpc] at hp; cases hp
      · exact (hflags _).mpr (hall x (hids ▸ hx))
    · have := (h.placed c (hids ▸ hc)).answer m
      simpa only [ClientEnd.Placed, hflags] using this
  | broadcast heard τ hs =>
    have hpc := (pc_publish hs).1
    exact leading_broadcast hst (.broadcast heard τ hs) h.owner fun c hc => h.ready hst hpc hc

theorem gathering_or_leading_step (hu : Unambiguous args) (hst : Steady args n σ)
    (h : Gathering args σ ∨ Leading args σ) (ha : a.Once) (hs : NetStep args σ a σ') :
    Gathering args σ' ∨ Leading args σ' := by
  rcases h with h | h
  · by_cases hb : ∃ heard, a = .broadcast heard
    · obtain ⟨heard, rfl⟩ := hb
      right
      cases hs with
      | broadcast _ τ hs =>
        have hpc := (pc_publish hs).1
        exact leading_broadcast hst (.broadcast heard τ hs)
          (fun x hx => (h.owner x hx).imp fun _ => And.left)
          fun c hc => h.members_ready hu hst hpc hc
    · exact .inl (h.step hst hu.short ha (fun heard e => hb ⟨heard, e⟩) hs)
  · exact .inr (h.step hu hst ha hs)

theorem gathering_or_leading (hu : Unambiguous args) {N : Int} {iv : UInt64} {s : Server}
    (hs : ServerReady N iv s) {acts : List (Act ι)} (honce : ∀ a ∈ acts, a.Once)
    (he : Lts.exec (Net.step args) (Net.init ι s) acts = some σ) :
    Steady args s.expectedClients σ ∧ (Gathering args σ ∨ Leading args σ) :=
  Lts.exec_invariant (P := fun _ a => a.Once)
    (I := fun σ => Steady args s.expectedClients σ ∧ (Gathering args σ ∨ Leading args σ))
    (fun _ _ _ h ha hs => ⟨h.1.step hu.short ha (.of_step hs),
      gathering_or_leading_step hu h.1 h.2 ha (.of_step hs)⟩)
    ⟨⟨wired_init s, serverInv_init hs, well_init s, rfl⟩, .inl (gathering_init hs)⟩
    (Lts.along_of_forall fun a ha _ => honce a ha) he

/-- **The members are in lockstep.** Any number of clients, whatever the server
expects, none of which starts over: whatever is dropped or times out and
whatever the others send, the times a registered client has passed to `on_tick`
are those broadcast, but at most the last. No two of them are more than one tick
apart, and none is behind when the next broadcast is made. -/
theorem members_lockstep (hu : Unambiguous args) {N : Int} {iv : UInt64} {s : Server}
    (hs : ServerReady N iv s) {acts : List (Act ι)} (honce : ∀ a ∈ acts, a.Once)
    (he : Lts.exec (Net.step args) (Net.init ι s) acts = some σ) :
    (∀ c, (args c).id ∈ σ.server.ids → (args c).onTick = true →
      (σ.ends c).run.ticks <+: σ.broadcasts ∧
      σ.broadcasts.length ≤ (σ.ends c).run.ticks.length + 1 ∧
      (σ.server.pc = .broadcast → (σ.ends c).run.ticks = σ.broadcasts)) ∧
    ∀ c c', (args c).id ∈ σ.server.ids → (args c').id ∈ σ.server.ids →
      (args c).onTick = true → (args c').onTick = true →
      (σ.ends c).run.ticks.length ≤ (σ.ends c').run.ticks.length + 1 := by
  obtain ⟨hst, h⟩ := gathering_or_leading hu hs honce he
  have hticks : ∀ c, (args c).id ∈ σ.server.ids → (args c).onTick = true →
      (σ.ends c).run.ticks <+: σ.broadcasts ∧
      σ.broadcasts.length ≤ (σ.ends c).run.ticks.length + 1 ∧
      (σ.server.pc = .broadcast → (σ.ends c).run.ticks = σ.broadcasts) := by
    intro c hc on
    rcases h with h | h
    · rw [(h.silent c).ticks, h.none]
      exact ⟨List.prefix_rfl, Nat.zero_le _, fun _ => rfl⟩
    · obtain ⟨hpre, hle⟩ := (h.placed c hc).ticks on
      exact ⟨hpre, hle, fun hpc => (h.ready hst hpc hc).2.ticks on⟩
  refine ⟨hticks, fun c c' hc hc' on on' => ?_⟩
  have := (hticks c hc on).1.length_le
  have := (hticks c' hc' on').2.1
  omega

/-- One client more than expected: it joins, hears the broadcast and acknowledges it before the
member does. -/
theorem members_lockstep_two_clients :
    let args := ![ClientArgs.named [97] (by decide) (by decide),
      ClientArgs.named [98] (by decide) (by decide)]
    let acts := join 0 ++ [.client 0 .subscribe, .client 1 (.init .ok), .client 1 .subscribe,
      .client 1 .send, .broadcast fun _ => true, .request 1, .answer, .client 1 .reply,
      .client 1 .tick, .client 1 .send, .request 1, .client 0 .tick, .client 0 .send, .answer,
      .request 0, .answer]
    ∃ σ, Lts.exec (Net.step args) (Net.init (Fin 2) (.fresh 1 10)) acts = some σ ∧
      (σ.ends 0).run.ticks = σ.broadcasts := by
  intro args acts
  obtain ⟨σ, h, hmem, hpc⟩ : ∃ σ, Lts.exec (Net.step args) (Net.init (Fin 2) (.fresh 1 10)) acts =
      some σ ∧ (args 0).id ∈ σ.server.ids ∧ σ.server.pc = .broadcast :=
    Lts.exists_exec_of_any (by decide)
  exact ⟨σ, h, ((members_lockstep ⟨by decide, by decide, by decide⟩
    (serverReady_fresh (by decide) (by decide) (by decide)) (by decide) h).1 0 hmem rfl).2.2 hpc⟩

end Simulith
