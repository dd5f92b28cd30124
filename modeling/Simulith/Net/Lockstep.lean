import Mathlib.Data.Fin.VecNotation
import Simulith.Net.Gathering
import Simulith.Server.Tick

/-!
# Lockstep

From the first broadcast on every client is in one of three places of the
current round: it has yet to process the last broadcast (`Lagging`), it has but
the server has not received its ack (`Acking`), or the server has (`Settled`);
the server's flag of its id says whether it is settled (`Placed`). The server
broadcasts when all are settled, so no client is ever more than one broadcast
behind.

`ℓ` says that no broadcast is lost; with `ℓ` false any may be.
-/

namespace Simulith

/-! ## One client in a round -/

namespace ClientEnd

/-- Only the next tick, or the receipt of a reply that has arrived, is ahead of the client. -/
inductive Resting (e : ClientEnd) : Prop where
  | tick : e.run.pc = .tick → e.requester = .idle → Resting e
  | joining : e.run.pc = .await → e.requester = .replied Reply.ack.bytes → Resting e
  | acked (m : Msg) : e.run.pc = .ackWait → e.requester = .replied m → Resting e
  | failed (m : Msg) : e.run.pc = .failed → e.requester = .replied m → Resting e

/-- The times broadcast have all been passed to `on_tick`. -/
structure UpToDate (args : ClientArgs) (times : List UInt64) (e : ClientEnd) : Prop where
  feed : e.feed = []
  ticks : args.onTick = true → e.run.ticks = times

structure Lagging (args : ClientArgs) (ℓ : Prop) (times : List UInt64) (e : ClientEnd) : Prop where
  resting : e.Resting
  /-- the last broadcast waits to be received, or is lost -/
  last : ∃ past t, times = past ++ [t] ∧ (e.feed = [t] ∨ (¬ ℓ ∧ e.feed = [])) ∧
    (args.onTick = true → e.run.ticks = past)

structure Acking (args : ClientArgs) (times : List UInt64) (e : ClientEnd) : Prop where
  upToDate : e.UpToDate args times
  acking : (e.run.pc = .ack ∧ e.requester = .idle) ∨
    (e.run.pc = .ackWait ∧ ∃ m, e.requester = .sent m)

structure Settled (args : ClientArgs) (times : List UInt64) (e : ClientEnd) : Prop where
  upToDate : e.UpToDate args times
  settled : (e.run.pc = .tick ∧ e.requester = .idle) ∨
    (e.run.pc = .ackWait ∧ (e.requester = .held ∨ ∃ m, e.requester = .replied m))

/-- The client's place in the round, by whether the server has its ack. -/
def Placed (args : ClientArgs) (ℓ : Prop) (times : List UInt64) (e : ClientEnd)
    (responded : Prop) : Prop :=
  (¬ responded ∧ (e.Lagging args ℓ times ∨ e.Acking args times)) ∨
    (responded ∧ e.Settled args times)

variable {args : ClientArgs} {ℓ : Prop} {times : List UInt64} {e e' : ClientEnd} {a : ClientAct}

theorem Resting.not_sent (h : e.Resting) {m : Msg} : e.requester ≠ .sent m := by
  cases h <;> simp [*]

theorem Resting.not_held (h : e.Resting) : e.requester ≠ .held := by
  cases h <;> simp [*]

theorem Resting.begun (h : e.Resting) : e.run.pc ≠ .start := by
  cases h <;> simp [*]

theorem Resting.endStep (h : e.Resting) (ha : a ≠ .restart) (hs : EndStep args e a e') :
    (e'.Resting ∧ e'.feed = e.feed ∧ e'.run.ticks = e.run.ticks) ∨
    ∃ t feed, e.feed = t :: feed ∧ e'.feed = feed ∧ e'.run.pc = .ack ∧ e'.requester = .idle ∧
      (args.onTick = true → e'.run.ticks = e.run.ticks ++ [t]) := by
  cases hs with
  | tick t feed hp hf =>
    right
    refine ⟨t, feed, hf, rfl, rfl, ?_, fun ht => if_pos ht⟩
    cases h with
    | tick _ hr => exact hr
    | _ => simp_all
  | subscribe _ =>
    left
    refine ⟨?_, rfl, rfl⟩
    cases h with
    | tick hp hr => exact .tick hp hr
    | joining hp hr => exact .joining hp hr
    | acked m hp hr => exact .acked m hp hr
    | failed m hp hr => exact .failed m hp hr
  | joinReply m hp hm =>
    left
    have hack : m = Reply.ack.bytes := by cases h <;> simp_all
    rw [hack, handshakeReceived_reply]
    exact ⟨.tick rfl rfl, rfl, rfl⟩
  | ackReply m hp hm => exact .inl ⟨.tick rfl rfl, rfl, rfl⟩
  | timeout hp =>
    left
    refine ⟨?_, rfl, rfl⟩
    cases h with
    | joining _ hr => exact .failed _ rfl hr
    | _ => simp_all
  | restart => exact absurd rfl ha
  | init _ _ hp => cases h <;> simp_all
  | sendReady hp => cases h <;> simp_all
  | sendAck hp => cases h <;> simp_all
  | sendFail hp => cases h <;> simp_all

theorem Lagging.endStep (h : e.Lagging args ℓ times) (ha : a ≠ .restart)
    (hs : EndStep args e a e') : e'.Lagging args ℓ times ∨ e'.Acking args times := by
  obtain ⟨past, t, rfl, hf, ht⟩ := h.last
  rcases h.resting.endStep ha hs with ⟨hr, hfeed, hticks⟩ | ⟨t', feed, hcons, hfeed, hp, hr, hticks⟩
  · exact .inl ⟨hr, past, t, rfl, by rw [hfeed]; exact hf, fun on => hticks.trans (ht on)⟩
  · -- the feed holds nothing but the last broadcast
    rcases hf with hf | ⟨-, hf⟩ <;> rw [hf] at hcons <;> cases hcons
    exact .inr ⟨⟨hfeed, fun on => by rw [hticks on, ht on]⟩, .inl ⟨hp, hr⟩⟩

theorem Acking.endStep (h : e.Acking args times) (ha : a ≠ .restart) (hs : EndStep args e a e') :
    e'.Acking args times := by
  obtain ⟨⟨hf, ht⟩, hp⟩ := h
  cases hs with
  | subscribe _ => exact ⟨⟨hf, ht⟩, hp⟩
  | sendAck _ _ => exact ⟨⟨hf, ht⟩, .inr ⟨rfl, _, rfl⟩⟩
  | restart => exact absurd rfl ha
  | _ => simp_all

theorem Settled.endStep (h : e.Settled args times) (ha : a ≠ .restart) (hs : EndStep args e a e') :
    e'.Settled args times := by
  obtain ⟨⟨hf, ht⟩, hp⟩ := h
  cases hs with
  | subscribe _ => exact ⟨⟨hf, ht⟩, hp⟩
  | ackReply _ _ _ => exact ⟨⟨hf, ht⟩, .inl ⟨rfl, rfl⟩⟩
  | restart => exact absurd rfl ha
  | _ => simp_all

/-- A client keeps its place, or goes on from lagging to acking, over what it does itself. -/
theorem Placed.endStep {responded : Prop} (h : e.Placed args ℓ times responded)
    (ha : a ≠ .restart) (hs : EndStep args e a e') : e'.Placed args ℓ times responded := by
  rcases h with ⟨hr, hl | hl⟩ | ⟨hr, hl⟩
  · exact .inl ⟨hr, hl.endStep ha hs⟩
  · exact .inl ⟨hr, .inr (hl.endStep ha hs)⟩
  · exact .inr ⟨hr, hl.endStep ha hs⟩

theorem Placed.acking {responded : Prop} (h : e.Placed args ℓ times responded) {m : Msg}
    (hm : e.requester = .sent m) : e.run.pc = .ackWait ∧ e.UpToDate args times := by
  rcases h with ⟨-, hl | hl⟩ | ⟨-, hl⟩
  · exact absurd hm hl.resting.not_sent
  · rcases hl.acking with ⟨-, hr⟩ | ⟨hp, -⟩
    · rw [hm] at hr; cases hr
    · exact ⟨hp, hl.upToDate⟩
  · rcases hl.settled with ⟨-, hr⟩ | ⟨-, hr | ⟨_, hr⟩⟩ <;> rw [hm] at hr <;> cases hr

theorem answer_of_not_held (h : e.requester ≠ .held) (m : Msg) : e.answer m = e := by
  have hr : e.requester.answer m = e.requester := by
    cases hr : e.requester with
    | held => exact absurd hr h
    | _ => rfl
  rw [answer, hr]

theorem Placed.answer {responded : Prop} (h : e.Placed args ℓ times responded) (m : Msg) :
    (e.answer m).Placed args ℓ times responded := by
  by_cases hh : e.requester = .held
  · rcases h with ⟨-, hl | hl⟩ | ⟨hr, hl⟩
    · exact absurd hh hl.resting.not_held
    · rcases hl.acking with ⟨-, h⟩ | ⟨-, _, h⟩ <;> rw [hh] at h <;> cases h
    · refine .inr ⟨hr, ⟨hl.upToDate.feed, hl.upToDate.ticks⟩, .inr ⟨?_, .inr ⟨m, ?_⟩⟩⟩
      · rcases hl.settled with ⟨-, h⟩ | ⟨hp, -⟩
        · rw [hh] at h; cases h
        · exact hp
      · simp only [ClientEnd.answer, hh, Requester.answer]
  · rw [answer_of_not_held hh]
    exact h

theorem lagging_deliver (hr : e.Resting) (hu : e.UpToDate args times) {heard : Bool} {t : UInt64}
    (hℓ : ℓ → heard = true ∧ e.subscribed = true) :
    (e.deliver heard t).Lagging args ℓ (times ++ [t]) := by
  refine ⟨?_, times, t, rfl, ?_, fun on => by rw [deliver_run]; exact hu.ticks on⟩
  · cases hr with
    | tick hp hr => exact .tick (by rwa [deliver_run]) (by rwa [deliver_requester])
    | joining hp hr => exact .joining (by rwa [deliver_run]) (by rwa [deliver_requester])
    | acked m hp hr => exact .acked m (by rwa [deliver_run]) (by rwa [deliver_requester])
    | failed m hp hr => exact .failed m (by rwa [deliver_run]) (by rwa [deliver_requester])
  · unfold deliver
    split
    · exact .inl (by simp only [hu.feed, List.nil_append])
    · next hn => exact .inr ⟨fun h => hn (by simp [hℓ h]), hu.feed⟩

theorem Settled.resting (h : e.Settled args times) (hh : e.requester ≠ .held) : e.Resting := by
  rcases h.settled with ⟨hp, hr⟩ | ⟨hp, hr | ⟨m, hr⟩⟩
  · exact .tick hp hr
  · exact absurd hr hh
  · exact .acked m hp hr

theorem Enrolled.resting {pc : ServerPc} (h : e.Enrolled pc) (hw : e.Wired) (hs : e.Silent)
    (hh : e.requester ≠ .held) : e.Resting := by
  have hg : e.Granted pc → e.requester = .replied Reply.ack.bytes := fun h =>
    h.resolve_right fun h => hh h.1
  rcases h with (h | ⟨hp, h⟩) | ⟨hp, h⟩
  · cases hp : e.run.pc with
    | tick => exact .tick hp (hw.idle (by simp [hp]))
    | ack => exact absurd hp hs.pc.1
    | ackWait => exact absurd hp hs.pc.2
    | _ => rw [hp] at h; exact h.elim
  · exact .joining hp (hg h)
  · exact .failed _ hp (hg h)

end ClientEnd

/-! ## The net in a round -/

variable {ι : Type*} {args : ι → ClientArgs} {σ σ' : Net ι} {a : Act ι} {ℓ : Prop} {n : Nat}

/-- The net from the first broadcast on. -/
structure Ticking (args : ι → ClientArgs) (ℓ : Prop) (σ : Net ι) : Prop where
  tick : σ.server.pc.InTick
  distinct : ∀ c c', (args c).id = (args c').id → c = c'
  member : ∀ c, (args c).id ∈ σ.server.ids
  owner : ∀ x ∈ σ.server.ids, ∃ c, (args c).id = x
  due : σ.server.pc = .broadcast → ∀ c, σ.server.server.HasResponded (args c).id
  placed : ∀ c, (σ.ends c).Placed (args c) ℓ σ.broadcasts
    (σ.server.server.HasResponded (args c).id)

theorem Steady.not_held (h : Steady args n σ) (hpc : σ.server.pc = .broadcast) (c : ι) :
    (σ.ends c).requester ≠ .held := by
  intro hc
  have := h.well.owes.mp (h.wired.owes c hc)
  rw [hpc] at this
  exact this

/-- Every client is up to date when the server is about to broadcast. -/
theorem Ticking.ready (h : Ticking args ℓ σ) (hst : Steady args n σ)
    (hpc : σ.server.pc = .broadcast) (c : ι) :
    (σ.ends c).Resting ∧ (σ.ends c).UpToDate (args c) σ.broadcasts := by
  rcases h.placed c with ⟨hr, -⟩ | ⟨-, hs⟩
  · exact absurd (h.due hpc c) hr
  · exact ⟨hs.resting (hst.not_held hpc c), hs.upToDate⟩

theorem Gathering.ready [Fintype ι] (h : Gathering args σ)
    (hst : Steady args (Fintype.card ι) σ) (hpc : σ.server.pc = .broadcast) (c : ι) :
    (σ.ends c).Resting ∧ (σ.ends c).UpToDate (args c) σ.broadcasts := by
  obtain ⟨-, -, hen⟩ := h.full hst hpc
  have hs := h.silent c
  refine ⟨(hen c).resting (hst.wired.ends c) hs (hst.not_held hpc c), hs.feed, fun _ => ?_⟩
  rw [hs.ticks, h.none]

theorem ackMsg_eq_id (hw : Wired args σ) (hlen : ∀ c, (args c).id.length ≤ 57) {c : ι}
    (hp : (σ.ends c).run.pc = .ackWait) : (σ.ends c).run.client.ackMsg = (args c).id := by
  have := hlen c
  rw [Client.ackMsg_eq, hw.named c (by rw [hp]; exact nofun), List.take_of_length_le (by omega)]

/-- No broadcast is lost in the step, for a client that has been initialised. -/
def Act.Heard (σ : Net ι) : Act ι → Prop
  | .broadcast heard => ∀ c, (σ.ends c).run.pc ≠ .start →
      heard c = true ∧ (σ.ends c).subscribed = true
  | _ => True

variable [DecidableEq ι]

theorem ticking_broadcast {heard : ι → Bool} (hst : Steady args n σ)
    (hs : NetStep args σ (.broadcast heard) σ')
    (hdistinct : ∀ c c', (args c).id = (args c').id → c = c')
    (hmem : ∀ c, (args c).id ∈ σ.server.ids) (howner : ∀ x ∈ σ.server.ids, ∃ c, (args c).id = x)
    (hready : ∀ c, (σ.ends c).Resting ∧ (σ.ends c).UpToDate (args c) σ.broadcasts)
    (hℓ : ℓ → Act.Heard σ (.broadcast heard)) : Ticking args ℓ σ' := by
  cases hs with
  | broadcast _ τ hs =>
    obtain ⟨-, hids, hflags, e⟩ := publish_spec hst.inv hs
    have hpc : τ.pc = .tickRecv := by rw [e]
    exact
      { tick := by rw [hpc]; trivial
        distinct := hdistinct
        member := fun c => hids ▸ hmem c
        owner := fun x hx => howner x (hids ▸ hx)
        due := fun hp => by rw [hpc] at hp; cases hp
        placed := fun c => .inl ⟨hflags _, .inl
          (ClientEnd.lagging_deliver (hready c).1 (hready c).2 fun h => hℓ h c (hready c).1.begun)⟩ }

omit [DecidableEq ι] in
theorem Ticking.request_flags (h : Ticking args ℓ σ) (hst : Steady args n σ)
    (hlen : ∀ c, (args c).id.length ≤ 57) {c : ι} {m : Msg} {τ : ServerRun}
    (hm : (σ.ends c).requester = .sent m) (hs : σ.server.step (.recv m) = some τ) (c' : ι) :
    τ.server.HasResponded (args c').id ↔ σ.server.server.HasResponded (args c').id ∨ c' = c := by
  obtain ⟨-, -, -, hflags⟩ := tickRecv_spec hst.inv h.tick (hst.wired.fits hlen hm) hs
  obtain ⟨hp, -⟩ := (h.placed c).acking hm
  have hstr : CStr.str m = (args c).id := by
    rcases (hst.wired.ends c).sent hm with ⟨hp', -⟩ | ⟨-, rfl⟩
    · rw [hp] at hp'; rcases hp' with hp' | hp' <;> cases hp'
    · rw [ackMsg_eq_id hst.wired hlen hp, CStr.str_eq_self (args c).id_cstr]
  rw [hflags _ (h.member c'), hstr]
  exact or_congr_right ⟨h.distinct c' c, fun e => by rw [e]⟩

/-- **One step** of a round, or from one round to the next. -/
theorem Ticking.step (h : Ticking args ℓ σ) (hst : Steady args n σ)
    (hlen : ∀ c, (args c).id.length ≤ 57) (ha : a.Once) (hℓ : ℓ → a.Heard σ)
    (hs : NetStep args σ a σ') : Ticking args ℓ σ' := by
  cases hs with
  | client c b e he =>
    refine { h with placed := ?_ }
    exact Net.forall_setEnd (p := fun c e => e.Placed (args c) ℓ σ.broadcasts
      (σ.server.server.HasResponded (args c).id))
      ((h.placed c).endStep (by rintro rfl; exact ha) he) fun c' _ => h.placed c'
  | request c m τ hm hs =>
    obtain ⟨-, hpc, hids, -⟩ := tickRecv_spec hst.inv h.tick (hst.wired.fits hlen hm) hs
    obtain ⟨hp, hu⟩ := (h.placed c).acking hm
    have hflags := h.request_flags hst hlen hm hs
    refine
      { tick := by rw [hpc]; trivial
        distinct := h.distinct
        member := fun c => hids ▸ h.member c
        owner := fun x hx => h.owner x (hids ▸ hx)
        due := fun hp => by rw [hpc] at hp; cases hp
        placed := ?_ }
    refine Net.forall_setEnd (p := fun c e => e.Placed (args c) ℓ σ.broadcasts
      (τ.server.HasResponded (args c).id)) ?_ fun c' hc' => ?_
    · exact .inr ⟨(hflags c).mpr (.inr rfl), ⟨hu.feed, hu.ticks⟩, .inr ⟨hp, .inl rfl⟩⟩
    · have := h.placed c'
      simpa only [ClientEnd.Placed, hflags c', hc', or_false] using this
  | requestStale k m τ hm hs =>
    rw [hst.stale] at hm
    cases hm
  | answer m τ hm hs =>
    obtain ⟨-, hids, hflags, hpc⟩ := tickSend_spec hst.inv h.tick hs
    refine
      { tick := by rcases hpc with hpc | ⟨hpc, -⟩ <;> rw [hpc] <;> trivial
        distinct := h.distinct
        member := fun c => hids ▸ h.member c
        owner := fun x hx => h.owner x (hids ▸ hx)
        due := fun hp c => ?_
        placed := fun c => ?_ }
    · rcases hpc with hpc | ⟨-, hall⟩
      · rw [hpc] at hp; cases hp
      · exact (hflags _).mpr (hall _ (h.member c))
    · have := (h.placed c).answer m
      simpa only [ClientEnd.Placed, hflags] using this
  | broadcast heard τ hs =>
    have hpc := (pc_publish hs).1
    exact ticking_broadcast hst (.broadcast heard τ hs) h.distinct h.member h.owner
      (h.ready hst hpc) hℓ

theorem gathering_or_ticking_step [Fintype ι] (hst : Steady args (Fintype.card ι) σ)
    (h : Gathering args σ ∨ Ticking args ℓ σ) (hlen : ∀ c, (args c).id.length ≤ 57)
    (ha : a.Once) (hℓ : ℓ → a.Heard σ) (hs : NetStep args σ a σ') :
    Gathering args σ' ∨ Ticking args ℓ σ' := by
  rcases h with h | h
  · by_cases hb : ∃ heard, a = .broadcast heard
    · obtain ⟨heard, rfl⟩ := hb
      right
      cases hs with
      | broadcast _ τ hs =>
        have hpc := (pc_publish hs).1
        obtain ⟨hdistinct, hmem, -⟩ := h.full hst hpc
        exact ticking_broadcast hst (.broadcast heard τ hs) hdistinct hmem
          (fun x hx => have ⟨c, hc, _⟩ := h.owner x hx; ⟨c, hc⟩) (h.ready hst hpc) hℓ
    · exact .inl (h.step hst hlen ha (fun heard e => hb ⟨heard, e⟩) hs)
  · exact .inr (h.step hst hlen ha hℓ hs)

/-- In a run in which nobody starts over the clients gather, or are in a round. -/
theorem gathering_or_ticking [Fintype ι] (hlen : ∀ c, (args c).id.length ≤ 57) {iv : UInt64}
    {s : Server} (hs : ServerReady (Fintype.card ι) iv s) {acts : List (Act ι)}
    (hP : Lts.Along (Net.step args) (fun σ a => a.Once ∧ (ℓ → a.Heard σ)) (Net.init ι s) acts)
    (he : Lts.exec (Net.step args) (Net.init ι s) acts = some σ) :
    Steady args (Fintype.card ι) σ ∧ (Gathering args σ ∨ Ticking args ℓ σ) :=
  Lts.exec_invariant
    (I := fun σ => Steady args (Fintype.card ι) σ ∧ (Gathering args σ ∨ Ticking args ℓ σ))
    (fun _ _ _ h ha hs => ⟨h.1.step hlen ha.1 (.of_step hs),
      gathering_or_ticking_step h.1 h.2 hlen ha.1 ha.2 (.of_step hs)⟩)
    ⟨steady_init hs, .inl (gathering_init hs)⟩ hP he

theorem ClientEnd.Placed.ticks {args : ClientArgs} {times : List UInt64} {e : ClientEnd}
    {responded : Prop} (h : e.Placed args ℓ times responded) (on : args.onTick = true) :
    e.run.ticks <+: times ∧ times.length ≤ e.run.ticks.length + 1 := by
  have hu : e.UpToDate args times → e.run.ticks <+: times ∧ times.length ≤ e.run.ticks.length + 1 :=
    fun hu => by rw [hu.ticks on]; exact ⟨List.prefix_rfl, Nat.le_succ _⟩
  rcases h with ⟨-, hl | hl⟩ | ⟨-, hl⟩
  · obtain ⟨past, t, rfl, -, ht⟩ := hl.last
    rw [ht on]
    exact ⟨List.prefix_append _ _, by rw [List.length_append, List.length_singleton]⟩
  · exact hu hl.upToDate
  · exact hu hl.upToDate

/-- **Lockstep.** A server for as many clients as there are, with ids of at most
57 bytes, and nobody starts over: whatever is dropped or times out, the times a
client has passed to `on_tick` are those the server has broadcast, but at most
the last, and no two clients are more than one tick apart. -/
theorem lockstep [Fintype ι] (hlen : ∀ c, (args c).id.length ≤ 57) {iv : UInt64} {s : Server}
    (hs : ServerReady (Fintype.card ι) iv s) {acts : List (Act ι)} (honce : ∀ a ∈ acts, a.Once)
    (he : Lts.exec (Net.step args) (Net.init ι s) acts = some σ) :
    (∀ c, (args c).onTick = true → (σ.ends c).run.ticks <+: σ.broadcasts ∧
      σ.broadcasts.length ≤ (σ.ends c).run.ticks.length + 1) ∧
    ∀ c c', (args c).onTick = true → (args c').onTick = true →
      (σ.ends c).run.ticks.length ≤ (σ.ends c').run.ticks.length + 1 := by
  obtain ⟨-, h⟩ := gathering_or_ticking (ℓ := False) hlen hs
    (Lts.along_of_forall fun a ha _ => ⟨honce a ha, False.elim⟩) he
  have hticks : ∀ c, (args c).onTick = true → (σ.ends c).run.ticks <+: σ.broadcasts ∧
      σ.broadcasts.length ≤ (σ.ends c).run.ticks.length + 1 := by
    intro c on
    rcases h with h | h
    · rw [(h.silent c).ticks, h.none]
      exact ⟨List.prefix_rfl, Nat.zero_le _⟩
    · exact (h.placed c).ticks on
  refine ⟨hticks, fun c c' on on' => ?_⟩
  have := (hticks c on).1.length_le
  have := (hticks c' on').2
  omega

/-- Two clients; the network drops a broadcast for one of them. -/
theorem lockstep_two_clients :
    let args := ![ClientArgs.named [97] (by decide) (by decide),
      ClientArgs.named [98] (by decide) (by decide)]
    let acts := join 0 ++ .client 0 .subscribe :: join 1 ++ [.client 1 .subscribe,
      .broadcast fun c => c = 0, .client 0 .tick, .client 0 .send, .request 0, .answer]
    ∃ σ, Lts.exec (Net.step args) (Net.init (Fin 2) (.fresh 2 10)) acts = some σ ∧
      ∀ c, (σ.ends c).run.ticks <+: σ.broadcasts ∧
        σ.broadcasts.length ≤ (σ.ends c).run.ticks.length + 1 :=
  have ⟨σ, h⟩ := Option.isSome_iff_exists.mp (by decide)
  ⟨σ, h, fun c => (lockstep (by decide) (serverReady_fresh (by decide) (by decide) (by decide))
    (by decide) h).1 c (by revert c; decide)⟩

end Simulith
