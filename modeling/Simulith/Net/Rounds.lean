import Simulith.Lts.Refine
import Simulith.Net.Lockstep
import Simulith.Rounds.Basic

/-!
# The net refines bulk-synchronous rounds

What a run shows is the server's broadcasts and the ticks the clients receive.
`SeenAt` counts the ticks of a client by its place in the round, `InRounds` is
the simulation relation, and `net_refines_rounds` the refinement: whatever the
network drops or delays, the net shows a run of `Rounds`.
-/

namespace Simulith

namespace ClientEnd

variable {args : ClientArgs} {times : List UInt64} {e e' : ClientEnd} {responded : Prop} {k : Nat}
  {b : ClientAct}

/-- The client has received `k` ticks, by its place in the round. -/
def SeenAt (args : ClientArgs) (times : List UInt64) (e : ClientEnd) (responded : Prop) (k : Nat) :
    Prop :=
  (¬ responded ∧ e.Lagging args False times ∧ k + 1 = times.length) ∨
  (¬ responded ∧ e.Acking args times ∧ k = times.length) ∨
  (responded ∧ e.Settled args times ∧ k = times.length)

theorem feed_step (hs : EndStep args e b e') (ht : b ≠ .tick) (hr : b ≠ .restart) :
    e'.feed = e.feed := by
  cases hs with
  | tick => exact absurd rfl ht
  | restart => exact absurd rfl hr
  | _ => rfl

theorem Lagging.endStep_of_ne_tick (h : e.Lagging args False times) (hs : EndStep args e b e')
    (ht : b ≠ .tick) (hr : b ≠ .restart) : e'.Lagging args False times := by
  obtain ⟨past, t, hp, hf, hticks⟩ := h.last
  have hfeed := feed_step hs ht hr
  rcases h.resting.endStep hr hs with ⟨hrest, hf', ht'⟩ | ⟨u, feed, hcons, hf', -⟩
  · exact ⟨hrest, past, t, hp, by rw [hf']; exact hf, fun on => ht'.trans (hticks on)⟩
  · rw [hfeed, hcons] at hf'
    exact absurd hf' (List.cons_ne_self u feed)

theorem SeenAt.endStep (h : e.SeenAt args times responded k) (hs : EndStep args e b e')
    (ht : b ≠ .tick) (hr : b ≠ .restart) : e'.SeenAt args times responded k := by
  rcases h with ⟨hn, hl, hk⟩ | ⟨hn, hl, hk⟩ | ⟨hn, hl, hk⟩
  · exact .inl ⟨hn, hl.endStep_of_ne_tick hs ht hr, hk⟩
  · exact .inr (.inl ⟨hn, hl.endStep hr hs, hk⟩)
  · exact .inr (.inr ⟨hn, hl.endStep hr hs, hk⟩)

theorem SeenAt.tick (h : e.SeenAt args times responded k) (hs : EndStep args e .tick e') :
    ∃ t, e.feed.head? = some t ∧ times[k]? = some t ∧ e'.SeenAt args times responded (k + 1) := by
  have hs' := hs
  cases hs with
  | tick t feed hp hf =>
    refine ⟨t, by rw [hf]; rfl, ?_⟩
    rcases h with ⟨hn, hl, hk⟩ | ⟨-, hl, -⟩ | ⟨-, hl, -⟩
    · have hack := (hl.endStep (by simp) hs').resolve_left fun hl' => by
        cases hl'.resting <;> simp_all
      obtain ⟨past, u, rfl, hfeed, -⟩ := hl.last
      rw [hf] at hfeed
      obtain ⟨rfl, rfl⟩ : t = u ∧ feed = [] := by
        rcases hfeed with hfeed | ⟨-, hfeed⟩
        · exact List.cons_eq_cons.mp hfeed
        · cases hfeed
      rw [List.length_append, List.length_singleton] at hk
      obtain rfl : k = past.length := by omega
      exact ⟨by simp, .inr (.inl ⟨hn, hack, by simp⟩)⟩
    · have := hl.upToDate.feed
      rw [hf] at this
      cases this
    · have := hl.upToDate.feed
      rw [hf] at this
      cases this

theorem SeenAt.request {m : Msg} {responded' : Prop} (h : e.SeenAt args times responded k)
    (hm : e.requester = .sent m) (hr : responded') :
    ({ e with requester := .held } : ClientEnd).SeenAt args times responded' k := by
  rcases h with ⟨-, hl, -⟩ | ⟨-, hl, hk⟩ | ⟨-, hl, -⟩
  · exact absurd hm hl.resting.not_sent
  · rcases hl.acking with ⟨-, hq⟩ | ⟨hp, -⟩
    · rw [hm] at hq
      cases hq
    · exact .inr (.inr ⟨hr, ⟨⟨hl.upToDate.feed, hl.upToDate.ticks⟩, .inr ⟨hp, .inl rfl⟩⟩, hk⟩)
  · rcases hl.settled with ⟨-, hq⟩ | ⟨-, hq | ⟨_, hq⟩⟩ <;> rw [hm] at hq <;> cases hq

theorem SeenAt.answer (h : e.SeenAt args times responded k) (m : Msg) :
    (e.answer m).SeenAt args times responded k := by
  rcases h with ⟨hn, hl, hk⟩ | ⟨hn, hl, hk⟩ | ⟨hn, hl, hk⟩
  · rw [answer_of_not_held hl.resting.not_held]
    exact .inl ⟨hn, hl, hk⟩
  · have hh : e.requester ≠ .held := by
      rcases hl.acking with ⟨-, h⟩ | ⟨-, _, h⟩ <;> rw [h] <;> simp
    rw [answer_of_not_held hh]
    exact .inr (.inl ⟨hn, hl, hk⟩)
  · rcases Placed.answer (ℓ := False) (.inr ⟨hn, hl⟩) m with ⟨hn', -⟩ | ⟨-, hl'⟩
    · exact absurd hn hn'
    · exact .inr (.inr ⟨hn, hl', hk⟩)

end ClientEnd

variable {ι : Type*} {args : ι → ClientArgs} {σ σ' : Net ι} {a : Act ι} {n : Nat}

/-- What a step shows: the time of a broadcast, the time a client receives. -/
def Net.shows (σ : Net ι) : Act ι → Option (Rounds.Event ι UInt64)
  | .broadcast _ => some (.announce σ.server.server.currentTimeNs)
  | .client c .tick => (σ.ends c).feed.head?.map (.take c)
  | _ => none

/-- The rounds a net is in. -/
structure InRounds [Fintype ι] (args : ι → ClientArgs) (σ : Net ι) (r : Rounds ι UInt64) :
    Prop where
  steady : Steady args (Fintype.card ι) σ
  announced : r.announced = σ.broadcasts
  seen : (Gathering args σ ∧ ∀ c, r.seen c = 0) ∨
    (Ticking args False σ ∧ ∀ c, (σ.ends c).SeenAt (args c) σ.broadcasts
      (σ.server.server.HasResponded (args c).id) (r.seen c))

variable [DecidableEq ι] [Fintype ι] {r : Rounds ι UInt64}

omit [DecidableEq ι] in
/-- When the server is about to broadcast, everyone has seen everything. -/
theorem InRounds.due (h : InRounds args σ r) (hpc : σ.server.pc = .broadcast) (c : ι) :
    r.seen c = r.announced.length ∧ (σ.ends c).Resting ∧
      (σ.ends c).UpToDate (args c) σ.broadcasts := by
  rw [h.announced]
  rcases h.seen with ⟨hg, hseen⟩ | ⟨ht, hseen⟩
  · rw [hseen c, hg.none]
    exact ⟨rfl, hg.none ▸ hg.ready h.steady hpc c⟩
  · refine ⟨?_, ht.ready h.steady hpc c⟩
    rcases hseen c with ⟨hn, -⟩ | ⟨hn, -⟩ | ⟨-, -, hk⟩
    · exact absurd (ht.due hpc c) hn
    · exact absurd (ht.due hpc c) hn
    · exact hk

theorem InRounds.broadcast (h : InRounds args σ r) (hlen : ∀ c, (args c).id.length ≤ 57)
    {heard : ι → Bool} (hs : NetStep args σ (.broadcast heard) σ') :
    ∃ r', r.step (.announce σ.server.server.currentTimeNs) = some r' ∧ InRounds args σ' r' := by
  have hst' := h.steady.step hlen (show (Act.broadcast heard).Once from trivial) hs
  have htick : Ticking args False σ' := by
    have hphase : Gathering args σ ∨ Ticking args False σ := h.seen.imp And.left And.left
    rcases gathering_or_ticking_step h.steady hphase hlen (show (Act.broadcast heard).Once from
      trivial) False.elim hs with hg | ht
    · have := hg.none
      cases hs with
      | broadcast => simp at this
    · exact ht
  cases hs with
  | broadcast _ τ hs =>
    have hdue := h.due (pc_publish hs).1
    obtain ⟨-, -, hflags, -⟩ := publish_spec h.steady.inv hs
    refine ⟨_, if_pos fun c => (hdue c).1, hst', ?_,
      .inr ⟨htick, fun c => .inl ⟨hflags _, ?_, ?_⟩⟩⟩
    · simp only [h.announced]
    · exact ClientEnd.lagging_deliver (hdue c).2.1 (hdue c).2.2 False.elim
    · simp only [(hdue c).1, h.announced, List.length_append, List.length_singleton]

theorem InRounds.tick (h : InRounds args σ r) (hlen : ∀ c, (args c).id.length ≤ 57) {c : ι}
    (hs : NetStep args σ (.client c .tick) σ') :
    ∃ t r', (σ.ends c).feed.head? = some t ∧ r.step (.take c t) = some r' ∧
      InRounds args σ' r' := by
  have hst' := h.steady.step hlen (show (Act.client c .tick).Once from trivial) hs
  have hs' := hs
  cases hs with
  | client _ _ e he =>
    rcases h.seen with ⟨hg, -⟩ | ⟨ht, hseen⟩
    · cases he with
      | tick t feed _ hf =>
        rw [(hg.silent c).feed] at hf
        cases hf
    · obtain ⟨t, hhead, hget, hnext⟩ := (hseen c).tick he
      refine ⟨t, _, hhead, if_pos (by rw [h.announced]; exact hget), hst', h.announced, .inr
        ⟨ht.step h.steady hlen (show (Act.client c .tick).Once from trivial) False.elim hs', ?_⟩⟩
      refine Net.forall_setEnd (p := fun c' e => e.SeenAt (args c') σ.broadcasts
        (σ.server.server.HasResponded (args c').id) (Function.update r.seen c (r.seen c + 1) c'))
        ?_ fun c' hc' => ?_
      · rw [Function.update_self]
        exact hnext
      · rw [Function.update_of_ne hc']
        exact hseen c'

theorem InRounds.quiet (h : InRounds args σ r) (hlen : ∀ c, (args c).id.length ≤ 57) (ha : a.Once)
    (hb : ∀ heard, a ≠ .broadcast heard) (ht : ∀ c, a ≠ .client c .tick)
    (hs : NetStep args σ a σ') : InRounds args σ' r := by
  have hst' := h.steady.step hlen ha hs
  rcases h.seen with ⟨hg, hseen⟩ | ⟨htick, hseen⟩
  · have hg' := hg.step h.steady hlen ha hb hs
    exact ⟨hst', by rw [h.announced, hg.none, hg'.none], .inl ⟨hg', hseen⟩⟩
  have htick' := htick.step h.steady hlen ha False.elim hs
  cases hs with
  | client c b e he =>
    refine ⟨hst', h.announced, .inr ⟨htick', ?_⟩⟩
    refine Net.forall_setEnd (p := fun c e => e.SeenAt (args c) σ.broadcasts
      (σ.server.server.HasResponded (args c).id) (r.seen c)) ?_ fun c' _ => hseen c'
    exact (hseen c).endStep he (by rintro rfl; exact ht c rfl) (by rintro rfl; exact ha)
  | request c m τ hm hs =>
    have hflags := htick.request_flags h.steady hlen hm hs
    refine ⟨hst', h.announced, .inr ⟨htick', ?_⟩⟩
    refine Net.forall_setEnd (p := fun c e => e.SeenAt (args c) σ.broadcasts
      (τ.server.HasResponded (args c).id) (r.seen c)) ?_ fun c' hc' => ?_
    · exact (hseen c).request hm ((hflags c).mpr (.inr rfl))
    · simpa only [ClientEnd.SeenAt, hflags c', hc', or_false] using hseen c'
  | requestStale k m τ hm hs =>
    rw [h.steady.stale] at hm
    cases hm
  | answer m τ hm hs =>
    obtain ⟨-, -, hflags, -⟩ := tickSend_spec h.steady.inv htick.tick hs
    refine ⟨hst', h.announced, .inr ⟨htick', fun c => ?_⟩⟩
    simpa only [ClientEnd.SeenAt, hflags] using (hseen c).answer m
  | broadcast heard => exact absurd rfl (hb heard)

/-- **One step of the net** is one of the rounds, or shows nothing. -/
theorem inRounds_step (h : InRounds args σ r) (hlen : ∀ c, (args c).id.length ≤ 57) (ha : a.Once)
    (hs : NetStep args σ a σ') : (σ.shows a = none ∧ InRounds args σ' r) ∨
      ∃ e r', σ.shows a = some e ∧ r.step e = some r' ∧ InRounds args σ' r' := by
  by_cases hb : ∃ heard, a = .broadcast heard
  · obtain ⟨heard, rfl⟩ := hb
    obtain ⟨r', hr', h'⟩ := h.broadcast hlen hs
    exact .inr ⟨_, r', rfl, hr', h'⟩
  by_cases ht : ∃ c, a = .client c .tick
  · obtain ⟨c, rfl⟩ := ht
    obtain ⟨t, r', hhead, hr', h'⟩ := h.tick hlen hs
    exact .inr ⟨_, r', by simp [Net.shows, hhead], hr', h'⟩
  · refine .inl ⟨?_, h.quiet hlen ha (fun heard e => hb ⟨heard, e⟩) (fun c e => ht ⟨c, e⟩) hs⟩
    unfold Net.shows
    split
    · exact absurd ⟨_, rfl⟩ hb
    · exact absurd ⟨_, rfl⟩ ht
    · rfl

theorem exists_rounds (hlen : ∀ c, (args c).id.length ≤ 57) {iv : UInt64} {s : Server}
    (hs : ServerReady (Fintype.card ι) iv s) {acts : List (Act ι)} (honce : ∀ a ∈ acts, a.Once)
    (he : Lts.exec (Net.step args) (Net.init ι s) acts = some σ) :
    ∃ r, Lts.exec Rounds.step (.init ι UInt64)
        (Lts.trace (Net.step args) Net.shows (Net.init ι s) acts) = some r ∧ InRounds args σ r :=
  Lts.exec_simulates (R := InRounds args) (P := fun _ a => a.Once)
    (fun _ _ _ _ h ha hstep => inRounds_step h hlen ha (.of_step hstep))
    ⟨steady_init hs, rfl, .inl ⟨gathering_init hs, fun _ => rfl⟩⟩
    (Lts.along_of_forall fun a ha _ => honce a ha) he

/-- **The net refines bulk-synchronous rounds.** A server for as many clients as
there are, with ids of at most 57 bytes, and nobody starts over; whatever is
dropped or times out. The broadcasts made and the ticks received are a run of
rounds: each client receives the broadcasts in order, each once, and at every
broadcast all clients have received all those before it. -/
theorem net_refines_rounds (hlen : ∀ c, (args c).id.length ≤ 57) {iv : UInt64} {s : Server}
    (hs : ServerReady (Fintype.card ι) iv s) {acts : List (Act ι)} (honce : ∀ a ∈ acts, a.Once)
    (he : Lts.exec (Net.step args) (Net.init ι s) acts = some σ) :
    (∃ r, Lts.exec Rounds.step (.init ι UInt64)
        (Lts.trace (Net.step args) Net.shows (Net.init ι s) acts) = some r ∧
      r.announced = σ.broadcasts) ∧
    ∀ pre heard post, acts = pre ++ .broadcast heard :: post → ∀ c,
      Rounds.taken c (Lts.trace (Net.step args) Net.shows (Net.init ι s) pre) =
        Rounds.announcements (Lts.trace (Net.step args) Net.shows (Net.init ι s) pre) := by
  obtain ⟨r, hr, hin⟩ := exists_rounds hlen hs honce he
  refine ⟨⟨r, hr, hin.announced⟩, ?_⟩
  rintro pre heard post rfl c
  obtain ⟨τ, hτ, hpost⟩ := Lts.exec_append_eq_some.mp he
  obtain ⟨τ', hτ', -⟩ := Lts.exec_cons_eq_some.mp hpost
  rw [Lts.trace_append hτ, Lts.trace_cons hτ'] at hr
  exact Rounds.taken_of_announce hr c

theorem net_refines_rounds_two_clients :
    let args := ![ClientArgs.named [97] (by decide) (by decide),
      ClientArgs.named [98] (by decide) (by decide)]
    let acts := join 0 ++ .client 0 .subscribe :: join 1 ++ [.client 1 .subscribe,
      .broadcast fun _ => true, .client 1 .tick, .client 1 .send, .client 0 .tick, .request 1,
      .answer, .client 0 .send, .request 0, .answer, .broadcast fun _ => true]
    ∃ σ, Lts.exec (Net.step args) (Net.init (Fin 2) (.fresh 2 10)) acts = some σ ∧
      ∃ r, Lts.exec Rounds.step (.init (Fin 2) UInt64)
        (Lts.trace (Net.step args) Net.shows (Net.init (Fin 2) (.fresh 2 10)) acts) = some r ∧
          r.announced = σ.broadcasts :=
  have ⟨σ, h⟩ := Option.isSome_iff_exists.mp (by decide)
  ⟨σ, h, (net_refines_rounds (by decide) (serverReady_fresh (by decide) (by decide) (by decide))
    (by decide) h).1⟩

end Simulith
