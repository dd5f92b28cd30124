import Simulith.Net.Halt
import Simulith.Net.Monotone

/-!
# The end of a round

A net is at rest when nothing is left to do but to broadcast. When nothing is
lost it can always be brought to rest, and what it is then, every variable of
every client included, depends on the number of broadcasts made and not on the
schedule (`round_end`): `ClientArgs.ended` is a client at rest, computed from its
arguments, and `timesFrom` are the times it has been given.
-/

namespace Simulith

/-- `n` times from `t₀` on, spaced by the interval. -/
def timesFrom (t₀ iv : UInt64) (n : Nat) : List UInt64 :=
  (List.range n).map fun j => t₀ + UInt64.ofNat j * iv

theorem eq_timesFrom {t₀ iv : UInt64} {ts : List UInt64}
    (h : ∀ j t, ts[j]? = some t → t = t₀ + UInt64.ofNat j * iv) :
    ts = timesFrom t₀ iv ts.length := by
  refine List.ext_getElem (by simp [timesFrom]) fun j hj _ => ?_
  rw [h j _ (List.getElem?_eq_getElem hj)]
  simp [timesFrom]

/-! ## What a client keeps from its initialisation -/

/-- What a successful `simulith_client_init` leaves at program start. -/
def ClientArgs.opened (args : ClientArgs) : Client × Zmq :=
  (simulithClientInit .ok (some args.pubAddr) (some args.repAddr) (some args.id) args.rateNs .zero
    .empty).2

/-- A client that waits for the next tick and has been given these. -/
def ClientArgs.ended (args : ClientArgs) (times : List UInt64) : ClientEnd :=
  ⟨⟨args.opened.1, args.opened.2, .tick, if args.onTick then times else []⟩, .idle, true, []⟩

namespace ClientEnd

variable {args : ClientArgs} {e e' : ClientEnd} {b : ClientAct}

/-- Its variables are those of program start, or those its initialisation left. -/
structure Opened (args : ClientArgs) (e : ClientEnd) : Prop where
  before : e.run.pc = .start → e.run.client = .zero ∧ e.run.zmq = .empty
  after : e.run.pc ≠ .start → (e.run.client, e.run.zmq) = args.opened
  untold : args.onTick = false → e.run.ticks = []

theorem opened_zero (args : ClientArgs) : zero.Opened args :=
  ⟨fun _ => ⟨rfl, rfl⟩, fun h => absurd rfl h, fun _ => rfl⟩

theorem Opened.of_run (h : e.Opened args) (hrun : e'.run = e.run) : e'.Opened args := by
  obtain ⟨before, after, untold⟩ := h
  rw [← hrun] at before after untold
  exact ⟨before, after, untold⟩

theorem Opened.go {e e' : ClientEnd} (h : e.Opened args) (hpc : e.run.pc ≠ .start)
    (hpc' : e'.run.pc ≠ .start)
    (hrun : e'.run.client = e.run.client ∧ e'.run.zmq = e.run.zmq ∧
      (args.onTick = false → e'.run.ticks = e.run.ticks)) : e'.Opened args where
  before h' := absurd h' hpc'
  after _ := by
    rw [hrun.1, hrun.2.1]
    exact h.after hpc
  untold on := (hrun.2.2 on).trans (h.untold on)

theorem Opened.init (h : e.Opened args) (hs : e.step args (.init .ok) = some e') :
    e'.Opened args := by
  obtain ⟨r, hr, rfl⟩ := Option.map_eq_some_iff.mp hs
  obtain ⟨hp, hpc, -, ht, -⟩ := ClientRun.step_init hr
  refine ⟨fun h' => ?_, fun _ => ?_, fun on => ht.trans (h.untold on)⟩
  · simp only at h'
    rcases hpc with hpc | hpc <;> rw [hpc] at h' <;> cases h'
  · simp only [ClientRun.step, if_pos hp, (h.before hp).1, (h.before hp).2, Option.some.injEq] at hr
    subst hr
    rfl

theorem Opened.step (h : e.Opened args) (hinit : ∀ o, b = .init o → o = .ok)
    (hrestart : b ≠ .restart) (hs : e.step args b = some e') : e'.Opened args := by
  by_cases hb : ∃ o, b = .init o
  · obtain ⟨o, rfl⟩ := hb
    obtain rfl := hinit o rfl
    exact h.init hs
  · cases EndStep.of_step hs with
    | init o => exact absurd ⟨o, rfl⟩ hb
    | subscribe => exact h.of_run rfl
    | sendReady hp => exact h.go (by simp [hp]) (by simp) ⟨rfl, rfl, fun _ => rfl⟩
    | sendAck hp => exact h.go (by simp [hp]) (by simp) ⟨rfl, rfl, fun _ => rfl⟩
    | sendFail hp => exact h.go (by simp [hp]) (by simp) ⟨rfl, rfl, fun _ => rfl⟩
    | joinReply m hp =>
      refine h.go (by simp [hp]) ?_ ?_
      · rcases e.run.handshakeReceived_pc m with hp | hp | hp <;> simp [hp]
      · unfold ClientRun.handshakeReceived
        split <;> exact ⟨rfl, rfl, fun _ => rfl⟩
    | ackReply m hp => exact h.go (by simp [hp]) (by simp) ⟨rfl, rfl, fun _ => rfl⟩
    | timeout hp => exact h.go (by simp [hp]) (by simp) ⟨rfl, rfl, fun _ => rfl⟩
    | tick t feed hp =>
      exact h.go (by simp [hp]) (by simp) ⟨rfl, rfl, fun on => if_neg (by simp [on])⟩
    | restart => exact absurd rfl hrestart

/-- A client is up to date and with nothing to do in one way only. -/
theorem Opened.eq_ended {times : List UInt64} (h : e.Opened args) (hp : e.run.pc = .tick)
    (hr : e.requester = .idle) (hsub : e.subscribed = true) (hu : e.UpToDate args times) :
    e = args.ended times := by
  obtain ⟨⟨client, zmq, pc, ticks⟩, requester, subscribed, feed⟩ := e
  have hopened := h.after (by rw [hp]; exact nofun)
  have hticks : ticks = if args.onTick then times else [] := by
    cases on : args.onTick with
    | true => exact hu.ticks on
    | false => exact h.untold on
  have hfeed := hu.feed
  dsimp only at hp hr hsub hopened hfeed
  subst hp hr hsub hfeed hticks
  rw [ClientArgs.ended, ← hopened]

end ClientEnd

variable {ι : Type*} [DecidableEq ι] {args : ι → ClientArgs} {σ σ' : Net ι} {a : Act ι}
  {acts : List (Act ι)}

theorem opened_step (h : ∀ c, (σ.ends c).Opened (args c)) (ha : a.Lossless σ)
    (hs : σ.step args a = some σ') (c : ι) : (σ'.ends c).Opened (args c) := by
  cases a with
  | client c' b =>
    obtain ⟨e, he, rfl⟩ := Option.map_eq_some_iff.mp hs
    refine Net.forall_setEnd (p := fun c e => e.Opened (args c)) ?_ (fun c _ => h c) c
    refine (h c').step (fun o hb => ?_) (fun hb => ?_) he
    · subst hb
      exact ha
    · subst hb
      exact ha
  | request c' =>
    cases NetStep.of_step hs with
    | request _ m τ _ _ =>
      have hheld : ({ σ.ends c' with requester := .held } : ClientEnd).Opened (args c') :=
        (h c').of_run rfl
      exact Net.forall_setEnd (p := fun c e => e.Opened (args c)) hheld (fun c _ => h c) c
  | requestStale k =>
    cases NetStep.of_step hs with
    | requestStale => exact h c
  | answer =>
    cases NetStep.of_step hs with
    | answer => exact (h c).of_run rfl
  | broadcast heard =>
    cases NetStep.of_step hs with
    | broadcast => exact (h c).of_run (ClientEnd.deliver_run ..)

/-! ## At rest -/

/-- No lossless step is left but a broadcast. -/
def Net.AtRest (args : ι → ClientArgs) (σ : Net ι) : Prop :=
  ∀ a σ', a.Lossless σ → a.SubscribesOnce σ → σ.step args a = some σ' → a.isBroadcast = true

variable [Fintype ι]

theorem Live.rest (h : Live args σ) (hlen : ∀ c, (args c).id.length ≤ 57)
    (hdistinct : ∀ c c', (args c).id = (args c').id → c = c') (hrest : σ.AtRest args) :
    σ.server.pc = .broadcast ∧ ∀ c, (σ.ends c).run.pc = .tick ∧ (σ.ends c).requester = .idle ∧
      (σ.ends c).subscribed = true ∧ (σ.ends c).UpToDate (args c) σ.broadcasts := by
  obtain ⟨a, σ', ha, hs, hon⟩ := h.progress hlen hdistinct
  have hb := hrest a σ' ha (subscribesOnce_of_work_lt (.of_step hs) hon) hs
  have hpc : σ.server.pc = .broadcast := by
    cases NetStep.of_step hs with
    | broadcast _ τ hτ => exact (pc_publish hτ).1
    | _ => cases hb
  refine ⟨hpc, fun c => ?_⟩
  obtain ⟨hr, hu⟩ : (σ.ends c).Resting ∧ (σ.ends c).UpToDate (args c) σ.broadcasts := by
    rcases h.phase with hg | ht
    · exact hg.ready h.steady hpc c
    · exact ht.ready h.steady hpc c
  have hmoves : ∀ b, (Act.client c b).Lossless σ → (Act.client c b).SubscribesOnce σ →
      ((σ.ends c).step (args c) b).isSome = false := by
    intro b hb ho
    by_contra hne
    obtain ⟨e, he⟩ := Option.isSome_iff_exists.mp (Bool.not_eq_false _ ▸ hne)
    exact absurd (hrest _ _ hb ho (congrArg (Option.map _) he)) (by simp [Act.isBroadcast])
  have hquiet : ∀ m, (σ.ends c).run.pc = .await ∨ (σ.ends c).run.pc = .ackWait →
      (σ.ends c).requester ≠ .replied m := by
    intro m hp hm
    have := hmoves .reply trivial trivial
    rw [ClientEnd.step_reply_isSome hp hm] at this
    cases this
  have hsub : (σ.ends c).subscribed = true := by
    by_contra hn
    have := hmoves .subscribe trivial (show (σ.ends c).subscribed = false by simpa using hn)
    rw [ClientEnd.step_subscribe_isSome hr.begun] at this
    cases this
  cases hr with
  | tick hp hr => exact ⟨hp, hr, hsub, hu⟩
  | joining hp hr => exact absurd hr (hquiet _ (.inl hp))
  | acked m hp hr => exact absurd hr (hquiet m (.inr hp))
  | failed m hp _ =>
    rcases h.inside c with ho | hj | ⟨hp', -⟩
    · simp [ClientEnd.Outside, hp] at ho
    · rw [hp] at hj; exact hj.elim
    · rw [hp] at hp'; cases hp'

theorem Rolling.rest_reachable (h : Rolling args σ) (hlen : ∀ c, (args c).id.length ≤ 57)
    (hdistinct : ∀ c c', (args c).id = (args c').id → c = c') :
    ∃ more τ, Lts.Along (Net.step args) (fun σ a => a.Lossless σ ∧ a.isBroadcast = false) σ more ∧
      Lts.exec (Net.step args) σ more = some τ ∧ τ.AtRest args := by
  have hstep : ∀ σ a σ', Rolling args σ → (a.Lossless σ ∧ a.isBroadcast = false) →
      σ.step args a = some σ' → Rolling args σ' :=
    fun _ _ _ h ha hs => h.step hlen hdistinct ha.1 (.of_step hs)
  have hprog : ∀ σ, Rolling args σ → σ.AtRest args ∨ ∃ a σ',
      (a.Lossless σ ∧ a.isBroadcast = false) ∧ σ.step args a = some σ' ∧
        σ'.work args < σ.work args := by
    refine fun σ h => or_iff_not_imp_left.mpr fun hn => ?_
    unfold Net.AtRest at hn
    push Not at hn
    obtain ⟨a, σ', ha, ho, hs, hb⟩ := hn
    refine ⟨a, σ', ⟨ha, by simpa using hb⟩, hs, h.live.work_lt hlen ha ho ?_ (.of_step hs)⟩
    rintro heard rfl
    exact hb rfl
  obtain ⟨more, τ, hA, hτ, -, hrest⟩ :=
    Lts.exists_exec_state (G := Net.AtRest args) (Net.work args) hstep hprog h
  exact ⟨more, τ, hA, hτ, hrest⟩

omit [DecidableEq ι] in
theorem Live.mem_ids_iff (h : Live args σ) (hpc : σ.server.pc = .broadcast) (x : List UInt8) :
    x ∈ σ.server.ids ↔ ∃ c, (args c).id = x := by
  rcases h.phase with hg | ht
  · refine ⟨fun hx => ?_, ?_⟩
    · obtain ⟨c, hc, -⟩ := hg.owner x hx
      exact ⟨c, hc⟩
    · rintro ⟨c, rfl⟩
      exact (hg.full h.steady hpc).2.1 c
  · refine ⟨ht.owner x, ?_⟩
    rintro ⟨c, rfl⟩
    exact ht.member c

theorem rolling_exec (hlen : ∀ c, (args c).id.length ≤ 57)
    (hdistinct : ∀ c c', (args c).id = (args c').id → c = c') {iv : UInt64} {s : Server}
    (hs : ServerReady (Fintype.card ι) iv s)
    (hP : Lts.Along (Net.step args) (fun σ a => a.Lossless σ) (Net.init ι s) acts)
    (he : Lts.exec (Net.step args) (Net.init ι s) acts = some σ) : Rolling args σ :=
  Lts.exec_invariant (fun _ _ _ h ha hs => h.step hlen hdistinct ha (.of_step hs))
    ⟨live_init hs, fun h => absurd rfl h⟩ hP he

/-- At rest the times broadcast, the clients and the clock follow from the number of broadcasts. -/
theorem ended_of_rest (hlen : ∀ c, (args c).id.length ≤ 57)
    (hdistinct : ∀ c c', (args c).id = (args c').id → c = c') {iv : UInt64} {s : Server}
    (hs : ServerReady (Fintype.card ι) iv s)
    (hP : Lts.Along (Net.step args) (fun σ a => a.Lossless σ) (Net.init ι s) acts)
    (he : Lts.exec (Net.step args) (Net.init ι s) acts = some σ) (hrest : σ.AtRest args) :
    σ.broadcasts = timesFrom s.currentTimeNs iv σ.broadcasts.length ∧
      (∀ c, σ.ends c = (args c).ended σ.broadcasts) ∧
      σ.server.pc = .broadcast ∧
      σ.server.server.currentTimeNs =
        s.currentTimeNs + UInt64.ofNat σ.broadcasts.length * iv ∧
      ∀ x, x ∈ σ.server.ids ↔ ∃ c, (args c).id = x := by
  have hroll := rolling_exec hlen hdistinct hs hP he
  have hopened : ∀ c, (σ.ends c).Opened (args c) := Lts.exec_invariant
    (I := fun σ : Net ι => ∀ c, (σ.ends c).Opened (args c))
    (fun _ _ _ h ha hs => opened_step h ha hs) (fun c => ClientEnd.opened_zero (args c)) hP he
  obtain ⟨hpc, hends⟩ := hroll.live.rest hlen hdistinct hrest
  obtain ⟨cs, hcs, hpub⟩ := exists_server_calls he
  have hclock := clock_run hs.spec.2.1 hcs
  rw [← hpub]
  refine ⟨eq_timesFrom hclock.times, fun c => ?_, hpc, ?_, hroll.live.mem_ids_iff hpc⟩
  · obtain ⟨hp, hr, hsub, hu⟩ := hends c
    rw [hpub]
    exact (hopened c).eq_ended hp hr hsub hu
  · have hnext := hclock.next (by rw [hpc]; exact nofun)
    rwa [ServerRun.nextTime, hpc] at hnext

/-- **The end of a round.** A server for as many clients as there are, with
distinct ids of at most 57 bytes; nothing is lost and nobody gives up. Whatever
the schedule has been, the net can be brought to rest without a broadcast, and
once at rest it is determined, clients, clock and registered ids, by the number
of broadcasts made. -/
theorem round_end (hlen : ∀ c, (args c).id.length ≤ 57)
    (hdistinct : ∀ c c', (args c).id = (args c').id → c = c') {iv : UInt64} {s : Server}
    (hs : ServerReady (Fintype.card ι) iv s)
    (hP : Lts.Along (Net.step args) (fun σ a => a.Lossless σ) (Net.init ι s) acts)
    (he : Lts.exec (Net.step args) (Net.init ι s) acts = some σ) :
    (∃ more τ, Lts.Along (Net.step args) (fun σ a => a.Lossless σ ∧ a.isBroadcast = false) σ more ∧
      Lts.exec (Net.step args) σ more = some τ ∧ τ.AtRest args) ∧
    (σ.AtRest args →
      σ.broadcasts = timesFrom s.currentTimeNs iv σ.broadcasts.length ∧
      (∀ c, σ.ends c = (args c).ended σ.broadcasts) ∧
      σ.server.pc = .broadcast ∧
      σ.server.server.currentTimeNs =
        s.currentTimeNs + UInt64.ofNat σ.broadcasts.length * iv ∧
      ∀ x, x ∈ σ.server.ids ↔ ∃ c, (args c).id = x) :=
  ⟨(rolling_exec hlen hdistinct hs hP he).rest_reachable hlen hdistinct,
    ended_of_rest hlen hdistinct hs hP he⟩

/-- Two clients, one of which has no `on_tick`, at the end of the first round. -/
theorem round_end_two_clients :
    let args := ![ClientArgs.named [97] (by decide) (by decide),
      { ClientArgs.named [98] (by decide) (by decide) with onTick := false }]
    let acts := join 0 ++ .client 0 .subscribe :: join 1 ++ [.client 1 .subscribe,
      .broadcast fun _ => true, .client 0 .tick, .client 1 .tick, .client 1 .send]
    ∃ more σ, Lts.exec (Net.step args) (Net.init (Fin 2) (.fresh 2 10)) (acts ++ more) = some σ ∧
      σ.AtRest args ∧ σ.broadcasts = timesFrom 0 10 σ.broadcasts.length ∧
      ∀ c, σ.ends c = (args c).ended σ.broadcasts := by
  intro args acts
  have hready : ServerReady (Fintype.card (Fin 2)) 10 (.fresh 2 10) :=
    serverReady_fresh (by decide) (by decide) (by decide)
  obtain ⟨σ, hσ⟩ := Option.isSome_iff_exists.mp (show (Lts.exec (Net.step args)
    (Net.init (Fin 2) (.fresh 2 10)) acts).isSome = true by decide)
  have hP : Lts.Along (Net.step args) (fun σ a => a.Lossless σ) (Net.init (Fin 2) (.fresh 2 10))
      acts := by decide
  obtain ⟨more, τ, hA, hτ, hrest⟩ := (round_end (by decide) (by decide) hready hP hσ).1
  have hrun := Lts.exec_append_eq_some.mpr ⟨σ, hσ, hτ⟩
  have hend := (round_end (by decide) (by decide) hready
    (hP.append hσ (hA.mono fun _ _ h => h.1)) hrun).2 hrest
  exact ⟨more, τ, hrun, hrest, hend.1, hend.2.1⟩

end Simulith
