import Mathlib.Algebra.Order.BigOperators.Group.Finset
import Simulith.Net.Lockstep

/-!
# The server can always broadcast again

When nothing is lost (`Act.Lossless`) and the ids are distinct, every client is
either on its way to being registered or admitted (`Live`). From any such state
some act brings a client nearer to the end of the round, by `Net.work`, until
the server broadcasts: `Live.progress`, and from it `broadcast_reachable` by the
rule `Lts.exists_exec_goal`.
-/

namespace Simulith

/-! ## The work left of one client -/

namespace ClientEnd

/-- The acts left until the server has the client's ack and the client its reply. -/
def rank (e : ClientEnd) (responded : Bool) : Nat :=
  match e.run.pc, e.requester with
  | .start, _ => 10
  | .ready, _ => 9
  | .await, .sent _ => 8
  | .await, .held => 7
  | .await, _ => 6
  | .tick, _ => if responded then 0 else 5
  | .ack, _ => 4
  | .ackWait, .sent _ => 3
  | .ackWait, .held => 2
  | .ackWait, _ => if responded then 1 else 6
  | _, _ => 0

/-- With its subscription, if that has not been processed. -/
def work (e : ClientEnd) (responded : Bool) : Nat :=
  e.rank responded + if e.subscribed then 0 else 1

variable {args : ClientArgs} {e e' : ClientEnd} {a : ClientAct} {responded : Bool}

/-- The acts by which a client gets on. -/
def Forward (e : ClientEnd) (responded : Bool) : ClientAct → Prop
  | .init o => o = .ok
  | .subscribe => e.subscribed = false
  | .send => True
  | .reply => True
  | .tick => responded = false
  | _ => False

theorem work_endStep (hs : EndStep args e a e') (ha : e.Forward responded a) :
    e'.work responded < e.work responded := by
  cases hs with
  | init o r hp _ hok =>
    simp [work, rank, hp, hok ha]
  | subscribe => simp [work, rank, show e.subscribed = false from ha]
  | sendReady hp => simp [work, rank, hp]
  | sendAck hp => simp [work, rank, hp]
  | joinReply m hp hm =>
    have hpc : (e.run.handshakeReceived m).pc = .tick ∨ (e.run.handshakeReceived m).pc = .failed ∨
        (e.run.handshakeReceived m).pc = .undefined := by
      unfold ClientRun.handshakeReceived
      split
      · exact .inr (.inr rfl)
      · simp only
        split
        · exact .inl rfl
        · exact .inr (.inl rfl)
    rcases hpc with hpc | hpc | hpc <;> simp only [work, rank, hp, hm, hpc] <;>
      cases responded <;> simp
  | ackReply m hp hm => cases responded <;> simp [work, rank, hp, hm]
  | tick t feed hp => simp [work, rank, hp, show responded = false from ha]
  | sendFail => exact ha.elim
  | timeout => exact ha.elim
  | restart => exact ha.elim

theorem work_answer (m : Msg) (hh : e.requester = .held)
    (hp : e.run.pc = .await ∨ (e.run.pc = .ackWait ∧ responded = true)) :
    (e.answer m).work responded < e.work responded := by
  refine Nat.add_lt_add_right ?_ _
  rcases hp with hp | ⟨hp, rfl⟩ <;>
    simp only [rank, answer, Requester.answer, hp, hh, if_true] <;> decide

/-! What a client can do. -/

theorem step_init_isSome (hp : e.run.pc = .start) (o : ClientOutcome) :
    (e.step args (.init o)).isSome := by
  simp [step, ClientRun.step, hp]

theorem step_subscribe_isSome (hp : e.run.pc ≠ .start) : (e.step args .subscribe).isSome := by
  simp [step, hp]

theorem step_send_isSome (hp : e.run.pc = .ready ∨ e.run.pc = .ack) (hr : e.requester = .idle) :
    (e.step args .send).isSome := by
  rcases hp with hp | hp <;> simp [step, ClientRun.step, ClientRun.toSend, hp, hr]

theorem step_reply_isSome (hp : e.run.pc = .await ∨ e.run.pc = .ackWait) {m : Msg}
    (hr : e.requester = .replied m) : (e.step args .reply).isSome := by
  rcases hp with hp | hp <;> simp [step, ClientRun.step, hp, hr]

theorem step_tick_isSome (hp : e.run.pc = .tick) {t : UInt64} {feed : List UInt64}
    (hf : e.feed = t :: feed) : (e.step args .tick).isSome := by
  simp [step, ClientRun.step, hp, hf]

theorem held_endStep (hs : EndStep args e a e') (ha : a ≠ .restart) (h : e.requester = .held) :
    e'.requester = .held := by
  cases hs with
  | restart => exact absurd rfl ha
  | sendReady _ hr => rw [h] at hr; cases hr
  | sendAck _ hr => rw [h] at hr; cases hr
  | joinReply _ _ hr => rw [h] at hr; cases hr
  | ackReply _ _ hr => rw [h] at hr; cases hr
  | _ => exact h

/-- Not registered yet. -/
def Outside (e : ClientEnd) : Prop :=
  e.run.pc = .start ∨ e.run.pc = .ready ∨ (e.run.pc = .await ∧ ∃ m, e.requester = .sent m)

end ClientEnd

variable {ι : Type*} {args : ι → ClientArgs} {σ σ' : Net ι} {a : Act ι}

/-- Nothing is lost in the step, and nobody gives up. -/
def Act.Lossless (σ : Net ι) : Act ι → Prop
  | .client _ (.init o) => o = .ok
  | .client _ .sendFail => False
  | .client _ .timeout => False
  | .client _ .restart => False
  | .broadcast heard => ∀ c, (σ.ends c).run.pc ≠ .start →
      heard c = true ∧ (σ.ends c).subscribed = true
  | _ => True

instance [Fintype ι] (σ : Net ι) (a : Act ι) : Decidable (a.Lossless σ) :=
  match a with
  | .client _ (.init o) => inferInstanceAs (Decidable (o = .ok))
  | .client _ .sendFail => isFalse id
  | .client _ .timeout => isFalse id
  | .client _ .restart => isFalse id
  | .client _ .subscribe => isTrue trivial
  | .client _ .send => isTrue trivial
  | .client _ .reply => isTrue trivial
  | .client _ .tick => isTrue trivial
  | .request _ => isTrue trivial
  | .requestStale _ => isTrue trivial
  | .answer => isTrue trivial
  | .broadcast _ => inferInstanceAs (Decidable (∀ _, _ → _ ∧ _))

theorem Act.Lossless.once (h : a.Lossless σ) : a.Once := by
  cases a with
  | client c b => cases b <;> trivial
  | _ => trivial

theorem Act.Lossless.heard (h : a.Lossless σ) : a.Heard σ := by
  cases a with
  | broadcast heard => exact h
  | _ => trivial

theorem ClientEnd.Outside.endStep {args : ClientArgs} {e e' : ClientEnd} {b : ClientAct} {c : ι}
    (h : e.Outside) (hs : EndStep args e b e') (ha : (Act.client c b).Lossless σ) :
    e'.Outside := by
  cases hs with
  | init o r _ _ hok _ _ => exact .inr (.inl (hok ha))
  | subscribe _ => exact h
  | sendReady _ _ => exact .inr (.inr ⟨rfl, _, rfl⟩)
  | sendFail => exact ha.elim
  | timeout => exact ha.elim
  | restart => exact ha.elim
  | joinReply m hp hm => simp [ClientEnd.Outside, hp, hm] at h
  | sendAck hp => simp [ClientEnd.Outside, hp] at h
  | ackReply m hp => simp [ClientEnd.Outside, hp] at h
  | tick t feed hp => simp [ClientEnd.Outside, hp] at h

/-- Nothing has been lost so far. -/
structure Live [Fintype ι] (args : ι → ClientArgs) (σ : Net ι) : Prop where
  steady : Steady args (Fintype.card ι) σ
  phase : Gathering args σ ∨ Ticking args True σ
  inside : ∀ c, (σ.ends c).Outside ∨ σ.Admitted c
  member : ∀ c, σ.Admitted c → (args c).id ∈ σ.server.ids
  holder : σ.server.owes = true → ∃ c, (σ.ends c).requester = .held
  waits : σ.server.pc = .tickRecv → σ.server.server.allClientsResponded = false

theorem Gathering.pc_of_recv (h : Gathering args σ) {m : Msg} {τ : ServerRun}
    (hs : σ.server.step (.recv m) = some τ) : σ.server.pc = .handshakeRecv := by
  obtain ⟨t, iv, he⟩ := h.early
  rw [step_eq_some] at hs
  cases hs with
  | handshakeRecv _ hpc _ => exact hpc
  | tickRecv _ hpc _ => rcases he.pc with hp | hp <;> rw [hpc] at hp <;> cases hp

theorem Gathering.no_flag (h : Gathering args σ) (x : List UInt8) :
    ¬ σ.server.server.HasResponded x := by
  obtain ⟨t, iv, he⟩ := h.early
  rintro ⟨c, hc, -, hr⟩
  have := he.quiet c (List.mem_of_mem_take hc)
  rw [hr] at this
  cases this

variable [DecidableEq ι] [Fintype ι]

/-- The READY of a client outside is new to the server, and answered ACK. -/
theorem Live.admitted_of_request (h : Live args σ) (hlen : ∀ c, (args c).id.length ≤ 57)
    (hdistinct : ∀ c c', (args c).id = (args c').id → c = c') {c : ι}
    (hc : (σ.ends c).Outside) (hreq : NetStep args σ (.request c) σ') : σ'.Admitted c := by
  have hreq' := hreq
  cases hreq with
  | request _ m τ hm hs =>
    have hp : (σ.ends c).run.pc = .await := by
      rcases (h.steady.wired.ends c).sent hm with ⟨hp | hp, -⟩ | ⟨hp, -⟩
      · exact hp
      · simp [ClientEnd.Outside, hp] at hc
      · simp [ClientEnd.Outside, hp] at hc
    rcases h.phase with hg | ht
    · -- the owner of a registered id has had its READY answered
      have hnew : (args c).id ∉ σ.server.ids := by
        intro hx
        obtain ⟨c', hc', hen⟩ := hg.owner _ hx
        obtain rfl := hdistinct _ _ hc'
        rcases hen with (hj | ⟨-, hg | ⟨hg, -⟩⟩) | ⟨hf, -⟩
        · rw [hp] at hj; cases hj
        · rw [hm] at hg; cases hg
        · rw [hm] at hg; cases hg
        · rw [hp] at hf; cases hf
      have hfit := h.steady.wired.fits hlen hm
      have hack := ack_of_new h.steady.inv (hg.pc_of_recv hs) (by have := hfit.1; omega)
        (by have := hfit.2; omega) (handshakeId_sent h.steady.wired hlen hp hm) (args c).id_ne
        hnew hs
      obtain ⟨hp', hgr⟩ := granted_of_ack hreq' hack
      exact .inr ⟨hp'.trans hp, hgr⟩
    · have := ((ht.placed c).acking hm).1
      rw [hp] at this
      cases this

omit [DecidableEq ι] [Fintype ι] in
theorem ClientEnd.Outside.not_held {e : ClientEnd} (h : e.Outside) (hw : e.Wired) :
    e.requester ≠ .held := by
  intro hh
  rcases h with hp | hp | ⟨-, m, hm⟩
  · rw [hw.idle (.inl hp)] at hh; cases hh
  · rw [hw.idle (.inr (.inl hp))] at hh; cases hh
  · rw [hm] at hh; cases hh

theorem Live.outside_step (h : Live args σ) (hlen : ∀ c, (args c).id.length ≤ 57)
    (hdistinct : ∀ c c', (args c).id = (args c').id → c = c') (ha : a.Lossless σ)
    (hs : NetStep args σ a σ') {c : ι} (hc : (σ.ends c).Outside) :
    (σ'.ends c).Outside ∨ σ'.Admitted c := by
  by_cases hac : a = .request c
  · subst hac
    exact .inr (h.admitted_of_request hlen hdistinct hc hs)
  left
  cases hs with
  | client c₀ b e he =>
    refine Net.forall_setEnd (σ := σ) (c := c₀) (e := e) (p := fun c e => (σ.ends c).Outside →
      e.Outside) ?_ (fun _ _ h => h) c hc
    exact fun h => h.endStep he ha
  | request c₀ m τ hm hs =>
    have hcc : c ≠ c₀ := by rintro rfl; exact hac rfl
    have he : (σ.setEnd c₀ { σ.ends c₀ with requester := .held }).ends c = σ.ends c :=
      Function.update_of_ne hcc _ _
    exact he ▸ hc
  | requestStale => exact hc
  | answer m τ _ _ =>
    simp only [ClientEnd.answer_of_not_held (hc.not_held (h.steady.wired.ends c))]
    exact hc
  | broadcast heard τ _ =>
    simpa only [ClientEnd.Outside, ClientEnd.deliver_run, ClientEnd.deliver_requester] using hc

theorem Live.member_step (h : Live args σ) (hs : NetStep args σ a σ') {c : ι}
    (hc : σ'.Admitted c) : (args c).id ∈ σ'.server.ids := by
  have hmono := hs.ids_subset h.steady.inv
  rcases hc.of_step h.steady.wired hs with hc | ⟨rfl, hp, hack⟩ | ⟨-, -, -, htick⟩
  · exact hmono (h.member c hc)
  · rw [(registered_id h.steady.wired h.steady.inv hs (.inl hp) hack).2]
    exact List.mem_append_right _ (List.mem_singleton_self _)
  · rcases h.phase with hg | ht
    · obtain ⟨t, iv, he⟩ := hg.early
      rcases he.pc with hp' | hp' <;> rw [htick] at hp' <;> cases hp'
    · exact hmono (ht.member c)

theorem Live.holder_step (h : Live args σ) (ha : a.Lossless σ) (hs : NetStep args σ a σ')
    (ho : σ'.server.owes = true) : ∃ c, (σ'.ends c).requester = .held := by
  cases hs with
  | client c₀ b e he =>
    obtain ⟨c, hc⟩ := h.holder ho
    refine ⟨c, ?_⟩
    refine Net.forall_setEnd (σ := σ) (c := c₀) (e := e) (p := fun c e =>
      (σ.ends c).requester = .held → e.requester = .held) ?_ (fun _ _ h => h) c hc
    exact ClientEnd.held_endStep he (by rintro rfl; exact ha)
  | request c m τ hm hs => exact ⟨c, by simp only [Net.setEnd, Function.update_self]⟩
  | requestStale k m τ hm hs =>
    rw [h.steady.stale] at hm
    cases hm
  | answer m τ _ hs =>
    have := owes_send hs
    rw [show τ.owes = true from ho] at this
    cases this
  | broadcast heard τ hs =>
    obtain ⟨c, hc⟩ := h.holder ((pc_publish hs).2.2 ▸ ho)
    exact ⟨c, (ClientEnd.deliver_requester _ _ _).trans hc⟩

theorem Live.step (h : Live args σ) (hlen : ∀ c, (args c).id.length ≤ 57)
    (hdistinct : ∀ c c', (args c).id = (args c').id → c = c') (ha : a.Lossless σ)
    (hs : NetStep args σ a σ') : Live args σ' where
  steady := h.steady.step hlen ha.once hs
  phase := gathering_or_ticking_step h.steady h.phase hlen ha.once (fun _ => ha.heard) hs
  inside c := by
    rcases h.inside c with hc | hc
    · exact h.outside_step hlen hdistinct ha hs hc
    · refine .inr (hc.step h.steady.wired hs ?_)
      rintro rfl
      exact ha
  member _ hc := h.member_step hs hc
  holder := h.holder_step ha hs
  waits := by
    rcases hs.server with e | ⟨c, hc⟩
    · rw [e]; exact h.waits
    · exact waits_step h.waits hc

/-! ## Getting on -/

/-- The server has the client's ack. -/
def Net.responded (args : ι → ClientArgs) (σ : Net ι) (c : ι) : Bool :=
  decide (σ.server.server.HasResponded (args c).id)

def Net.work (args : ι → ClientArgs) (σ : Net ι) : Nat :=
  ∑ c, (σ.ends c).work (σ.responded args c)

omit [DecidableEq ι] in
theorem Net.work_lt (c : ι) (hc : (σ'.ends c).work (σ'.responded args c) <
      (σ.ends c).work (σ.responded args c))
    (hne : ∀ c', c' ≠ c → (σ'.ends c').work (σ'.responded args c') =
      (σ.ends c').work (σ.responded args c')) : σ'.work args < σ.work args := by
  classical
  refine Finset.sum_lt_sum (fun c' _ => ?_) ⟨c, Finset.mem_univ c, hc⟩
  by_cases h : c' = c
  · rw [h]
    exact hc.le
  · exact (hne c' h).le

/-- A step by which the server broadcasts, or comes nearer to it. -/
def GetsOn (args : ι → ClientArgs) (σ : Net ι) : Prop :=
  ∃ a σ', a.Lossless σ ∧ σ.step args a = some σ' ∧
    ((∃ heard, a = .broadcast heard) ∨ σ'.work args < σ.work args)

omit [DecidableEq ι] [Fintype ι] in
theorem ClientEnd.Forward.lossless {e : ClientEnd} {responded : Bool} {b : ClientAct} (c : ι)
    (h : e.Forward responded b) : (Act.client c b).Lossless σ := by
  cases b with
  | init o => exact h
  | sendFail => exact h
  | timeout => exact h
  | restart => exact h
  | _ => trivial

theorem work_lt_client {c : ι} {b : ClientAct} (hs : NetStep args σ (.client c b) σ')
    (hf : (σ.ends c).Forward (σ.responded args c) b) : σ'.work args < σ.work args := by
  cases hs with
  | client _ _ e he =>
    refine Net.work_lt c ?_ fun c' hc' => ?_
    · simp only [Net.setEnd, Function.update_self]
      exact ClientEnd.work_endStep he hf
    · simp only [Net.setEnd, Function.update_of_ne hc', Net.responded]
      rfl

theorem getsOn_client {c : ι} {b : ClientAct} (hs : ((σ.ends c).step (args c) b).isSome)
    (hf : (σ.ends c).Forward (σ.responded args c) b) : GetsOn args σ := by
  obtain ⟨e, he⟩ := Option.isSome_iff_exists.mp hs
  exact ⟨.client c b, _, hf.lossless c, congrArg (Option.map _) he,
    .inr (work_lt_client (.client c b e (.of_step he)) hf)⟩

theorem work_lt_request {c : ι} (hs : NetStep args σ (.request c) σ')
    (hp : (σ.ends c).run.pc = .await ∨ (σ.ends c).run.pc = .ackWait)
    (hflags : ∀ c', c' ≠ c → (σ'.server.server.HasResponded (args c').id ↔
      σ.server.server.HasResponded (args c').id)) : σ'.work args < σ.work args := by
  cases hs with
  | request _ m τ hm _ =>
    refine Net.work_lt c ?_ fun c' hc' => ?_
    · simp only [Net.setEnd, Function.update_self, ClientEnd.work]
      rcases hp with hp | hp <;> simp only [ClientEnd.rank, hp, hm] <;> omega
    · simp only [Net.setEnd, Function.update_of_ne hc', Net.responded, hflags c' hc']

theorem getsOn_request {c : ι} {m : Msg} {τ : ServerRun} (hm : (σ.ends c).requester = .sent m)
    (hp : (σ.ends c).run.pc = .await ∨ (σ.ends c).run.pc = .ackWait)
    (hs : σ.server.step (.recv m) = some τ)
    (hflags : ∀ c', c' ≠ c → (τ.server.HasResponded (args c').id ↔
      σ.server.server.HasResponded (args c').id)) : GetsOn args σ := by
  refine ⟨.request c, { σ.setEnd c { σ.ends c with requester := .held } with server := τ }, trivial,
    ?_, .inr (work_lt_request (.request c m τ hm hs) hp hflags)⟩
  simp only [Net.step, hm, hs, Option.map_some]

theorem Live.work_lt_answer (h : Live args σ) (hlen : ∀ c, (args c).id.length ≤ 57)
    (hstep : NetStep args σ .answer σ') : σ'.work args < σ.work args := by
  have hstep' := hstep
  cases hstep with
  | answer m τ hm hs =>
  have hsend : σ.server.pc.Sending := by
    rcases toSend_cases hm with ⟨r, hp, -⟩ | ⟨hp, -⟩ <;> rw [hp] <;> trivial
  obtain ⟨c, hc⟩ := h.holder (h.steady.well.owes.mpr hsend)
  -- no flag changes
  have hflags : ∀ c, τ.server.HasResponded (args c).id ↔
      σ.server.server.HasResponded (args c).id := by
    rcases h.phase with hg | ht
    · have hg' := hg.step h.steady hlen (show (Act.answer : Act ι).Once from trivial)
        (by rintro _ ⟨⟩) hstep'
      exact fun c => iff_of_false (hg'.no_flag _) (hg.no_flag _)
    · exact fun c => (tickSend_spec h.steady.inv ht.tick hs).2.2.1 _
  refine Net.work_lt c ?_ fun c' hc' => ?_
  · simp only [Net.responded, hflags]
    refine ClientEnd.work_answer m hc ?_
    have hwired := h.steady.wired.ends c
    rcases h.inside c with ho | hj | ⟨hp, -⟩
    · exact absurd hc (ho.not_held hwired)
    · cases hpc : (σ.ends c).run.pc with
      | tick => rw [hwired.idle (by simp [hpc])] at hc; cases hc
      | ack => rw [hwired.idle (by simp [hpc])] at hc; cases hc
      | ackWait =>
        -- its ack is in, for the server holds it
        have hr : σ.server.server.HasResponded (args c).id := by
          rcases h.phase with hg | ht
          · exact absurd hpc (hg.silent c).pc.2
          · rcases ht.placed c with ⟨-, hl | hl⟩ | ⟨hr, -⟩
            · exact absurd hc hl.resting.not_held
            · rcases hl.acking with ⟨-, h⟩ | ⟨-, _, h⟩ <;> rw [hc] at h <;> cases h
            · exact hr
        exact .inr ⟨rfl, decide_eq_true hr⟩
      | _ => rw [hpc] at hj; exact hj.elim
    · exact .inl hp
  · have hne : (σ.ends c').requester ≠ .held := fun hh => hc' (h.steady.wired.one c' c hh hc)
    simp only [Net.responded, hflags, ClientEnd.answer_of_not_held hne]

theorem Live.getsOn_answer (h : Live args σ) (hlen : ∀ c, (args c).id.length ≤ 57)
    (hp : σ.server.pc.Sending) : GetsOn args σ := by
  obtain ⟨m, τ, hm, hs⟩ : ∃ m τ, σ.server.toSend = some m ∧ σ.server.step (.send m) = some τ := by
    cases hpc : σ.server.pc with
    | handshakeSend r =>
      exact ⟨_, _, by rw [ServerRun.toSend, hpc], step_eq_some.mpr (.handshakeSend r hpc)⟩
    | tickSend => exact ⟨_, _, by rw [ServerRun.toSend, hpc], step_eq_some.mpr (.tickSend hpc)⟩
    | _ => rw [hpc] at hp; exact hp.elim
  refine ⟨.answer, { σ with server := τ, ends := fun c => (σ.ends c).answer m }, trivial, ?_,
    .inr (h.work_lt_answer hlen (.answer m τ hm hs))⟩
  simp only [Net.step, hm, hs, Option.map_some]

theorem Live.getsOn_broadcast (h : Live args σ) (hp : σ.server.pc = .broadcast) :
    GetsOn args σ := by
  have hrest : ∀ c, (σ.ends c).Resting := fun c => by
    rcases h.phase with hg | ht
    · exact (hg.ready h.steady hp c).1
    · exact (ht.ready h.steady hp c).1
  by_cases hsub : ∀ c, (σ.ends c).subscribed = true
  · have hs := step_eq_some.mpr (ServerStep.publish hp)
    exact ⟨.broadcast fun _ => true, _, fun c _ => ⟨rfl, hsub c⟩, congrArg (Option.map _) hs,
      .inl ⟨_, rfl⟩⟩
  · push Not at hsub
    obtain ⟨c, hc⟩ := hsub
    exact getsOn_client (ClientEnd.step_subscribe_isSome (hrest c).begun)
      (show (σ.ends c).subscribed = false by simpa using hc)

theorem Live.getsOn_handshake (h : Live args σ) (hlen : ∀ c, (args c).id.length ≤ 57)
    (hdistinct : ∀ c c', (args c).id = (args c').id → c = c')
    (hp : σ.server.pc = .handshakeRecv) : GetsOn args σ := by
  have hg : Gathering args σ := by
    rcases h.phase with hg | ht
    · exact hg
    · have := ht.tick; rw [hp] at this; exact this.elim
  -- some client is not registered, for there are more of them than ids in the table
  obtain ⟨c, hc⟩ : ∃ c, (σ.ends c).Outside := by
    by_contra hnone
    push Not at hnone
    have hsub : Finset.univ.image (fun c => (args c).id) ⊆ σ.server.ids.toFinset := by
      intro x hx
      obtain ⟨c, -, rfl⟩ := Finset.mem_image.mp hx
      exact List.mem_toFinset.mpr (h.member c ((h.inside c).resolve_left (hnone c)))
    have hcard := (Finset.card_le_card hsub).trans (List.toFinset_card_le _)
    rw [Finset.card_image_of_injective _ (fun c c' e => hdistinct c c' e), Finset.card_univ,
      h.steady.inv.ready] at hcard
    have := h.steady.inv.waiting hp
    omega
  have hwired := h.steady.wired.ends c
  rcases hc with hpc | hpc | ⟨hpc, m, hm⟩
  · exact getsOn_client (b := .init .ok) (ClientEnd.step_init_isSome hpc _) rfl
  · exact getsOn_client (ClientEnd.step_send_isSome (.inl hpc) (hwired.idle (.inr (.inl hpc))))
      (show ClientEnd.Forward _ _ .send from trivial)
  · have hs := step_eq_some.mpr (ServerStep.handshakeRecv m hp (h.steady.well.not_owes (.inl hp)))
    have hstep : NetStep args σ (.request c) _ := .request c m _ hm hs
    have hg' := hg.step h.steady hlen (show (Act.request c).Once from trivial) (by rintro _ ⟨⟩)
      hstep
    exact getsOn_request hm (.inl hpc) hs fun c' _ => iff_of_false (hg'.no_flag _) (hg.no_flag _)

omit [DecidableEq ι] in
/-- While the server waits for acks, some client has the last broadcast before
it, or something else to do or to receive, or its ack is under way. -/
theorem Live.unsettled (h : Live args σ) (hp : σ.server.pc = .tickRecv) :
    Ticking args True σ ∧ ∃ c, ¬ σ.server.server.HasResponded (args c).id ∧
      (((σ.ends c).run.pc = .tick ∧ ∃ t, (σ.ends c).feed = [t]) ∨
      (((σ.ends c).run.pc = .await ∨ (σ.ends c).run.pc = .ackWait) ∧
        ∃ m, (σ.ends c).requester = .replied m) ∨
      ((σ.ends c).run.pc = .ack ∧ (σ.ends c).requester = .idle) ∨
      ((σ.ends c).run.pc = .ackWait ∧ ∃ m, (σ.ends c).requester = .sent m)) := by
  have ht : Ticking args True σ := by
    rcases h.phase with hg | ht
    · obtain ⟨t, iv, he⟩ := hg.early
      rcases he.pc with hp' | hp' <;> rw [hp] at hp' <;> cases hp'
    · exact ht
  have hopen : ¬ ∀ x ∈ σ.server.ids, σ.server.server.HasResponded x := by
    rw [← Server.allClientsResponded_iff h.steady.inv.registered
      (h.steady.inv.full_length (by rw [hp]; trivial)), h.waits hp]
    exact nofun
  push Not at hopen
  obtain ⟨x, hx, hn⟩ := hopen
  obtain ⟨c, rfl⟩ := ht.owner x hx
  refine ⟨ht, c, hn, ?_⟩
  rcases ht.placed c with ⟨-, hl | hl⟩ | ⟨hr, -⟩
  · obtain ⟨past, t, -, hf | ⟨hf, -⟩, -⟩ := hl.last
    · cases hl.resting with
      | tick hp _ => exact .inl ⟨hp, t, hf⟩
      | joining hp hr => exact .inr (.inl ⟨.inl hp, _, hr⟩)
      | acked m hp hr => exact .inr (.inl ⟨.inr hp, m, hr⟩)
      | failed m hp _ =>
        rcases h.inside c with ho | hj | ⟨hp', -⟩
        · simp [ClientEnd.Outside, hp] at ho
        · rw [hp] at hj; exact hj.elim
        · rw [hp] at hp'; cases hp'
    · exact absurd trivial hf
  · rcases hl.acking with ha | ha
    · exact .inr (.inr (.inl ha))
    · exact .inr (.inr (.inr ha))
  · exact absurd hr hn

theorem Live.getsOn_tick (h : Live args σ) (hlen : ∀ c, (args c).id.length ≤ 57)
    (hp : σ.server.pc = .tickRecv) : GetsOn args σ := by
  obtain ⟨ht, c, hn, hc⟩ := h.unsettled hp
  have hresp : σ.responded args c = false := decide_eq_false hn
  rcases hc with ⟨hpc, t, hf⟩ | ⟨hpc, m, hr⟩ | ⟨hpc, hr⟩ | ⟨hpc, m, hm⟩
  · exact getsOn_client (ClientEnd.step_tick_isSome hpc hf)
      (show ClientEnd.Forward _ _ .tick from hresp)
  · exact getsOn_client (ClientEnd.step_reply_isSome hpc hr)
      (show ClientEnd.Forward _ _ .reply from trivial)
  · exact getsOn_client (ClientEnd.step_send_isSome (.inr hpc) hr)
      (show ClientEnd.Forward _ _ .send from trivial)
  · have hs := step_eq_some.mpr (ServerStep.tickRecv m hp (h.steady.well.not_owes (.inr (.inl hp))))
    refine getsOn_request hm (.inr hpc) hs fun c' hc' => ?_
    exact (ht.request_flags h.steady hlen hm hs c').trans (or_iff_left hc')

theorem Live.progress (h : Live args σ) (hlen : ∀ c, (args c).id.length ≤ 57)
    (hdistinct : ∀ c c', (args c).id = (args c').id → c = c') : GetsOn args σ := by
  cases hp : σ.server.pc with
  | handshakeRecv => exact h.getsOn_handshake hlen hdistinct hp
  | handshakeSend r => exact h.getsOn_answer hlen (by rw [hp]; trivial)
  | broadcast => exact h.getsOn_broadcast hp
  | tickRecv => exact h.getsOn_tick hlen hp
  | tickSend => exact h.getsOn_answer hlen (by rw [hp]; trivial)
  | undefined => exact absurd hp h.steady.well.defined

omit [DecidableEq ι] in
theorem live_init {iv : UInt64} {s : Server} (hs : ServerReady (Fintype.card ι) iv s) :
    Live args (Net.init ι s) := by
  have hserver : (Net.init ι s).server = ⟨s, 0, .handshakeRecv, false⟩ :=
    simulithServerRun_eq hs.spec.1.1
  exact
    { steady := steady_init hs
      phase := .inl (gathering_init hs)
      inside := fun _ => .inl (.inl rfl)
      member := by
        rintro c (hj | ⟨hp, -⟩)
        · exact hj.elim
        · cases hp
      holder := by rw [hserver]; exact nofun
      waits := by rw [hserver]; exact nofun }

/-- A client that waits for a tick or a reply, with neither under way. -/
def ClientEnd.Waiting (e : ClientEnd) : Prop :=
  (e.run.pc = .tick ∧ e.feed = []) ∨
  ((e.run.pc = .await ∨ e.run.pc = .ackWait) ∧
    ∀ m, e.requester ≠ .sent m ∧ e.requester ≠ .replied m)

/-- The server waits for acks and every client for the server. -/
def Net.Stuck (σ : Net ι) : Prop :=
  σ.server.pc = .tickRecv ∧ ∀ c, (σ.ends c).Waiting

omit [DecidableEq ι] in
theorem Live.not_stuck (h : Live args σ) : ¬ σ.Stuck := by
  rintro ⟨hp, hw⟩
  obtain ⟨-, c, -, hc⟩ := h.unsettled hp
  rcases hw c with ⟨hpc, hf⟩ | ⟨hpc, hr⟩
  · rcases hc with ⟨-, t, hf'⟩ | ⟨hp' | hp', -⟩ | ⟨hp', -⟩ | ⟨hp', -⟩
    · rw [hf] at hf'; cases hf'
    all_goals rw [hpc] at hp'; cases hp'
  · rcases hc with ⟨hp', -⟩ | ⟨-, m, hm⟩ | ⟨hp', -⟩ | ⟨-, m, hm⟩
    · rw [hp'] at hpc; rcases hpc with hpc | hpc <;> cases hpc
    · exact (hr m).2 hm
    · rw [hp'] at hpc; rcases hpc with hpc | hpc <;> cases hpc
    · exact (hr m).1 hm

/-- **Deadlock freedom.** A server for as many clients as there are, with
distinct ids of at most 57 bytes; nothing is lost and nobody gives up. Whatever
has happened so far, the server can broadcast again, and it does not wait for
acks with every client waiting for it. -/
theorem broadcast_reachable (hlen : ∀ c, (args c).id.length ≤ 57)
    (hdistinct : ∀ c c', (args c).id = (args c').id → c = c') {iv : UInt64} {s : Server}
    (hs : ServerReady (Fintype.card ι) iv s) {acts : List (Act ι)}
    (hP : Lts.Along (Net.step args) (fun σ a => a.Lossless σ) (Net.init ι s) acts)
    (he : Lts.exec (Net.step args) (Net.init ι s) acts = some σ) :
    (∃ more heard σ', Lts.Along (Net.step args) (fun σ a => a.Lossless σ) σ
        (more ++ [.broadcast heard]) ∧
      Lts.exec (Net.step args) σ (more ++ [.broadcast heard]) = some σ') ∧ ¬ σ.Stuck := by
  have hstep : ∀ σ a σ', Live args σ → a.Lossless σ → σ.step args a = some σ' → Live args σ' :=
    fun _ _ _ h ha hs => h.step hlen hdistinct ha (.of_step hs)
  have hlive : Live args σ := Lts.exec_invariant hstep (live_init hs) hP he
  refine ⟨?_, hlive.not_stuck⟩
  obtain ⟨more, τ, _, σ', hA, hτ, hs', heard, rfl⟩ := Lts.exists_exec_goal
    (G := fun _ a => ∃ heard, a = Act.broadcast heard) (Net.work args) hstep
    (fun _ h => h.progress hlen hdistinct) hlive
  exact ⟨more, heard, σ', hA, Lts.exec_snoc_eq_some.mpr ⟨τ, hτ, hs'⟩⟩

/-- Two clients; one has the first broadcast before it, the other its ack under way. -/
theorem broadcast_reachable_two_clients :
    let args := ![ClientArgs.named [97] (by decide) (by decide),
      ClientArgs.named [98] (by decide) (by decide)]
    let acts := join 0 ++ .client 0 .subscribe :: join 1 ++ [.client 1 .subscribe,
      .broadcast fun _ => true, .client 0 .tick, .client 0 .send]
    ∃ σ, Lts.exec (Net.step args) (Net.init (Fin 2) (.fresh 2 10)) acts = some σ ∧
      ∃ more heard σ', Lts.Along (Net.step args) (fun σ a => a.Lossless σ) σ
          (more ++ [.broadcast heard]) ∧
        Lts.exec (Net.step args) σ (more ++ [.broadcast heard]) = some σ' :=
  have ⟨σ, h⟩ := Option.isSome_iff_exists.mp (by decide)
  ⟨σ, h, (broadcast_reachable (by decide) (by decide)
    (serverReady_fresh (by decide) (by decide) (by decide)) (by decide) h).1⟩

end Simulith
