import Simulith.Net.Lockstep

/-!
# Requests and broadcasts

A client sends READY once and one acknowledgement for each tick, and nothing is
sent twice: by the number of broadcasts made one knows how often each client has
been heard (`requests_per_broadcast`). The handshake phase is counted by
`Census`, the rounds by `Tally`.
-/

namespace Simulith

variable {ι : Type*}

/-- The client whose request the server receives. -/
def Act.heard : Act ι → Option ι
  | .request c => some c
  | _ => none

def Act.isAnswer : Act ι → Bool
  | .answer => true
  | _ => false

/-- The clients whose requests the server has received, in order. -/
def received (acts : List (Act ι)) : List ι := acts.filterMap Act.heard

/-- How many replies the server has sent. -/
def replies (acts : List (Act ι)) : Nat := acts.countP Act.isAnswer

variable {args : ι → ClientArgs} {σ σ' : Net ι} {a : Act ι} {acts : List (Act ι)} {n : Nat}

theorem received_snoc (acts : List (Act ι)) (a : Act ι) :
    received (acts ++ [a]) = received acts ++ a.heard.toList := by
  rw [received, List.filterMap_append, List.filterMap_cons, List.filterMap_nil]
  cases a.heard <;> rfl

theorem received_snoc_none (h : a.heard = none) : received (acts ++ [a]) = received acts := by
  rw [received_snoc, h, Option.toList_none, List.append_nil]

/-! ## Before the first broadcast -/

namespace ClientEnd

variable {e e' : ClientEnd} {args : ClientArgs} {b : ClientAct}

/-- The server has received its READY. -/
structure Presented (e : ClientEnd) : Prop where
  pc : e.run.pc ≠ .start ∧ e.run.pc ≠ .ready
  received : ∀ m, e.requester ≠ .sent m

theorem Presented.endStep (h : e.Presented) (hs : e.Silent) (hb : b ≠ .restart)
    (he : EndStep args e b e') : e'.Presented := by
  cases he with
  | init _ _ hp => exact absurd hp h.pc.1
  | subscribe => exact ⟨h.pc, h.received⟩
  | sendReady hp => exact absurd hp h.pc.2
  | sendAck hp => exact absurd hp hs.pc.1
  | sendFail hp => exact absurd hp h.pc.2
  | joinReply m _ _ =>
    refine ⟨?_, by simp⟩
    rcases e.run.handshakeReceived_pc m with hp | hp | hp <;> simp [hp]
  | ackReply _ hp => exact absurd hp hs.pc.2
  | timeout => exact ⟨by simp, h.received⟩
  | tick => exact ⟨by simp, h.received⟩
  | restart => exact absurd rfl hb

theorem Presented.answer (h : e.Presented) (m : Msg) : (e.answer m).Presented := by
  refine ⟨h.pc, fun m' => ?_⟩
  cases hr : e.requester with
  | sent m'' => exact absurd hr (h.received m'')
  | _ => simp [ClientEnd.answer, Requester.answer, hr]

end ClientEnd

variable [DecidableEq ι]

/-- No client has been heard more than once, and nobody is registered unheard. -/
structure Census (acts : List (Act ι)) (σ : Net ι) : Prop where
  once : ∀ c, (received acts).count c = 0 ∨
    ((received acts).count c = 1 ∧ (σ.ends c).Presented)
  ids : σ.server.ids.length ≤ (received acts).length

theorem census_init {N : Int} {iv : UInt64} {s : Server} (hs : ServerReady N iv s) :
    Census [] (Net.init ι s) where
  once _ := .inl rfl
  ids := by
    rw [show (Net.init ι s).server.ids = [] from ids_simulithServerRun hs]
    exact Nat.zero_le _

theorem NetStep.ids_length_le (h : NetStep args σ a σ') (hst : Steady args n σ) :
    σ'.server.ids.length ≤ σ.server.ids.length + a.heard.toList.length := by
  rcases h.ids_cases hst.inv with e | ⟨c, rfl, -⟩ | ⟨k, -, hk, -⟩
  · rw [e]
    exact Nat.le_add_right _ _
  · cases h with
    | request _ m τ hm hs =>
      rcases ids_step_cases hst.inv hs with ⟨e, -⟩ | ⟨_, x, -, -, -, -, -, -, e⟩
      · exact e ▸ Nat.le_add_right _ _
      · exact (congrArg List.length e).le.trans (List.length_append ..).le
  · rw [hst.stale] at hk
    exact absurd hk (Nat.not_lt_zero k)

theorem Census.request {c : ι} {m : Msg} {τ : ServerRun} (h : Census acts σ)
    (hst : Steady args n σ) (hm : (σ.ends c).requester = .sent m) (c' : ι) :
    (received (acts ++ [.request c])).count c' = 0 ∨
      ((received (acts ++ [.request c])).count c' = 1 ∧
        (({ σ.setEnd c { σ.ends c with requester := .held } with server := τ } : Net ι).ends
          c').Presented) := by
  rw [received_snoc, List.count_append]
  by_cases hc : c' = c
  · subst hc
    have hzero : (received acts).count c' = 0 :=
      (h.once c').resolve_right fun hc => hc.2.received m hm
    refine .inr ⟨by simp [hzero, Act.heard], ?_⟩
    simp only [Net.setEnd, Function.update_self]
    refine ⟨?_, by simp⟩
    rcases (hst.wired.ends c').sent hm with ⟨hp | hp, -⟩ | ⟨hp, -⟩ <;> simp [hp]
  · have hkeep : [c].count c' = 0 := List.count_singleton.trans (if_neg (by simpa using Ne.symm hc))
    simp only [Act.heard, Option.toList_some, hkeep, Nat.add_zero, Net.setEnd,
      Function.update_of_ne hc]
    exact h.once c'

theorem Census.step (h : Census acts σ) (hg : Gathering args σ) (hst : Steady args n σ)
    (ha : a.Once) (hb : ∀ heard, a ≠ .broadcast heard) (hs : NetStep args σ a σ') :
    Census (acts ++ [a]) σ' where
  once := by
    cases hs with
    | client c b e he =>
      rw [received_snoc_none rfl]
      refine Net.forall_setEnd (p := fun c e => (received acts).count c = 0 ∨
        ((received acts).count c = 1 ∧ e.Presented)) ?_ fun c' _ => h.once c'
      refine (h.once c).imp_right fun hc => ⟨hc.1, hc.2.endStep (hg.silent c) ?_ he⟩
      rintro rfl
      exact ha
    | request c m τ hm hs => exact h.request hst hm
    | requestStale k m τ hm _ =>
      rw [hst.stale] at hm
      cases hm
    | answer m τ hm hs =>
      rw [received_snoc_none rfl]
      exact fun c => (h.once c).imp_right fun hc => ⟨hc.1, hc.2.answer m⟩
    | broadcast heard => exact absurd rfl (hb heard)
  ids := by
    have := h.ids
    have := hs.ids_length_le hst
    rw [received_snoc, List.length_append]
    omega

/-- **At the first broadcast each client has been heard once.** -/
theorem Census.full [Fintype ι] (h : Census acts σ) (hst : Steady args (Fintype.card ι) σ)
    (hpc : σ.server.pc = .broadcast) (c : ι) : (received acts).count c = 1 := by
  have hnodup : (received acts).Nodup := List.nodup_iff_count_le_one.mpr fun c => by
    rcases h.once c with hc | ⟨hc, -⟩ <;> omega
  have hcard : Fintype.card ι ≤ (received acts).length := by
    have hids : σ.server.ids.length = Fintype.card ι := by
      rw [hst.inv.ready]
      exact hst.inv.full (by rw [hpc]; trivial)
    exact hids ▸ h.ids
  have hall : (received acts).toFinset = Finset.univ := by
    apply Finset.eq_univ_of_card
    apply le_antisymm (Finset.card_le_univ _)
    rwa [List.toFinset_card_of_nodup hnodup]
  have hmem : c ∈ received acts := List.mem_toFinset.mp (hall ▸ Finset.mem_univ c)
  exact List.count_eq_one_of_mem hnodup hmem

/-! ## Rounds -/

/-- Each client has been heard once more than there have been broadcasts, or is yet to be. -/
def Tally (args : ι → ClientArgs) (acts : List (Act ι)) (σ : Net ι) : Prop :=
  ∀ c, (received acts).count c =
    σ.broadcasts.length + if σ.server.server.HasResponded (args c).id then 1 else 0

theorem tally_broadcast {heard : ι → Bool} (hst : Steady args n σ)
    (hall : ∀ c, (received acts).count c = σ.broadcasts.length + 1)
    (hs : NetStep args σ (.broadcast heard) σ') :
    Tally args (acts ++ [.broadcast heard]) σ' := by
  cases hs with
  | broadcast _ τ hs =>
    obtain ⟨-, -, hflags, -⟩ := publish_spec hst.inv hs
    intro c
    rw [received_snoc_none rfl, hall c, if_neg (hflags _), List.length_append,
      List.length_singleton]

theorem Tally.step (h : Tally args acts σ) (ht : Ticking args False σ) (hst : Steady args n σ)
    (hlen : ∀ c, (args c).id.length ≤ 57) (hs : NetStep args σ a σ') :
    Tally args (acts ++ [a]) σ' := by
  cases hs with
  | client c b e he =>
    intro c'
    rw [received_snoc_none rfl]
    exact h c'
  | request c m τ hm hs =>
    have hflags := ht.request_flags hst hlen hm hs
    intro c'
    rw [received_snoc, List.count_append, h c']
    by_cases hc : c' = c
    · subst hc
      -- the flag was clear, for the client's ack was under way
      have hclear : ¬ σ.server.server.HasResponded (args c').id := by
        rcases ht.placed c' with ⟨hn, -⟩ | ⟨-, hl⟩
        · exact hn
        · rcases hl.settled with ⟨-, hq⟩ | ⟨-, hq | ⟨_, hq⟩⟩ <;> rw [hm] at hq <;> cases hq
      rw [if_neg hclear, if_pos ((hflags c').mpr (.inr rfl))]
      simp [Act.heard, Net.setEnd]
    · have hkeep : [c].count c' = 0 :=
        List.count_singleton.trans (if_neg (by simpa using Ne.symm hc))
      simp only [Act.heard, Option.toList_some, hkeep, hflags c', hc, or_false, Nat.add_zero,
        Net.setEnd]
  | requestStale k m τ hm _ =>
    rw [hst.stale] at hm
    cases hm
  | answer m τ hm hs =>
    obtain ⟨-, -, hflags, -⟩ := tickSend_spec hst.inv ht.tick hs
    intro c
    simp only [received_snoc_none (a := Act.answer) rfl, hflags]
    exact h c
  | broadcast heard τ hs =>
    refine tally_broadcast hst (fun c => ?_) (.broadcast heard τ hs)
    rw [h c, if_pos (ht.due (pc_publish hs).1 c)]

/-! ## Replies -/

theorem replies_step (hst : Steady args n σ) (hs : NetStep args σ a σ')
    (h : (received acts).length = replies acts + if σ.server.owes then 1 else 0) :
    (received (acts ++ [a])).length =
      replies (acts ++ [a]) + if σ'.server.owes then 1 else 0 := by
  rw [received_snoc, List.length_append, h, replies, replies, List.countP_append]
  cases hs with
  | client => rfl
  | request c m τ _ hs =>
    obtain ⟨h0, h1⟩ := owes_recv hs
    simp [h0, h1, Act.heard, Act.isAnswer]
  | requestStale k m τ hm _ =>
    rw [hst.stale] at hm
    cases hm
  | answer m τ hm hs =>
    have h1 : σ.server.owes = true := by
      rw [hst.well.owes]
      rcases toSend_cases hm with ⟨r, hp, -⟩ | ⟨hp, -⟩ <;> rw [hp] <;> trivial
    simp [h1, owes_send hs, Act.heard, Act.isAnswer]
  | broadcast heard τ hs => simp [(pc_publish hs).2.2, Act.heard, Act.isAnswer]

/-! ## The count over a run -/

variable [Fintype ι]

structure Counted (args : ι → ClientArgs) (acts : List (Act ι)) (σ : Net ι) : Prop where
  steady : Steady args (Fintype.card ι) σ
  phase : (Gathering args σ ∧ Census acts σ) ∨ (Ticking args False σ ∧ Tally args acts σ)
  replies : (received acts).length = replies acts + if σ.server.owes then 1 else 0

theorem Counted.due (h : Counted args acts σ) (hpc : σ.server.pc = .broadcast) (c : ι) :
    (received acts).count c = σ.broadcasts.length + 1 := by
  rcases h.phase with ⟨hg, hc⟩ | ⟨ht, hc⟩
  · rw [hc.full h.steady hpc, hg.none, List.length_nil]
  · rw [hc c, if_pos (ht.due hpc c)]

theorem Counted.step (h : Counted args acts σ) (hlen : ∀ c, (args c).id.length ≤ 57) (ha : a.Once)
    (hs : NetStep args σ a σ') : Counted args (acts ++ [a]) σ' where
  steady := h.steady.step hlen ha hs
  phase := by
    have hnext := gathering_or_ticking_step h.steady (h.phase.imp And.left And.left) hlen ha
      False.elim hs
    by_cases hb : ∃ heard, a = .broadcast heard
    · obtain ⟨heard, rfl⟩ := hb
      have hnone : ¬ Gathering args σ' := by
        intro hg
        have := hg.none
        cases hs with
        | broadcast => simp at this
      refine .inr ⟨hnext.resolve_left hnone, ?_⟩
      refine tally_broadcast h.steady (fun c => ?_) hs
      cases hs with
      | broadcast _ τ hs => exact h.due (pc_publish hs).1 c
    · rcases h.phase with ⟨hg, hc⟩ | ⟨ht, hc⟩
      · have hb' : ∀ heard, a ≠ .broadcast heard := fun heard e => hb ⟨heard, e⟩
        exact .inl ⟨hg.step h.steady hlen ha hb' hs, hc.step hg h.steady ha hb' hs⟩
      · exact .inr ⟨ht.step h.steady hlen ha False.elim hs, hc.step ht h.steady hlen hs⟩
  replies := replies_step h.steady hs h.replies

theorem counted_exec (hlen : ∀ c, (args c).id.length ≤ 57) {iv : UInt64} {s : Server}
    (hs : ServerReady (Fintype.card ι) iv s) (honce : ∀ a ∈ acts, a.Once)
    (he : Lts.exec (Net.step args) (Net.init ι s) acts = some σ) : Counted args acts σ := by
  refine Lts.exec_history (P := fun _ a => a.Once) (H := Counted args)
    ⟨steady_init hs, .inl ⟨gathering_init hs, census_init hs⟩, ?_⟩
    (fun acts τ a τ' hP hτ ih hstep => ?_) (Lts.along_of_forall fun a ha _ => honce a ha) he
  · rw [show (Net.init ι s).server.owes = false from handshakeHead_owes _]
    rfl
  · exact ih.step hlen (Lts.along_iff.mp hP acts a [] τ rfl hτ) (.of_step hstep)

/-- **One request a client for each broadcast.** A server for as many clients as
there are, with ids of at most 57 bytes, and nobody starts over; whatever is
dropped or times out. A client that the server has heard `k` times has let at
most `k` broadcasts happen, and when the server is about to broadcast it has
heard all clients equally often, and answered every time. -/
theorem requests_per_broadcast (hlen : ∀ c, (args c).id.length ≤ 57) {iv : UInt64} {s : Server}
    (hs : ServerReady (Fintype.card ι) iv s) (honce : ∀ a ∈ acts, a.Once)
    (he : Lts.exec (Net.step args) (Net.init ι s) acts = some σ) :
    (∀ c, σ.broadcasts.length ≤ (received acts).count c ∧
      (received acts).count c ≤ σ.broadcasts.length + 1) ∧
    (σ.server.pc = .broadcast → (received acts).length = replies acts ∧
      ∀ c, (received acts).count c = σ.broadcasts.length + 1) := by
  have h := counted_exec hlen hs honce he
  refine ⟨fun c => ?_, fun hpc => ⟨?_, h.due hpc⟩⟩
  · rcases h.phase with ⟨hg, hc⟩ | ⟨-, hc⟩
    · rw [hg.none, List.length_nil]
      rcases hc.once c with hc | ⟨hc, -⟩ <;> omega
    · rw [hc c]
      split <;> omega
  · rw [h.replies, h.steady.well.not_owes (.inr (.inr hpc))]
    rfl

theorem requests_per_broadcast_two_clients :
    let args := ![ClientArgs.named [97] (by decide) (by decide),
      ClientArgs.named [98] (by decide) (by decide)]
    let acts := join 0 ++ .client 0 .subscribe :: join 1 ++ [.client 1 .subscribe,
      .broadcast fun _ => true, .client 1 .tick, .client 1 .send, .client 0 .tick, .request 1,
      .answer, .client 0 .send, .request 0, .answer]
    ∃ σ, Lts.exec (Net.step args) (Net.init (Fin 2) (.fresh 2 10)) acts = some σ ∧
      (received acts).length = replies acts ∧
      ∀ c, (received acts).count c = σ.broadcasts.length + 1 := by
  intro args acts
  obtain ⟨σ, h, hpc⟩ : ∃ σ, Lts.exec (Net.step args) (Net.init (Fin 2) (.fresh 2 10)) acts =
      some σ ∧ σ.server.pc = .broadcast := Lts.exists_exec_of_any (by decide)
  exact ⟨σ, h, (requests_per_broadcast (by decide)
    (serverReady_fresh (by decide) (by decide) (by decide)) (by decide) h).2 hpc⟩

end Simulith
