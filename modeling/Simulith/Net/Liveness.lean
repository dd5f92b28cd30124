import Mathlib.Algebra.Group.Action.Defs
import Simulith.Net.Progress
import Simulith.Net.Subscription

/-!
# Every schedule broadcasts

When nothing is lost, every step but a broadcast lowers `Net.work`
(`Live.work_lt`), whoever makes it: there is no fairness to assume. A schedule
therefore comes to a broadcast within eleven steps a client, and from the first
broadcast on within six (`broadcast_due`), and it can always go on.
-/

namespace Simulith

namespace ClientEnd

variable {args : ClientArgs} {e : ClientEnd} {times : List UInt64} {ℓ responded : Prop}

theorem work_le (e : ClientEnd) (r : Bool) : e.work r ≤ 11 := by
  have hrank : e.rank r ≤ 10 := by
    unfold rank
    split <;> (try split) <;> omega
  unfold work
  split <;> omega

theorem Placed.work_le [Decidable responded] (h : e.Placed args ℓ times responded)
    (hs : e.subscribed = true) : e.work (decide responded) ≤ 6 := by
  have hrank : e.rank (decide responded) ≤ 6 := by
    rcases h with ⟨hr, hl | hl⟩ | ⟨hr, hl⟩
    · cases hl.resting <;> simp [rank, *]
    · rcases hl.acking with ⟨hp, hq⟩ | ⟨hp, m, hq⟩ <;> simp [rank, hp, hq]
    · rcases hl.settled with ⟨hp, hq⟩ | ⟨hp, hq | ⟨m, hq⟩⟩ <;> simp [rank, hr, hp, hq]
  simpa only [work, hs, if_true, Nat.add_zero] using hrank

theorem Placed.feed_eq (h : e.Placed args ℓ times responded) (hr : responded) : e.feed = [] := by
  rcases h with ⟨hn, -⟩ | ⟨-, hl⟩
  · exact absurd hr hn
  · exact hl.upToDate.feed

end ClientEnd

variable {ι : Type*} {args : ι → ClientArgs} {σ σ' : Net ι} {a : Act ι}

/-- A subscription is processed once. -/
def Act.SubscribesOnce (σ : Net ι) : Act ι → Prop
  | .client c .subscribe => (σ.ends c).subscribed = false
  | _ => True

instance (σ : Net ι) (a : Act ι) : Decidable (a.SubscribesOnce σ) :=
  match a with
  | .client _ .subscribe => inferInstanceAs (Decidable (_ = false))
  | .client _ (.init _) => isTrue trivial
  | .client _ .send => isTrue trivial
  | .client _ .sendFail => isTrue trivial
  | .client _ .reply => isTrue trivial
  | .client _ .timeout => isTrue trivial
  | .client _ .tick => isTrue trivial
  | .client _ .restart => isTrue trivial
  | .request _ => isTrue trivial
  | .requestStale _ => isTrue trivial
  | .answer => isTrue trivial
  | .broadcast _ => isTrue trivial

variable [DecidableEq ι] [Fintype ι]

omit [DecidableEq ι] in
/-- A client receives a tick only while the server waits for its ack. -/
theorem Live.not_responded_of_feed (h : Live args σ) {c : ι} (hf : (σ.ends c).feed ≠ []) :
    σ.responded args c = false := by
  refine decide_eq_false fun hr => hf ?_
  rcases h.phase with hg | ht
  · exact (hg.silent c).feed
  · exact (ht.placed c).feed_eq hr

omit [DecidableEq ι] in
theorem Live.forward (h : Live args σ) {c : ι} {b : ClientAct} {e : ClientEnd}
    (ha : (Act.client c b).Lossless σ) (ho : (Act.client c b).SubscribesOnce σ)
    (hs : EndStep (args c) (σ.ends c) b e) : (σ.ends c).Forward (σ.responded args c) b := by
  cases hs with
  | init => exact ha
  | subscribe => exact ho
  | tick t feed _ hf => exact h.not_responded_of_feed (by rw [hf]; exact List.cons_ne_nil _ _)
  | sendFail => exact ha.elim
  | timeout => exact ha.elim
  | restart => exact ha.elim
  | _ => trivial

theorem Live.request_flags (h : Live args σ) (hlen : ∀ c, (args c).id.length ≤ 57) {c : ι}
    (hs : NetStep args σ (.request c) σ') (c' : ι) (hc : c' ≠ c) :
    σ'.server.server.HasResponded (args c').id ↔ σ.server.server.HasResponded (args c').id := by
  rcases h.phase with hg | ht
  · have hg' := hg.step h.steady hlen (show (Act.request c).Once from trivial)
      (by rintro _ ⟨⟩) hs
    exact iff_of_false (hg'.no_flag _) (hg.no_flag _)
  · cases hs with
    | request _ m τ hm hs =>
      exact (ht.request_flags h.steady hlen hm hs c').trans (or_iff_left hc)

/-- **Every step but a broadcast brings the next broadcast nearer.** -/
theorem Live.work_lt (h : Live args σ) (hlen : ∀ c, (args c).id.length ≤ 57) (ha : a.Lossless σ)
    (ho : a.SubscribesOnce σ) (hb : ∀ heard, a ≠ .broadcast heard) (hs : NetStep args σ a σ') :
    σ'.work args < σ.work args := by
  cases a with
  | client c b =>
    have hs' := hs
    cases hs' with
    | client _ _ e he => exact work_lt_client hs (h.forward ha ho he)
  | request c =>
    refine work_lt_request hs ?_ fun c' hc => h.request_flags hlen hs c' hc
    cases hs with
    | request _ m τ hm _ =>
      rcases (h.steady.wired.ends c).sent hm with ⟨hp | hp, -⟩ | ⟨hp, -⟩
      · exact .inl hp
      · -- no client has given up
        rcases h.inside c with ho | hj | ⟨hp', -⟩
        · simp [ClientEnd.Outside, hp] at ho
        · rw [hp] at hj; exact hj.elim
        · rw [hp] at hp'; cases hp'
      · exact .inr hp
  | requestStale k =>
    cases hs with
    | requestStale _ m τ hm _ =>
      rw [h.steady.stale] at hm
      cases hm
  | answer => exact h.work_lt_answer hlen hs
  | broadcast heard => exact absurd rfl (hb heard)

omit [DecidableEq ι] in
theorem Net.work_le (σ : Net ι) : σ.work args ≤ 11 * Fintype.card ι := by
  refine (Finset.sum_le_card_nsmul _ _ 11 fun c _ => ClientEnd.work_le _ _).trans ?_
  rw [Finset.card_univ, smul_eq_mul, Nat.mul_comm]

/-! ## From the first broadcast on -/

/-- Nothing has been lost, and whoever has been sent a broadcast is subscribed. -/
structure Rolling (args : ι → ClientArgs) (σ : Net ι) : Prop where
  live : Live args σ
  subscribed : σ.broadcasts ≠ [] → ∀ c, (σ.ends c).subscribed = true

theorem Rolling.step (h : Rolling args σ) (hlen : ∀ c, (args c).id.length ≤ 57)
    (hdistinct : ∀ c c', (args c).id = (args c').id → c = c') (ha : a.Lossless σ)
    (hs : NetStep args σ a σ') : Rolling args σ' := by
  have hrestart : ∀ c, a ≠ .client c .restart := by
    rintro c rfl
    exact ha.once
  refine ⟨h.live.step hlen hdistinct ha hs, fun hb c =>
    (hs.subscribed c).mpr (.inl ⟨?_, hrestart c⟩)⟩
  by_cases hbr : ∃ heard, a = .broadcast heard
  · obtain ⟨heard, rfl⟩ := hbr
    cases hs with
    | broadcast _ τ hs =>
      have hrest : (σ.ends c).Resting := by
        rcases h.live.phase with hg | ht
        · exact (hg.ready h.live.steady (pc_publish hs).1 c).1
        · exact (ht.ready h.live.steady (pc_publish hs).1 c).1
      exact (ha c hrest.begun).2
  · refine h.subscribed ?_ c
    cases hs with
    | broadcast heard => exact absurd ⟨heard, rfl⟩ hbr
    | _ => exact hb

omit [DecidableEq ι] in
theorem Rolling.work_le (h : Rolling args σ) (hb : σ.broadcasts ≠ []) :
    σ.work args ≤ 6 * Fintype.card ι := by
  have ht : Ticking args True σ := h.live.phase.resolve_left fun hg => hb hg.none
  refine (Finset.sum_le_card_nsmul _ _ 6 fun c _ => ?_).trans ?_
  · exact (ht.placed c).work_le (h.subscribed hb c)
  · rw [Finset.card_univ, smul_eq_mul, Nat.mul_comm]

theorem subscribesOnce_of_work_lt (hs : NetStep args σ a σ')
    (h : (∃ heard, a = .broadcast heard) ∨ σ'.work args < σ.work args) : a.SubscribesOnce σ := by
  cases hs with
  | client c b e he =>
    cases he with
    | subscribe _ =>
      obtain ⟨heard, e⟩ | h := h
      · cases e
      show (σ.ends c).subscribed = false
      by_contra hsub
      rw [Bool.not_eq_false] at hsub
      have hsame : ({ σ.ends c with subscribed := true } : ClientEnd) = σ.ends c := by rw [← hsub]
      simp only [hsame, Net.setEnd, Function.update_eq_self] at h
      exact absurd h (Nat.lt_irrefl _)
    | _ => trivial
  | _ => trivial

/-- **Liveness under every schedule.** A server for as many clients as there
are, with distinct ids of at most 57 bytes; nothing is lost and nobody gives up.
In whatever order the steps are made, no more than 11 a client pass without a
broadcast, no more than 6 once there has been one, and there is always a step to
make. -/
theorem broadcast_due (hlen : ∀ c, (args c).id.length ≤ 57)
    (hdistinct : ∀ c c', (args c).id = (args c').id → c = c') {iv : UInt64} {s : Server}
    (hs : ServerReady (Fintype.card ι) iv s) {acts more : List (Act ι)}
    (hP : Lts.Along (Net.step args) (fun σ a => a.Lossless σ ∧ a.SubscribesOnce σ)
      (Net.init ι s) (acts ++ more))
    (he : Lts.exec (Net.step args) (Net.init ι s) acts = some σ)
    (hmore : Lts.exec (Net.step args) σ more = some σ')
    (hnone : ∀ heard, .broadcast heard ∉ more) :
    more.length ≤ 11 * Fintype.card ι ∧
    (σ.broadcasts ≠ [] → more.length ≤ 6 * Fintype.card ι) ∧
    ∃ a σ'', (a.Lossless σ' ∧ a.SubscribesOnce σ') ∧ σ'.step args a = some σ'' := by
  have hstep : ∀ σ a σ', Rolling args σ → (a.Lossless σ ∧ a.SubscribesOnce σ) →
      σ.step args a = some σ' → Rolling args σ' :=
    fun _ _ _ h ha hs => h.step hlen hdistinct ha.1 (.of_step hs)
  have hroll : Rolling args σ :=
    Lts.exec_invariant hstep ⟨live_init hs, fun h => absurd rfl h⟩ hP.left he
  have hP' : Lts.Along (Net.step args) (fun σ a => (a.Lossless σ ∧ a.SubscribesOnce σ) ∧
      ∀ heard, a ≠ .broadcast heard) σ more := by
    refine Lts.along_iff.mpr fun pre a post τ e hτ => ⟨?_, fun heard ha => ?_⟩
    · refine Lts.along_iff.mp hP (acts ++ pre) a post τ (by rw [e, List.append_assoc]) ?_
      exact Lts.exec_append_eq_some.mpr ⟨σ, he, hτ⟩
    · exact hnone heard (by rw [e, ← ha]; simp)
  have hlength : more.length + σ'.work args ≤ σ.work args :=
    Lts.exec_length_le (Net.work args) (fun σ a σ' h ha hs => hstep σ a σ' h ha.1 hs)
      (fun σ a σ' h ha hs => h.live.work_lt hlen ha.1.1 ha.1.2 ha.2 (.of_step hs)) hroll hP' hmore
  have hroll' : Rolling args σ' :=
    Lts.exec_invariant (fun σ a σ' h ha hs => hstep σ a σ' h ha.1 hs) hroll hP' hmore
  refine ⟨?_, fun hb => ?_, ?_⟩
  · have : σ.work args ≤ 11 * Fintype.card ι := σ.work_le
    omega
  · have := hroll.work_le hb
    omega
  · obtain ⟨a, σ'', ha, hs'', hon⟩ := hroll'.live.progress hlen hdistinct
    exact ⟨a, σ'', ⟨ha, subscribesOnce_of_work_lt (.of_step hs'') hon⟩, hs''⟩

/-- One client, from a broadcast that finds it with its ACK not received: the six steps. -/
theorem broadcast_due_one_client :
    let args : Fin 1 → ClientArgs := fun _ => .named [97] (by decide) (by decide)
    let acts : List (Act (Fin 1)) := [.client 0 (.init .ok), .client 0 .subscribe, .client 0 .send,
      .request 0, .answer, .broadcast fun _ => true]
    let more : List (Act (Fin 1)) := [.client 0 .reply, .client 0 .tick, .client 0 .send,
      .request 0, .answer, .client 0 .reply]
    ∃ σ σ', Lts.exec (Net.step args) (Net.init (Fin 1) (.fresh 1 10)) acts = some σ ∧
      Lts.exec (Net.step args) σ more = some σ' ∧ more.length ≤ 6 * Fintype.card (Fin 1) := by
  intro args acts more
  obtain ⟨σ', h⟩ : ∃ σ', Lts.exec (Net.step args) (Net.init (Fin 1) (.fresh 1 10))
      (acts ++ more) = some σ' := Option.isSome_iff_exists.mp (by decide)
  obtain ⟨σ, hσ, hσ'⟩ := Lts.exec_append_eq_some.mp h
  have hbroadcast : ∃ σ, Lts.exec (Net.step args) (Net.init (Fin 1) (.fresh 1 10)) acts = some σ ∧
      σ.broadcasts ≠ [] := Lts.exists_exec_of_any (by decide)
  obtain ⟨τ, hτ, hb⟩ := hbroadcast
  cases hτ.symm.trans hσ
  exact ⟨σ, σ', hσ, hσ', (broadcast_due (by decide) (by decide)
    (serverReady_fresh (by decide) (by decide) (by decide)) (by decide) hσ hσ'
    (by simp [more])).2.1 hb⟩

end Simulith
