import Simulith.Net.Liveness
import Simulith.Net.Requests

/-!
# One client's silence halts all

The server waits for every client without limit. A request that a client has
sent may still be under way, so one broadcast can follow its last request, and
no second one (`silent_client_halts`); when nothing is lost the other clients,
too, come to rest.
-/

namespace Simulith

def Act.isBroadcast {ι : Type*} : Act ι → Bool
  | .broadcast _ => true
  | _ => false

variable {ι : Type*} [DecidableEq ι] {args : ι → ClientArgs} {σ σ' : Net ι} {a : Act ι}
  {acts more : List (Act ι)} {c : ι}

theorem NetStep.broadcasts_length (hs : NetStep args σ a σ') :
    σ'.broadcasts.length = σ.broadcasts.length + if a.isBroadcast then 1 else 0 := by
  cases hs with
  | broadcast => simp [Act.isBroadcast]
  | _ => rfl

theorem broadcasts_length_exec (h : Lts.exec (Net.step args) σ more = some σ') :
    σ'.broadcasts.length = σ.broadcasts.length + more.countP Act.isBroadcast := by
  induction more generalizing σ with
  | nil =>
    cases h
    rfl
  | cons a more ih =>
    obtain ⟨τ, hτ, h⟩ := Lts.exec_cons_eq_some.mp h
    rw [ih h, (NetStep.of_step hτ).broadcasts_length, List.countP_cons]
    omega

/-! ## Requests received and under way -/

/-- The requests of `c` that the server has received or that are under way. -/
def Net.requests (acts : List (Act ι)) (σ : Net ι) (c : ι) : Nat :=
  (received acts).count c + (σ.ends c).requester.underway.length

theorem ClientEnd.underway_endStep {args : ClientArgs} {e e' : ClientEnd} {b : ClientAct}
    (hb : b ≠ .send) (hs : EndStep args e b e') :
    e'.requester.underway.length ≤ e.requester.underway.length := by
  cases hs with
  | sendReady => exact absurd rfl hb
  | sendAck => exact absurd rfl hb
  | joinReply => exact Nat.zero_le _
  | ackReply => exact Nat.zero_le _
  | restart => exact Nat.zero_le _
  | _ => exact Nat.le_refl _

theorem ClientEnd.underway_answer (e : ClientEnd) (m : Msg) :
    (e.answer m).requester.underway.length ≤ e.requester.underway.length := by
  cases hr : e.requester <;> simp [ClientEnd.answer, Requester.answer, Requester.underway, hr]

theorem NetStep.requests_le (hs : NetStep args σ a σ') (ha : a ≠ .client c .send) :
    σ'.requests (acts ++ [a]) c ≤ σ.requests acts c := by
  unfold Net.requests
  cases hs with
  | client c' b e he =>
    rw [received_snoc_none rfl]
    by_cases hc : c' = c
    · subst hc
      have := ClientEnd.underway_endStep (fun e => ha (e ▸ rfl)) he
      simp only [Net.setEnd, Function.update_self]
      omega
    · simp only [Net.setEnd, Function.update_of_ne (Ne.symm hc)]
      exact Nat.le_refl _
  | request c' m τ hm _ =>
    rw [received_snoc, List.count_append]
    by_cases hc : c' = c
    · subst hc
      simp [Net.setEnd, Act.heard, Requester.underway, hm]
    · simp [Net.setEnd, Act.heard, Function.update_of_ne (Ne.symm hc), hc]
  | requestStale => rw [received_snoc_none rfl]
  | answer m =>
    rw [received_snoc_none rfl]
    exact Nat.add_le_add_left ((σ.ends c).underway_answer m) _
  | broadcast heard => simp only [received_snoc_none (a := Act.broadcast heard) rfl,
      ClientEnd.deliver_requester, le_refl]

theorem requests_le_exec (hmore : ∀ a ∈ more, a ≠ .client c .send)
    (h : Lts.exec (Net.step args) σ more = some σ') :
    σ'.requests (acts ++ more) c ≤ σ.requests acts c := by
  induction more generalizing σ acts with
  | nil =>
    cases h
    rw [List.append_nil]
  | cons a more ih =>
    obtain ⟨τ, hτ, h⟩ := Lts.exec_cons_eq_some.mp h
    have hrest : σ'.requests (acts ++ [a] ++ more) c ≤ τ.requests (acts ++ [a]) c :=
      ih (fun b hb => hmore b (List.mem_cons_of_mem _ hb)) h
    rw [List.append_assoc, List.singleton_append] at hrest
    exact hrest.trans ((NetStep.of_step hτ).requests_le (hmore a List.mem_cons_self))

variable [Fintype ι]

omit [DecidableEq ι] in
/-- A client whose ack the server has sends no other before the next broadcast. -/
theorem Counted.requests_le [DecidableEq ι] (h : Counted args acts σ) (c : ι) :
    σ.requests acts c ≤ σ.broadcasts.length + 1 := by
  have hone : ∀ r : Requester, r.underway.length ≤ 1 := by rintro ⟨⟩ <;> simp [Requester.underway]
  unfold Net.requests
  rcases h.phase with ⟨hg, hc⟩ | ⟨ht, hc⟩
  · rw [hg.none, List.length_nil]
    rcases hc.once c with h0 | ⟨h1, hp⟩
    · have := hone (σ.ends c).requester
      omega
    · have hu : (σ.ends c).requester.underway = [] := by
        cases hr : (σ.ends c).requester with
        | sent m => exact absurd hr (hp.received m)
        | _ => rfl
      rw [h1, hu, List.length_nil]
  · rw [hc c]
    rcases ht.placed c with ⟨hn, -⟩ | ⟨hr, hl⟩
    · have := hone (σ.ends c).requester
      rw [if_neg hn]
      omega
    · have hu : (σ.ends c).requester.underway = [] := by
        rcases hl.settled with ⟨-, hq⟩ | ⟨-, hq | ⟨m, hq⟩⟩ <;> rw [hq] <;> rfl
      rw [if_pos hr, hu, List.length_nil]

theorem Counted.broadcasts_le (h : Counted args acts σ) (c : ι) :
    σ.broadcasts.length ≤ σ.requests acts c := by
  unfold Net.requests
  rcases h.phase with ⟨hg, -⟩ | ⟨-, hc⟩
  · rw [hg.none]
    exact Nat.zero_le _
  · rw [hc c]
    omega

/-- **Steps by broadcasts.** When nothing is lost, a run takes 11 steps a client, and 6 a client
and one for each broadcast. -/
theorem Rolling.length_le (h : Rolling args σ) (hlen : ∀ c, (args c).id.length ≤ 57)
    (hdistinct : ∀ c c', (args c).id = (args c').id → c = c')
    (hP : Lts.Along (Net.step args) (fun σ a => a.Lossless σ ∧ a.SubscribesOnce σ) σ more)
    (hmore : Lts.exec (Net.step args) σ more = some σ') :
    more.length ≤ 11 * Fintype.card ι + (6 * Fintype.card ι + 1) * more.countP Act.isBroadcast := by
  have hstep : ∀ σ a σ', Rolling args σ → (a.Lossless σ ∧ a.SubscribesOnce σ) →
      σ.step args a = some σ' → Rolling args σ' :=
    fun _ _ _ h ha hs => h.step hlen hdistinct ha.1 (.of_step hs)
  have hsteps := Lts.exec_length_le_of_marked (Net.work args) Act.isBroadcast
    (6 * Fintype.card ι) hstep (fun σ a σ' h ha hq hs => ?_) (fun σ a σ' h ha hq hs => ?_) h hP
    hmore
  · have : σ.work args ≤ 11 * Fintype.card ι := σ.work_le
    omega
  · refine h.live.work_lt hlen ha.1 ha.2 ?_ (.of_step hs)
    rintro heard rfl
    cases hq
  · refine (hstep σ a σ' h ha hs).work_le fun hnil => ?_
    have hone := (NetStep.of_step hs).broadcasts_length
    rw [hnil, if_pos hq] at hone
    cases hone

/-- **A silent client halts all.** A server for as many clients as there are,
with ids of at most 57 bytes, and nobody starts over; whatever is dropped or
times out. Once a client sends nothing more there is at most one broadcast, and
if ids are distinct, nothing is lost and nobody gives up, all that is left to do
is 17 steps a client and that broadcast. -/
theorem silent_client_halts (hlen : ∀ c, (args c).id.length ≤ 57) {iv : UInt64} {s : Server}
    (hs : ServerReady (Fintype.card ι) iv s) (honce : ∀ a ∈ acts ++ more, a.Once)
    (he : Lts.exec (Net.step args) (Net.init ι s) acts = some σ)
    (hmore : Lts.exec (Net.step args) σ more = some σ') (hc : .client c .send ∉ more) :
    σ'.broadcasts.length ≤ σ.broadcasts.length + 1 ∧
    ((∀ c c', (args c).id = (args c').id → c = c') →
      Lts.Along (Net.step args) (fun σ a => a.Lossless σ ∧ a.SubscribesOnce σ) (Net.init ι s)
        (acts ++ more) →
      more.length ≤ 17 * Fintype.card ι + 1) := by
  have hcount : Counted args acts σ :=
    counted_exec hlen hs (fun a ha => honce a (List.mem_append_left _ ha)) he
  have hcount' : Counted args (acts ++ more) σ' :=
    counted_exec hlen hs honce (Lts.exec_append_eq_some.mpr ⟨σ, he, hmore⟩)
  have hbound : σ'.broadcasts.length ≤ σ.broadcasts.length + 1 :=
    calc σ'.broadcasts.length
        ≤ σ'.requests (acts ++ more) c := hcount'.broadcasts_le c
      _ ≤ σ.requests acts c := requests_le_exec (fun a ha e => hc (e ▸ ha)) hmore
      _ ≤ σ.broadcasts.length + 1 := hcount.requests_le c
  refine ⟨hbound, fun hdistinct hP => ?_⟩
  have hroll : Rolling args σ := Lts.exec_invariant
    (fun _ _ _ h ha hs => h.step hlen hdistinct ha.1 (.of_step hs))
    ⟨live_init hs, fun h => absurd rfl h⟩ hP.left he
  have hsteps := hroll.length_le hlen hdistinct (hP.right he) hmore
  have hfew : more.countP Act.isBroadcast ≤ 1 := by
    have := broadcasts_length_exec hmore
    omega
  have := Nat.mul_le_mul_left (6 * Fintype.card ι + 1) hfew
  omega

/-- Two clients; one falls silent with its first ack under way, and one more broadcast is made. -/
theorem silent_client_halts_two_clients :
    let args := ![ClientArgs.named [97] (by decide) (by decide),
      ClientArgs.named [98] (by decide) (by decide)]
    let acts := join 0 ++ .client 0 .subscribe :: join 1 ++ [.client 1 .subscribe,
      .broadcast fun _ => true, .client 1 .tick, .client 1 .send]
    let more : List (Act (Fin 2)) := [.client 0 .tick, .client 0 .send, .request 1, .answer,
      .request 0, .answer, .broadcast fun _ => true, .client 0 .reply, .client 0 .tick]
    ∃ σ σ', Lts.exec (Net.step args) (Net.init (Fin 2) (.fresh 2 10)) acts = some σ ∧
      Lts.exec (Net.step args) σ more = some σ' ∧
      σ'.broadcasts.length ≤ σ.broadcasts.length + 1 ∧
      more.length ≤ 17 * Fintype.card (Fin 2) + 1 := by
  intro args acts more
  obtain ⟨σ', h⟩ : ∃ σ', Lts.exec (Net.step args) (Net.init (Fin 2) (.fresh 2 10))
      (acts ++ more) = some σ' := Option.isSome_iff_exists.mp (by decide)
  obtain ⟨σ, hσ, hσ'⟩ := Lts.exec_append_eq_some.mp h
  have hhalt := silent_client_halts (c := 1) (by decide)
    (serverReady_fresh (by decide) (by decide) (by decide)) (by decide) hσ hσ' (by simp [more])
  exact ⟨σ, σ', hσ, hσ', hhalt.1, hhalt.2 (by decide) (by decide)⟩

end Simulith
