import Mathlib.Data.Finset.Card
import Mathlib.Data.Fintype.Card
import Simulith.Net.Admission
import Simulith.Server.Registry

/-!
# Before the first broadcast

The clients are as many as the server expects, none of them starts over
(`Act.Once`), and their ids have at most 57 bytes. Then every request fits
(`Steady`), each registered id belongs to a client whose READY was answered ACK
(`Gathering.owner`), and by counting the handshake phase ends only if all ids
are distinct and all clients are among these (`Gathering.full`).
-/

namespace Simulith

variable {ι : Type*} {args : ι → ClientArgs} {σ σ' : Net ι} {a : Act ι} {c : ι} {n : Nat}

/-- Nobody starts over. -/
def Act.Once : Act ι → Prop
  | .client _ .restart => False
  | _ => True

instance (a : Act ι) : Decidable a.Once :=
  match a with
  | .client _ .restart => isFalse id
  | .client _ (.init _) => isTrue trivial
  | .client _ .subscribe => isTrue trivial
  | .client _ .send => isTrue trivial
  | .client _ .sendFail => isTrue trivial
  | .client _ .reply => isTrue trivial
  | .client _ .timeout => isTrue trivial
  | .client _ .tick => isTrue trivial
  | .request _ => isTrue trivial
  | .requestStale _ => isTrue trivial
  | .answer => isTrue trivial
  | .broadcast _ => isTrue trivial

/-! ## Steady runs -/

theorem Wired.fits (hw : Wired args σ) (hlen : ∀ c, (args c).id.length ≤ 57) {m : Msg}
    (hm : (σ.ends c).requester = .sent m) : Fits m := by
  have hname : (σ.ends c).run.pc ≠ .start → (σ.ends c).run.client.name = (args c).id := by
    intro hp
    have := hlen c
    rw [hw.named c hp, List.take_of_length_le (by omega)]
  rcases (hw.ends c).sent hm with ⟨hp, rfl⟩ | ⟨hp, rfl⟩
  · have hp' : (σ.ends c).run.pc ≠ .start := by rcases hp with hp | hp <;> rw [hp] <;> exact nofun
    exact Client.fits_readyMsg (by rw [hname hp']; exact hlen c)
  · rw [Client.ackMsg_eq, hname (by rw [hp]; exact nofun)]
    have := hlen c
    exact ⟨List.length_pos_iff.mpr (args c).id_ne, by omega⟩

/-- What holds in all runs considered here: no request is too long, none is stale. -/
structure Steady (args : ι → ClientArgs) (n : Nat) (σ : Net ι) : Prop where
  wired : Wired args σ
  inv : ServerInv n σ.server
  well : Well σ.server
  stale : σ.stale = []

theorem steady_init [Fintype ι] {iv : UInt64} {s : Server}
    (hs : ServerReady (Fintype.card ι) iv s) : Steady args (Fintype.card ι) (Net.init ι s) := by
  have hcard : s.expectedClients = Fintype.card ι := by have := hs.spec.1.2.2; omega
  exact hcard ▸ ⟨wired_init s, serverInv_init hs, well_init s, rfl⟩

variable [DecidableEq ι]

theorem Steady.server (h : Steady args n σ) (hlen : ∀ c, (args c).id.length ≤ 57)
    (hs : NetStep args σ a σ') :
    σ'.server = σ.server ∨ ∃ c, σ.server.step c = some σ'.server ∧
      (∀ m, c = .recv m → Fits m) ∧ (c.time = none ∨ ∃ heard, a = .broadcast heard) := by
  cases hs with
  | client => exact .inl rfl
  | request c m τ hm hs =>
    refine .inr ⟨_, hs, fun m' e => ?_, .inl rfl⟩
    obtain rfl := ServerCall.recv.inj e
    exact h.wired.fits hlen hm
  | requestStale k m τ hm hs =>
    rw [h.stale] at hm
    cases hm
  | answer m τ _ hs => exact .inr ⟨_, hs, by rintro _ ⟨⟩, .inl rfl⟩
  | broadcast heard τ hs => exact .inr ⟨_, hs, by rintro _ ⟨⟩, .inr ⟨heard, rfl⟩⟩

theorem Steady.step (h : Steady args n σ) (hlen : ∀ c, (args c).id.length ≤ 57) (ha : a.Once)
    (hs : NetStep args σ a σ') : Steady args n σ' where
  wired := h.wired.step hs
  inv := hs.serverInv h.inv
  well := by
    rcases h.server hlen hs with e | ⟨c, hc, hm, -⟩
    · rw [e]; exact h.well
    · exact (well_step h.well hm hc).1
  stale := by
    cases hs with
    | client c b e _ =>
      have hleaves : (σ.ends c).leaves b = [] := by
        cases b
        case restart => exact ha.elim
        all_goals rfl
      simp only [h.stale, hleaves, List.append_nil]
    | request => exact h.stale
    | requestStale k m τ hm _ =>
      rw [h.stale] at hm
      cases hm
    | answer => exact h.stale
    | broadcast => exact h.stale

/-! ## Enrolled clients -/

/-- Its READY was answered ACK, whatever became of the client. -/
def ClientEnd.Enrolled (e : ClientEnd) (pc : ServerPc) : Prop :=
  e.Admitted pc ∨ (e.run.pc = .failed ∧ e.Granted pc)

def Net.Enrolled (σ : Net ι) (c : ι) : Prop := (σ.ends c).Enrolled σ.server.pc

theorem Net.Enrolled.step (h : σ.Enrolled c) (hw : Wired args σ) (ha : a.Once)
    (hs : NetStep args σ a σ') : σ'.Enrolled c := by
  rcases h with h | ⟨hp, hg⟩
  · by_cases ht : a = .client c .timeout
    · -- the timeout: what is granted stays granted
      subst ht
      cases hs with
      | client _ _ e he =>
        right
        simp only [Net.setEnd, Function.update_self]
        cases he with
        | timeout hp =>
          rcases h with h | ⟨-, hg⟩
          · rw [hp] at h; cases h
          · exact ⟨rfl, hg⟩
    · exact .inl (Net.Admitted.step h hw hs ht)
  · right
    by_cases hc : ∃ b, a = .client c b
    · obtain ⟨b, rfl⟩ := hc
      cases hs with
      | client _ _ e he =>
        simp only [Net.setEnd, Function.update_self]
        cases he with
        | subscribe _ => exact ⟨hp, hg⟩
        | restart => exact ha.elim
        | _ => simp_all
    · have hc' : ∀ b, a ≠ .client c b := fun b e => hc ⟨b, e⟩
      exact ⟨by rw [hs.run_eq hc']; exact hp, hs.granted hw hc' hg⟩

/-! ## The invariant -/

/-- No tick has reached the client. -/
structure ClientEnd.Silent (e : ClientEnd) : Prop where
  feed : e.feed = []
  ticks : e.run.ticks = []
  pc : e.run.pc ≠ .ack ∧ e.run.pc ≠ .ackWait

theorem ClientEnd.silent_step {args : ClientArgs} {e e' : ClientEnd} {a : ClientAct} (h : e.Silent)
    (ha : a ≠ .restart) (hs : EndStep args e a e') : e'.Silent := by
  cases hs with
  | init o r _ hpc _ ht _ =>
    refine ⟨h.feed, ht.trans h.ticks, ?_⟩
    rcases hpc with hpc | hpc <;> rw [hpc] <;> exact ⟨nofun, nofun⟩
  | subscribe _ => exact ⟨h.feed, h.ticks, h.pc⟩
  | sendReady _ _ => exact ⟨h.feed, h.ticks, nofun, nofun⟩
  | sendAck hp _ => exact absurd hp h.pc.1
  | sendFail _ => exact ⟨h.feed, h.ticks, nofun, nofun⟩
  | joinReply m _ _ =>
    refine ⟨h.feed, ?_, ?_⟩ <;> unfold ClientRun.handshakeReceived <;> split
    · exact h.ticks
    · exact h.ticks
    · exact ⟨nofun, nofun⟩
    · simp only; split <;> exact ⟨nofun, nofun⟩
  | ackReply _ hp _ => exact absurd hp h.pc.2
  | timeout _ => exact ⟨h.feed, h.ticks, nofun, nofun⟩
  | tick t feed _ hf =>
    rw [h.feed] at hf
    cases hf
  | restart => exact absurd rfl ha

/-- The net before the first broadcast. -/
structure Gathering (args : ι → ClientArgs) (σ : Net ι) : Prop where
  early : ∃ t iv, Early t iv σ.server
  none : σ.broadcasts = []
  silent : ∀ c, (σ.ends c).Silent
  owner : ∀ x ∈ σ.server.ids, ∃ c, (args c).id = x ∧ σ.Enrolled c

omit [DecidableEq ι] in
theorem gathering_init {N : Int} {iv : UInt64} {s : Server} (hs : ServerReady N iv s) :
    Gathering args (Net.init ι s) where
  early := ⟨_, _, early_run hs (fun _ h => by cases h) rfl (Lts.exec_nil _)⟩
  none := rfl
  silent _ := ⟨rfl, rfl, nofun, nofun⟩
  owner x hx := by
    rw [show (Net.init ι s).server.ids = [] from ids_simulithServerRun hs] at hx
    cases hx

/-- **Gathering goes on until the first broadcast.** -/
theorem Gathering.step (h : Gathering args σ) (hst : Steady args n σ)
    (hlen : ∀ c, (args c).id.length ≤ 57) (ha : a.Once) (hb : ∀ heard, a ≠ .broadcast heard)
    (hs : NetStep args σ a σ') : Gathering args σ' := by
  have hkeep : ∀ x ∈ σ.server.ids, ∃ c, (args c).id = x ∧ σ'.Enrolled c := fun x hx =>
    have ⟨c, hc, he⟩ := h.owner x hx
    ⟨c, hc, he.step hst.wired ha hs⟩
  refine { early := ?_, none := ?_, silent := ?_, owner := fun x hx => ?_ }
  · obtain ⟨t, iv, he⟩ := h.early
    rcases hst.server hlen hs with e | ⟨c, hc, hm, ht | ⟨heard, e⟩⟩
    · exact ⟨t, iv, by rw [e]; exact he⟩
    · exact ⟨t, iv, early_step hst.inv he hm ht hc⟩
    · exact absurd e (hb heard)
  · cases hs with
    | broadcast heard => exact absurd rfl (hb heard)
    | _ => exact h.none
  · cases hs with
    | client c b e he =>
      exact Net.forall_setEnd (p := fun _ e => e.Silent)
        (ClientEnd.silent_step (h.silent c) (by rintro rfl; exact ha) he) fun c _ => h.silent c
    | request c =>
      exact Net.forall_setEnd (p := fun _ e => e.Silent)
        ⟨(h.silent c).feed, (h.silent c).ticks, (h.silent c).pc⟩ fun c _ => h.silent c
    | requestStale => exact h.silent
    | answer => exact fun c => ⟨(h.silent c).feed, (h.silent c).ticks, (h.silent c).pc⟩
    | broadcast heard => exact absurd rfl (hb heard)
  · rcases hs.ids_cases hst.inv with e | ⟨c, rfl, -, hack⟩ | ⟨k, -, hk, -⟩
    · exact hkeep x (e ▸ hx)
    · -- a READY registers, and its sender is then enrolled
      have hp : (σ.ends c).run.pc = .await ∨ (σ.ends c).run.pc = .failed := by
        cases hs with
        | request _ m τ hm _ =>
          rcases (hst.wired.ends c).sent hm with ⟨hp, -⟩ | ⟨hp, -⟩
          · exact hp
          · exact absurd hp (h.silent c).pc.2
      have hreg := registered_id hst.wired hst.inv hs hp hack
      rcases List.mem_append.mp (hreg.2 ▸ hx) with hx | hx
      · exact hkeep x hx
      · obtain ⟨hp', hg⟩ := granted_of_ack hs hack
        refine ⟨c, (List.mem_singleton.mp hx).symm, ?_⟩
        exact hp.imp (fun hp => .inr ⟨hp'.trans hp, hg⟩) fun hp => ⟨hp'.trans hp, hg⟩
    · rw [hst.stale] at hk
      exact absurd hk (Nat.not_lt_zero k)

/-! ## All there -/

omit [DecidableEq ι] in
theorem injective_of_nodup_card {α : Type*} [DecidableEq α] [Fintype ι] {f : ι → α} {l : List α}
    (hl : l.Nodup) (hcard : l.length = Fintype.card ι) (h : ∀ x ∈ l, ∃ c, f c = x) :
    Function.Injective f ∧ ∀ c, f c ∈ l := by
  have hsub : l.toFinset ⊆ Finset.univ.image f := by
    intro x hx
    obtain ⟨c, hc⟩ := h x (List.mem_toFinset.mp hx)
    exact Finset.mem_image.mpr ⟨c, Finset.mem_univ c, hc⟩
  have hle : (Finset.univ.image f).card ≤ l.toFinset.card := by
    rw [List.toFinset_card_of_nodup hl, hcard]
    exact Finset.card_image_le
  have heq := Finset.eq_of_subset_of_card_le hsub hle
  constructor
  · have hcard' : (Finset.univ.image f).card = (Finset.univ : Finset ι).card := by
      rw [← heq, List.toFinset_card_of_nodup hl, hcard, Finset.card_univ]
    have := Finset.card_image_iff.mp hcard'
    rwa [Finset.coe_univ, Set.injOn_univ] at this
  · intro c
    rw [← List.mem_toFinset, heq]
    exact Finset.mem_image_of_mem f (Finset.mem_univ c)

omit [DecidableEq ι] in
/-- **The handshake phase ends with all clients enrolled**, under distinct ids. -/
theorem Gathering.full [Fintype ι] (h : Gathering args σ) (hst : Steady args (Fintype.card ι) σ)
    (hpc : σ.server.pc = .broadcast) :
    (∀ c c', (args c).id = (args c').id → c = c') ∧ (∀ c, (args c).id ∈ σ.server.ids) ∧
      ∀ c, σ.Enrolled c := by
  have hcard : σ.server.ids.length = Fintype.card ι := by
    rw [hst.inv.ready]
    exact hst.inv.full (by rw [hpc]; trivial)
  obtain ⟨hinj, hall⟩ := injective_of_nodup_card (f := fun c => (args c).id)
    hst.inv.registered.nodup hcard fun x hx => have ⟨c, hc, _⟩ := h.owner x hx; ⟨c, hc⟩
  refine ⟨fun _ _ e => hinj e, hall, fun c => ?_⟩
  obtain ⟨c', hc', he⟩ := h.owner _ (hall c)
  rwa [hinj hc'] at he

end Simulith
