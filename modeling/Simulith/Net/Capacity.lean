import Mathlib.Data.Finset.Card
import Mathlib.Data.Fintype.Card
import Simulith.Net.Progress

/-!
# Whether the first broadcast can be made

Any number of clients, any ids, any losses, timeouts and restarts. Until the
first broadcast every registered id is that of a client whose READY fits the
receive buffer (`Recruiting`), so there must be as many such ids as the server
expects. If there are, no turn is a wrong one while no READY has overrun the
buffer (`Enrolling`): a client whose id is not registered has not joined, and
can come to send its READY, over a new start if need be.
`broadcast_possible_iff` is both directions, from any reachable state.
-/

namespace Simulith

variable {ι : Type*} {args : ι → ClientArgs} {σ σ' : Net ι} {a : Act ι} {n : Nat}

/-- The ids whose READY fits the server's buffer. -/
def shortIds [Fintype ι] (args : ι → ClientArgs) : Finset (List UInt8) :=
  (Finset.univ.filter fun c => (args c).id.length ≤ 57).image fun c => (args c).id

/-! ## No more registrations than ids -/

/-- The client is before its first tick. -/
structure ClientEnd.Unticked (e : ClientEnd) : Prop where
  feed : e.feed = []
  ack : e.run.pc ≠ .ack
  ackWait : e.run.pc ≠ .ackWait

theorem ClientEnd.unticked_step {args : ClientArgs} {e e' : ClientEnd} {b : ClientAct}
    (h : e.Unticked) (hs : EndStep args e b e') : e'.Unticked := by
  cases hs with
  | init o r _ hpc _ _ _ =>
    refine ⟨h.feed, ?_, ?_⟩ <;> rcases hpc with hpc | hpc <;> simp [hpc]
  | subscribe _ => exact ⟨h.feed, h.ack, h.ackWait⟩
  | sendReady _ _ => exact ⟨h.feed, by simp, by simp⟩
  | sendAck hp _ => exact absurd hp h.ack
  | sendFail _ => exact ⟨h.feed, by simp, by simp⟩
  | joinReply m _ _ =>
    refine ⟨h.feed, ?_, ?_⟩ <;> unfold ClientRun.handshakeReceived <;> split <;>
      (try split) <;> simp
  | ackReply _ hp _ => exact absurd hp h.ackWait
  | timeout _ => exact ⟨h.feed, by simp, by simp⟩
  | tick t feed _ hf =>
    rw [h.feed] at hf
    cases hf
  | restart r _ hr => exact ⟨rfl, by simp [hr], by simp [hr]⟩

/-- The message is a READY of one of the clients. -/
def ReadyOf (args : ι → ClientArgs) (m : Msg) : Prop :=
  ∃ c, handshakeId m = some ((args c).id.take 63)

/-- Before the first broadcast, whatever has been lost. -/
structure Recruiting (args : ι → ClientArgs) (n : Nat) (σ : Net ι) : Prop where
  inv : ServerInv n σ.server
  wired : Wired args σ
  none : σ.broadcasts = []
  unticked : ∀ c, (σ.ends c).Unticked
  stale : ∀ m ∈ σ.stale, ReadyOf args m
  owner : ∀ x ∈ σ.server.ids, ∃ c, (args c).id = x ∧ x.length ≤ 57

theorem recruiting_init {N : Int} {iv : UInt64} {s : Server} (hs : ServerReady N iv s) :
    Recruiting args s.expectedClients (Net.init ι s) where
  inv := serverInv_init hs
  wired := wired_init s
  none := rfl
  unticked _ := ⟨rfl, by simp [Net.init, ClientEnd.zero, ClientRun.zero],
    by simp [Net.init, ClientEnd.zero, ClientRun.zero]⟩
  stale _ hm := absurd hm List.not_mem_nil
  owner x hx := by
    rw [show (Net.init ι s).server.ids = [] from ids_simulithServerRun hs] at hx
    cases hx

theorem Recruiting.sent (h : Recruiting args n σ) {c : ι} {m : Msg}
    (hm : (σ.ends c).requester = .sent m) : ReadyOf args m := by
  rcases (h.wired.ends c).sent hm with ⟨hp, rfl⟩ | ⟨hp, -⟩
  · refine ⟨c, ?_⟩
    rw [Client.handshakeId_readyMsg, h.wired.named c]
    rcases hp with hp | hp <;> simp [hp]
  · exact absurd hp (h.unticked c).ackWait

theorem Recruiting.owner_step (h : Recruiting args n σ) {c : ServerCall} {τ : ServerRun}
    (hs : σ.server.step c = some τ) (hm : ∀ m, c = .recv m → ReadyOf args m) :
    ∀ x ∈ τ.ids, ∃ c, (args c).id = x ∧ x.length ≤ 57 := by
  intro x hx
  rcases ids_step_cases h.inv hs with ⟨e, -⟩ | ⟨m, y, hc, -, hlen, hy, -, -, e⟩
  · exact h.owner x (e ▸ hx)
  · rw [e, List.mem_append, List.mem_singleton] at hx
    rcases hx with hx | rfl
    · exact h.owner x hx
    · obtain ⟨c, hc⟩ := hm m hc
      have hxc : x = (args c).id.take 63 := Option.some.inj (hy.symm.trans hc)
      have hx57 : x.length ≤ 57 := by
        have := (length_handshakeId hy).1
        omega
      refine ⟨c, ?_, hx57⟩
      -- a shorter id has not been cut
      have hcut := congrArg List.length hxc
      rw [List.length_take] at hcut
      rw [hxc, List.take_of_length_le (by omega)]

/-- The handshake phase ends only with as many ids as the server expects. -/
theorem Recruiting.full [Fintype ι] (h : Recruiting args n σ) (hpc : σ.server.pc = .broadcast) :
    n ≤ (shortIds args).card := by
  have hsub : σ.server.ids.toFinset ⊆ shortIds args := by
    intro x hx
    obtain ⟨c, rfl, hlen⟩ := h.owner x (List.mem_toFinset.mp hx)
    exact Finset.mem_image_of_mem _ (Finset.mem_filter.mpr ⟨Finset.mem_univ c, hlen⟩)
  have hcard := Finset.card_le_card hsub
  rwa [List.toFinset_card_of_nodup h.inv.registered.nodup, h.inv.ready,
    h.inv.full (by rw [hpc]; trivial)] at hcard

variable [DecidableEq ι]

theorem Recruiting.step (h : Recruiting args n σ) (hb : ∀ heard, a ≠ .broadcast heard)
    (hs : NetStep args σ a σ') : Recruiting args n σ' := by
  have hinv := hs.serverInv h.inv
  have hwired := h.wired.step hs
  cases hs with
  | client c b e he =>
    refine ⟨hinv, hwired, h.none, ?_, fun m hm => ?_, h.owner⟩
    · exact Net.forall_setEnd (p := fun _ e => e.Unticked)
        (ClientEnd.unticked_step (h.unticked c) he) fun c' _ => h.unticked c'
    · rcases List.mem_append.mp hm with hm | hm
      · exact h.stale m hm
      · cases b with
        | restart =>
          cases hr : (σ.ends c).requester with
          | sent m' =>
            simp only [ClientEnd.leaves, hr, Requester.underway, List.mem_singleton] at hm
            exact hm ▸ h.sent hr
          | _ => simp [ClientEnd.leaves, hr, Requester.underway] at hm
        | _ => cases hm
  | request c m τ hm hs =>
    refine ⟨hinv, hwired, h.none, ?_, h.stale, h.owner_step hs fun m' e => ?_⟩
    · exact Net.forall_setEnd (p := fun _ e => e.Unticked)
        ⟨(h.unticked c).feed, (h.unticked c).ack, (h.unticked c).ackWait⟩ fun c' _ => h.unticked c'
    · cases e
      exact h.sent hm
  | requestStale k m τ hm hs =>
    have hmem : m ∈ σ.stale := List.mem_of_getElem? hm
    refine ⟨hinv, hwired, h.none, h.unticked, fun m' hm' => ?_, h.owner_step hs fun m' e => ?_⟩
    · exact h.stale m' (List.mem_of_mem_eraseIdx hm')
    · cases e
      exact h.stale m hmem
  | answer m τ _ hs =>
    refine ⟨hinv, hwired, h.none, fun c => ?_, h.stale, h.owner_step hs (by rintro _ ⟨⟩)⟩
    exact ⟨(h.unticked c).feed, (h.unticked c).ack, (h.unticked c).ackWait⟩
  | broadcast heard => exact absurd rfl (hb heard)

/-! ## No wrong turn -/

omit [DecidableEq ι] in
theorem ReadyOf.pos {m : Msg} (h : ReadyOf args m) : 0 < m.length := by
  obtain ⟨c, hc⟩ := h
  have := (length_handshakeId hc).1
  omega

/-- Nothing has been broadcast, and no store has left its buffer. -/
structure Enrolling (args : ι → ClientArgs) (n : Nat) (σ : Net ι) : Prop where
  recruiting : Recruiting args n σ
  well : Well σ.server
  phase : σ.server.pc.InHandshake ∨ σ.server.pc = .broadcast
  member : ∀ c, σ.Admitted c → (args c).id ∈ σ.server.ids

omit [DecidableEq ι] in
theorem enrolling_init {N : Int} {iv : UInt64} {s : Server} (hs : ServerReady N iv s) :
    Enrolling args s.expectedClients (Net.init ι s) where
  recruiting := recruiting_init hs
  well := well_init s
  phase := .inl (by
    rw [show (Net.init ι s).server = simulithServerRun s from rfl,
      simulithServerRun_eq hs.spec.1.1]
    trivial)
  member c hc := by rcases hc with hc | ⟨hc, -⟩ <;> cases hc

omit [DecidableEq ι] in
theorem Enrolling.server_step (h : Enrolling args n σ) {c : ServerCall} {τ : ServerRun}
    (hs : σ.server.step c = some τ) (hm : ∀ m, c = .recv m → ReadyOf args m)
    (hc : ∀ t, c ≠ .publish t) (hd : τ.pc ≠ .undefined) :
    Well τ ∧ (τ.pc.InHandshake ∨ τ.pc = .broadcast) := by
  have hfits : ∀ m, c = .recv m → Fits m := by
    rintro m rfl
    by_contra hf
    rcases misfit_step hs hf with ⟨h0, -⟩ | ⟨-, hp⟩
    · exact absurd h0 (hm m rfl).pos.ne'
    · exact hd hp
  refine ⟨(well_step h.well hfits hs).1, ?_⟩
  rw [step_eq_some] at hs
  cases hs with
  | handshakeRecv m _ _ =>
    obtain ⟨r, hp, -⟩ := handshakeReceived_sending σ.server (hfits m rfl)
    exact .inl (by rw [hp]; trivial)
  | tickRecv m hp _ => rcases h.phase with h' | h' <;> rw [hp] at h' <;> cases h'
  | fail _ => exact h.phase
  | handshakeSend r _ =>
    rcases handshakeHead_pc { σ.server with owes := false } with hp | hp
    · exact .inl (by rw [hp]; trivial)
    · exact .inr hp
  | tickSend hp => rcases h.phase with h' | h' <;> rw [hp] at h' <;> cases h'
  | publish _ => exact absurd rfl (hc _)

theorem Enrolling.step (h : Enrolling args n σ) (hb : ∀ heard, a ≠ .broadcast heard)
    (hd : σ'.server.pc ≠ .undefined) (hs : NetStep args σ a σ') : Enrolling args n σ' := by
  have hserver : Well σ'.server ∧ (σ'.server.pc.InHandshake ∨ σ'.server.pc = .broadcast) := by
    cases hs with
    | client => exact ⟨h.well, h.phase⟩
    | request c m τ hm hs =>
      exact h.server_step hs (fun _ e => ServerCall.recv.inj e ▸ h.recruiting.sent hm) nofun hd
    | requestStale k m τ hm hs =>
      have hmem : m ∈ σ.stale := List.mem_of_getElem? hm
      exact h.server_step hs (fun _ e => ServerCall.recv.inj e ▸ h.recruiting.stale m hmem) nofun hd
    | answer m τ _ hs => exact h.server_step hs (by rintro _ ⟨⟩) nofun hd
    | broadcast heard => exact absurd rfl (hb heard)
  refine ⟨h.recruiting.step hb hs, hserver.1, hserver.2, fun c hc => ?_⟩
  rcases hc.of_step h.recruiting.wired hs with hc | ⟨rfl, hp, hack⟩ | ⟨-, -, -, htick⟩
  · exact hs.ids_subset h.recruiting.inv (h.member c hc)
  · rw [(registered_id h.recruiting.wired h.recruiting.inv hs (.inl hp) hack).2]
    exact List.mem_append_right _ (List.mem_singleton_self _)
  · -- the tick phase has not begun
    rcases h.phase with hp | hp <;> rw [htick] at hp <;> cases hp

omit [DecidableEq ι] in
theorem Enrolling.pc_of_lt (h : Enrolling args n σ) (hlt : σ.server.ids.length < n) :
    σ.server.pc.InHandshake := by
  refine h.phase.resolve_right fun hp => ?_
  have hfull := h.recruiting.inv.full (by rw [hp]; trivial)
  have := h.recruiting.inv.ready
  omega

/-! ## The next registration -/

namespace ClientEnd

/-- The acts until the client's READY is under way, at most. -/
def toReady (e : ClientEnd) : Nat :=
  match e.run.pc, e.requester with
  | .await, .sent _ => 1
  | .ready, _ => 2
  | .start, _ => 3
  | .failed, _ => 4
  | _, _ => 5

/-- The acts that bring a client's READY under way, over a new start if another exchange is. -/
def Rejoins (e : ClientEnd) : ClientAct → Prop
  | .init o => o = .ok
  | .send => True
  | .timeout => ∀ m, e.requester ≠ .sent m
  | .restart => True
  | _ => False

variable {args : ClientArgs} {e e' : ClientEnd} {b : ClientAct}

theorem toReady_step (hs : EndStep args e b e') (hj : ¬ e.run.pc.Joined) (hb : e.Rejoins b) :
    e'.toReady < e.toReady := by
  cases hs with
  | init o r hp _ hok => simp [toReady, hp, hok hb]
  | sendReady hp _ => simp [toReady, hp]
  | sendAck hp _ => exact absurd (hp ▸ trivial) hj
  | timeout hp =>
    cases hr : e.requester with
    | sent m => exact absurd hr (hb m)
    | _ => simp [toReady, hp, hr]
  | restart r hp hr => simp [toReady, hp, hr]
  | _ => exact hb.elim

theorem toReady_answer (m : Msg) (e : ClientEnd) : (e.answer m).toReady = e.toReady := by
  unfold toReady answer
  cases e.run.pc <;> cases e.requester <;> rfl

/-- A client that has not joined has its READY under way, or can come nearer to it. -/
theorem exists_rejoin (args : ClientArgs) (hw : e.Wired) (hj : ¬ e.run.pc.Joined) :
    (e.run.pc = .await ∧ ∃ m, e.requester = .sent m) ∨
      ∃ b e', e.step args b = some e' ∧ e.Rejoins b := by
  have hstep : ∀ b, (e.step args b).isSome → e.Rejoins b →
      ∃ b e', e.step args b = some e' ∧ e.Rejoins b := fun b hb hr =>
    have ⟨e', he⟩ := Option.isSome_iff_exists.mp hb
    ⟨b, e', he, hr⟩
  cases hp : e.run.pc with
  | start => exact .inr (hstep (.init .ok) (step_init_isSome hp _) rfl)
  | ready =>
    have hidle : e.requester = .idle := hw.idle (.inr (.inl hp))
    exact .inr (hstep .send (step_send_isSome (.inl hp) hidle) trivial)
  | await =>
    by_cases hm : ∃ m, e.requester = .sent m
    · exact .inl ⟨rfl, hm⟩
    · exact .inr (hstep .timeout (by simp [step, ClientRun.step, hp]) fun m hr => hm ⟨m, hr⟩)
  | failed => exact .inr (hstep .restart (by simp [step, ClientRun.step, hp]) trivial)
  | undefined => simp only [Wired, hp] at hw
  | _ => exact absurd (hp ▸ trivial) hj

end ClientEnd

theorem Enrolling.answer (h : Enrolling args n σ) {r : Reply}
    (hpc : σ.server.pc = .handshakeSend r) :
    ∃ σ', σ.step args .answer = some σ' ∧ Enrolling args n σ' ∧
      σ'.server = { σ.server with owes := false }.handshakeHead ∧
      ∀ c, σ'.ends c = (σ.ends c).answer r.bytes := by
  have hto : σ.server.toSend = some r.bytes := by rw [ServerRun.toSend, hpc]
  have hsend := step_eq_some.mpr (ServerStep.handshakeSend (σ := σ.server) r hpc)
  refine ⟨_, by simp only [Net.step, hto, hsend, Option.map_some],
    h.step (by rintro _ ⟨⟩) ?_ (.answer _ _ hto hsend), rfl, fun _ => rfl⟩
  exact defined_step h.well.defined (by rintro _ ⟨⟩) hsend

theorem Enrolling.client (h : Enrolling args n σ) {c : ι} {b : ClientAct} {e : ClientEnd}
    (he : (σ.ends c).step (args c) b = some e) :
    ∃ σ', σ.step args (.client c b) = some σ' ∧ Enrolling args n σ' ∧ σ'.server = σ.server ∧
      σ'.ends c = e :=
  ⟨_, congrArg (Option.map _) he,
    h.step (by rintro _ ⟨⟩) h.well.defined (.client c b e (.of_step he)), rfl,
    Function.update_self _ _ _⟩

theorem Enrolling.exists_exec_ready (h : Enrolling args n σ) (hlt : σ.server.ids.length < n)
    {c : ι} (hnew : (args c).id ∉ σ.server.ids) :
    ∃ more τ, Lts.exec (Net.step args) σ more = some τ ∧ Enrolling args n τ ∧
      τ.server.ids = σ.server.ids ∧ τ.server.pc = .handshakeRecv ∧
      (τ.ends c).run.pc = .await ∧ ∃ m, (τ.ends c).requester = .sent m := by
  -- a reply that is due goes out, and the client comes nearer to its READY
  have hprog : ∀ τ, Enrolling args n τ ∧ τ.server.ids = σ.server.ids →
      (τ.server.pc = .handshakeRecv ∧ (τ.ends c).run.pc = .await ∧
        ∃ m, (τ.ends c).requester = .sent m) ∨
      ∃ a τ', (Enrolling args n τ' ∧ τ'.server.ids = σ.server.ids) ∧ τ.step args a = some τ' ∧
        (τ'.ends c).toReady + (if τ'.server.owes then 1 else 0) <
          (τ.ends c).toReady + (if τ.server.owes then 1 else 0) := by
    rintro τ ⟨hen, hids⟩
    have hphase : τ.server.pc.InHandshake := hen.pc_of_lt (by rwa [hids])
    cases hpc : τ.server.pc with
    | handshakeSend r =>
      obtain ⟨τ', hs, hen', hserver, hends⟩ := hen.answer hpc
      refine .inr ⟨.answer, τ', ⟨hen', by rw [hserver, handshakeHead_ids]; exact hids⟩, hs, ?_⟩
      have ho : τ.server.owes = true := hen.well.owes.mpr (by rw [hpc]; trivial)
      rw [hends, ClientEnd.toReady_answer, hserver, handshakeHead_owes, ho]
      simp
    | handshakeRecv =>
      have hj : ¬ (τ.ends c).run.pc.Joined := fun hj => hnew (hids ▸ hen.member c (.inl hj))
      have hw : (τ.ends c).Wired := hen.recruiting.wired.ends c
      rcases ClientEnd.exists_rejoin (args c) hw hj with hG | ⟨b, e, he, hb⟩
      · exact .inl ⟨rfl, hG⟩
      · obtain ⟨τ', hs, hen', hserver, hc⟩ := hen.client he
        refine .inr ⟨.client c b, τ', ⟨hen', by rw [hserver]; exact hids⟩, hs, ?_⟩
        rw [hc, hserver]
        exact Nat.add_lt_add_right (ClientEnd.toReady_step (.of_step he) hj hb) _
    | _ => rw [hpc] at hphase; cases hphase
  obtain ⟨more, τ, -, hτ, ⟨hen, hids⟩, hG⟩ := Lts.exists_exec_state
    (P := fun τ a => ∀ τ', τ.step args a = some τ' →
      Enrolling args n τ' ∧ τ'.server.ids = σ.server.ids)
    _ (fun _ _ _ _ hP hs => hP _ hs)
    (fun τ hτ => (hprog τ hτ).imp_right fun ⟨a, τ', hI, hs, hlt⟩ =>
      ⟨a, τ', fun υ hυ => by rw [hs] at hυ; cases hυ; exact hI, hs, hlt⟩) ⟨h, rfl⟩
  exact ⟨more, τ, hτ, hen, hids, hG⟩

theorem Enrolling.request (h : Enrolling args n σ) {c : ι} {m : Msg}
    (hpc : σ.server.pc = .handshakeRecv) (hp : (σ.ends c).run.pc = .await)
    (hm : (σ.ends c).requester = .sent m) (hlen : (args c).id.length ≤ 57)
    (hnew : (args c).id ∉ σ.server.ids) :
    ∃ σ', σ.step args (.request c) = some σ' ∧ Enrolling args n σ' ∧
      σ'.server.ids = σ.server.ids ++ [(args c).id] := by
  have hname : (σ.ends c).run.client.name = (args c).id := by
    rw [h.recruiting.wired.named c (by simp [hp]), List.take_of_length_le (by omega)]
  have hready : m = (σ.ends c).run.client.readyMsg :=
    (h.recruiting.wired.ends c).ready hm (.inl hp)
  have hfit : Fits m := hready ▸ Client.fits_readyMsg (by rw [hname]; exact hlen)
  have hid : handshakeId m = some (args c).id := by
    rw [hready, Client.handshakeId_readyMsg, hname]
  have hrecv : σ.server.step (.recv m) = some (σ.server.handshakeReceived m) :=
    step_eq_some.mpr (.handshakeRecv m hpc (h.well.not_owes (.inl hpc)))
  have hack : (σ.server.handshakeReceived m).pc = .handshakeSend .ack := by
    refine ack_of_new h.recruiting.inv hpc ?_ ?_ hid (args c).id_ne hnew hrecv
    · have := hfit.1; omega
    · have := hfit.2; omega
  have hstep : NetStep args σ (.request c) _ := .request c m _ hm hrecv
  exact ⟨_, by simp only [Net.step, hm, hrecv, Option.map_some],
    h.step (by rintro _ ⟨⟩) (by simp [hack]) hstep,
    (registered_id h.recruiting.wired h.recruiting.inv hstep (.inl hp) hack).2⟩

omit [DecidableEq ι] in
theorem exists_short [Fintype ι] (args : ι → ClientArgs) (ids : List (List UInt8))
    (h : ids.length < (shortIds args).card) :
    ∃ c, (args c).id.length ≤ 57 ∧ (args c).id ∉ ids := by
  classical
  have hlt : ids.toFinset.card < (shortIds args).card := ids.toFinset_card_le.trans_lt h
  obtain ⟨x, hx, hnew⟩ := Finset.exists_mem_notMem_of_card_lt_card hlt
  obtain ⟨c, hc, rfl⟩ := Finset.mem_image.mp hx
  exact ⟨c, (Finset.mem_filter.mp hc).2, fun h => hnew (List.mem_toFinset.mpr h)⟩

/-- With enough short ids the handshake phase can be brought to its end. -/
theorem Enrolling.exists_exec_full [Fintype ι] (h : Enrolling args n σ)
    (hcard : n ≤ (shortIds args).card) :
    ∃ more σ', Lts.exec (Net.step args) σ more = some σ' ∧ σ'.server.pc = .broadcast := by
  have hle : σ.server.ids.length ≤ n := h.recruiting.inv.ready ▸ h.recruiting.inv.readyLe
  induction hk : n - σ.server.ids.length generalizing σ with
  | zero =>
    cases hpc : σ.server.pc with
    | broadcast => exact ⟨[], σ, rfl, hpc⟩
    | handshakeSend r =>
      obtain ⟨σ', hs, hen, hserver, -⟩ := h.answer hpc
      refine ⟨[.answer], σ', Lts.exec_cons_eq_some.mpr ⟨σ', hs, rfl⟩, ?_⟩
      have hready := h.recruiting.inv.ready
      have hexp := h.recruiting.inv.expected
      rw [hserver, ServerRun.handshakeHead, if_neg (by simp only; omega)]
    | handshakeRecv =>
      have := h.recruiting.inv.waiting hpc
      have := h.recruiting.inv.ready
      omega
    | _ => rcases h.phase with hp | hp <;> rw [hpc] at hp <;> cases hp
  | succ k ih =>
    obtain ⟨c, hlen, hnew⟩ := exists_short args σ.server.ids (by omega)
    obtain ⟨as, τ, hτ, hen, hids, hpc, hp, m, hm⟩ := h.exists_exec_ready (by omega) hnew
    obtain ⟨υ, hs, hen', hids'⟩ := hen.request hpc hp hm hlen (hids ▸ hnew)
    have hlen' : υ.server.ids.length = σ.server.ids.length + 1 := by
      rw [hids', hids, List.length_append, List.length_singleton]
    obtain ⟨bs, σ', hσ', hbr⟩ := ih hen' (by omega) (by omega)
    exact ⟨as ++ .request c :: bs, σ', Lts.exec_append_eq_some.mpr ⟨τ, hτ,
      Lts.exec_cons_eq_some.mpr ⟨υ, hs, hσ'⟩⟩, hbr⟩

/-! ## Any reachable state -/

/-- Without enough short ids there is no broadcast. -/
theorem Recruiting.exec [Fintype ι] {acts : List (Act ι)} (h : Recruiting args n σ)
    (hfew : (shortIds args).card < n) (he : Lts.exec (Net.step args) σ acts = some σ') :
    Recruiting args n σ' := by
  refine Lts.exec_preserves (fun τ a τ' h hs => h.step (fun heard e => ?_) (.of_step hs)) h he
  subst e
  cases NetStep.of_step hs with
  | broadcast _ υ hυ =>
    have := h.full (pc_publish hυ).1
    omega

theorem NetStep.undefined (h : σ.server.pc = .undefined) (hs : NetStep args σ a σ') :
    σ'.server = σ.server ∧ σ'.broadcasts = σ.broadcasts := by
  have hstuck := step_undefined h
  cases hs with
  | client => exact ⟨rfl, rfl⟩
  | request _ _ _ _ hr => cases (hstuck _).symm.trans hr
  | requestStale _ _ _ _ hr => cases (hstuck _).symm.trans hr
  | answer _ _ _ hr => cases (hstuck _).symm.trans hr
  | broadcast _ _ hr => cases (hstuck _).symm.trans hr

theorem undefined_exec {acts : List (Act ι)} (h : σ.server.pc = .undefined)
    (he : Lts.exec (Net.step args) σ acts = some σ') : σ'.broadcasts = σ.broadcasts := by
  refine (Lts.exec_preserves
    (I := fun τ => τ.server.pc = .undefined ∧ τ.broadcasts = σ.broadcasts)
    (fun τ a τ' hτ hs => ?_) ⟨h, rfl⟩ he).2
  obtain ⟨hserver, hb⟩ := (NetStep.of_step hs).undefined hτ.1
  exact ⟨hserver ▸ hτ.1, hb.trans hτ.2⟩

theorem NetStep.broadcasts_ne (hs : NetStep args σ a σ') (h : σ.broadcasts ≠ []) :
    σ'.broadcasts ≠ [] := by
  cases hs with
  | broadcast => simp
  | _ => exact h

theorem enrolling_exec {N : Int} {iv : UInt64} {s : Server} (hs : ServerReady N iv s)
    {acts : List (Act ι)} (he : Lts.exec (Net.step args) (Net.init ι s) acts = some σ) :
    σ.broadcasts ≠ [] ∨ Recruiting args s.expectedClients σ ∧
      (σ.server.pc = .undefined ∨ Enrolling args s.expectedClients σ) := by
  refine Lts.exec_preserves (I := fun σ => σ.broadcasts ≠ [] ∨
    Recruiting args s.expectedClients σ ∧
      (σ.server.pc = .undefined ∨ Enrolling args s.expectedClients σ))
    (fun τ a τ' h hτ => ?_) (.inr ⟨recruiting_init hs, .inr (enrolling_init hs)⟩) he
  have hτ' := NetStep.of_step hτ
  rcases h with h | ⟨hrec, h⟩
  · exact .inl (hτ'.broadcasts_ne h)
  by_cases hb : ∃ heard, a = .broadcast heard
  · obtain ⟨heard, rfl⟩ := hb
    cases hτ' with
    | broadcast => exact .inl (by simp)
  · have hb' : ∀ heard, a ≠ .broadcast heard := fun heard e => hb ⟨heard, e⟩
    refine .inr ⟨hrec.step hb' hτ', ?_⟩
    by_cases hd : τ'.server.pc = .undefined
    · exact .inl hd
    · refine .inr ((h.resolve_left fun hu => hd ?_).step hb' hd hτ')
      rw [(hτ'.undefined hu).1, hu]

/-- **Whether the simulation can begin.** For any clients and any number of them,
and in every reachable state, whatever has been lost, has timed out or has
started over: the server can still come to its first broadcast if and only if no
READY has overrun its buffer and at least as many distinct ids of at most 57
bytes are among the clients as it has been initialised for. -/
theorem broadcast_possible_iff [Fintype ι] {N : Int} {iv : UInt64} {s : Server}
    (hs : ServerReady N iv s) {acts : List (Act ι)}
    (he : Lts.exec (Net.step args) (Net.init ι s) acts = some σ) :
    (∃ more σ', Lts.exec (Net.step args) σ more = some σ' ∧ σ'.broadcasts ≠ []) ↔
      σ.broadcasts ≠ [] ∨ (σ.server.pc ≠ .undefined ∧ N ≤ (shortIds args).card) := by
  have hN : N = s.expectedClients := hs.spec.1.2.2
  rcases enrolling_exec hs he with hb | ⟨hrec, h⟩
  · exact ⟨fun _ => .inl hb, fun _ => ⟨[], σ, rfl, hb⟩⟩
  constructor
  · rintro ⟨more, σ', hmore, hb⟩
    refine .inr ⟨fun hu => ?_, ?_⟩
    · exact hb ((undefined_exec hu hmore).trans hrec.none)
    · by_contra hfew
      exact hb (hrec.exec (by omega) hmore).none
  · rintro (hb | ⟨hd, hcard⟩)
    · exact absurd hrec.none hb
    · obtain ⟨more, τ, hτ, hpc⟩ := (h.resolve_left hd).exists_exec_full (by omega)
      have hpub := step_eq_some.mpr (ServerStep.publish hpc)
      obtain ⟨σ', hσ'⟩ : ∃ σ', τ.step args (.broadcast fun _ => true) = some σ' :=
        ⟨_, congrArg (Option.map _) hpub⟩
      refine ⟨more ++ [.broadcast fun _ => true], σ', Lts.exec_snoc_eq_some.mpr ⟨τ, hτ, hσ'⟩, ?_⟩
      cases NetStep.of_step hσ' with
      | broadcast _ υ _ => simp

/-- Three clients, two of them with the same id, the first of them registered
and starting over: enough for two, not for three. -/
theorem broadcast_possible_three_clients :
    let a := ClientArgs.named [97] (by decide) (by decide)
    let b := ClientArgs.named [98] (by decide) (by decide)
    let acts : List (Act (Fin 3)) := [.client 0 (.init .ok), .client 0 .send, .request 0,
      .client 0 .timeout, .client 0 .restart, .answer]
    (∃ σ, Lts.exec (Net.step ![a, a, b]) (Net.init (Fin 3) (.fresh 2 10)) acts = some σ ∧
      ∃ more σ', Lts.exec (Net.step ![a, a, b]) σ more = some σ' ∧ σ'.broadcasts ≠ []) ∧
    ∃ σ, Lts.exec (Net.step ![a, a, b]) (Net.init (Fin 3) (.fresh 3 10)) acts = some σ ∧
      ¬ ∃ more σ', Lts.exec (Net.step ![a, a, b]) σ more = some σ' ∧ σ'.broadcasts ≠ [] :=
  have ⟨σ, h, hd⟩ := Lts.exists_exec_of_any (Q := fun σ => σ.server.pc ≠ .undefined) (by decide)
  have ⟨τ, h', hb⟩ := Lts.exists_exec_of_any (Q := fun τ => τ.broadcasts = []) (by decide)
  ⟨⟨σ, h, (broadcast_possible_iff (serverReady_fresh (by decide) (by decide) (by decide)) h).mpr
      (.inr ⟨hd, by decide⟩)⟩,
    ⟨τ, h', fun hc => ((broadcast_possible_iff
      (serverReady_fresh (by decide) (by decide) (by decide)) h').mp hc).elim (absurd hb)
      fun hn => absurd hn.2 (by decide)⟩⟩

end Simulith
