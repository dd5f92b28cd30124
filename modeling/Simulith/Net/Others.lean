import Simulith.Lts.Refine
import Simulith.Net.Members
import Simulith.Net.Replies

/-!
# Clients that are not members

The server registers whoever it receives in the handshake phase, so what it
receives from a client it never registers comes in the tick phase, where it is
booked on nobody: the server takes the request, answers it, and waits as before.
A run with the other clients taken out is therefore a run (`Without`), in which
the members and the server do the same.
-/

namespace Simulith

/-- The act is one of the clients in `M`, the receipt of a request of theirs, or a broadcast. -/
def Act.concerns {ι : Type*} (M : ι → Prop) [DecidablePred M] : Act ι → Bool
  | .client c _ => M c
  | .request c => M c
  | .broadcast _ => true
  | _ => false

variable {ι : Type*} {args : ι → ClientArgs} {M : ι → Prop} {σ σ' τ : Net ι} {a : Act ι} {n : Nat}

/-- The ends `g` are those of `f` for the clients in `M`; the others have not begun. -/
structure Kept (M : ι → Prop) (f g : ι → ClientEnd) : Prop where
  member : ∀ c, M c → g c = f c
  other : ∀ c, ¬ M c → g c = .zero

/-- `τ` is `σ` without the clients outside `M`: there the server has not received the request it
holds of one of them in `σ`. -/
structure Without (M : ι → Prop) (σ τ : Net ι) : Prop where
  server : τ.server = σ.server ∨
    (σ.server.pc = .tickSend ∧ τ.server = { σ.server with pc := .tickRecv, owes := false } ∧
      σ.server.server.allClientsResponded = false ∧ ∀ c, M c → (σ.ends c).requester ≠ .held)
  ends : Kept M σ.ends τ.ends
  stale : τ.stale = []
  broadcasts : τ.broadcasts = σ.broadcasts

theorem without_init (s : Server) : Without M (Net.init ι s) (Net.init ι s) :=
  ⟨.inl rfl, ⟨fun _ _ => rfl, fun _ _ => rfl⟩, rfl, rfl⟩

/-! ## What is not noticed -/

theorem Without.server_eq (h : Without M σ τ) {c : ServerCall} {υ : ServerRun}
    (hs : σ.server.step c = some υ) (hc : ∀ m, c ≠ .send m) : τ.server = σ.server := by
  refine h.server.resolve_right ?_
  rintro ⟨hp, -⟩
  rw [step_eq_some] at hs
  cases hs with
  | handshakeRecv _ hp' _ => rw [hp] at hp'; cases hp'
  | tickRecv _ hp' _ => rw [hp] at hp'; cases hp'
  | fail hp' => rcases hp' with hp' | hp' <;> rw [hp] at hp' <;> cases hp'
  | handshakeSend _ _ => exact hc _ rfl
  | tickSend _ => exact hc _ rfl
  | publish hp' => rw [hp] at hp'; cases hp'

theorem tickSend_unnoticed {τ τ' : ServerRun} {m : Msg} (hp : τ.pc = .tickSend)
    (hall : τ.server.allClientsResponded = false) (hs : τ.step (.send m) = some τ') :
    τ' = { τ with pc := .tickRecv, owes := false } := by
  rw [step_eq_some] at hs
  cases hs with
  | handshakeSend _ hp' => rw [hp] at hp'; cases hp'
  | tickSend _ => simp [ServerRun.tickHead, hall]

theorem tickRecv_unnoticed {τ τ' : ServerRun} {m : Msg} (hi : ServerInv n τ) (hp : τ.pc = .tickRecv)
    (hm : Fits m) (hnew : CStr.str m ∉ τ.ids) (hs : τ.step (.recv m) = some τ') :
    τ' = { τ with pc := .tickSend, owes := true } ∧
      τ = { τ' with pc := .tickRecv, owes := false } := by
  rw [step_eq_some] at hs
  cases hs with
  | handshakeRecv _ hp' _ => rw [hp] at hp'; cases hp'
  | tickRecv _ _ ho =>
    obtain ⟨b, hb, e⟩ := tickReceived_fits τ hm
    have hsame : τ.server.handleAck b.bytes = τ.server :=
      Server.handleAck_of_notMem hi.registered (hi.full_length (by rw [hp]; trivial)) (hb ▸ hnew)
    rw [e, hsame]
    refine ⟨rfl, ?_⟩
    rw [← hp, ← ho]

theorem ClientEnd.deliver_zero (heard : Bool) (t : UInt64) :
    ClientEnd.zero.deliver heard t = .zero := by
  simp [ClientEnd.deliver, ClientEnd.zero]

theorem ClientEnd.leaves_of_ne {b : ClientAct} (hb : b ≠ .restart) (e : ClientEnd) :
    e.leaves b = [] := by
  cases b with
  | restart => exact absurd rfl hb
  | _ => rfl

theorem Kept.map {f g : ι → ClientEnd} (h : Kept M f g) (k : ι → ClientEnd → ClientEnd)
    (hk : ∀ c, k c .zero = .zero) : Kept M (fun c => k c (f c)) fun c => k c (g c) where
  member c hc := congrArg (k c) (h.member c hc)
  other c hc := (congrArg (k c) (h.other c hc)).trans (hk c)

section

variable [DecidableEq ι] {f g : ι → ClientEnd} {c : ι}

theorem Kept.update (h : Kept M f g) (hc : M c) (e : ClientEnd) :
    Kept M (Function.update f c e) (Function.update g c e) where
  member := (Function.forall_update_iff g fun c' e' => M c' → e' = Function.update f c e c').mpr
    ⟨fun _ => (Function.update_self c e f).symm, fun c' hne hc' => by
      rw [Function.update_of_ne hne]; exact h.member c' hc'⟩
  other := (Function.forall_update_iff g fun c' e' => ¬ M c' → e' = .zero).mpr
    ⟨fun hc' => absurd hc hc', fun c' _ => h.other c'⟩

theorem Kept.update_other (h : Kept M f g) (hc : ¬ M c) (e : ClientEnd) :
    Kept M (Function.update f c e) g where
  member c' hc' := by
    have hne : c' ≠ c := by rintro rfl; exact hc hc'
    rw [Function.update_of_ne hne]
    exact h.member c' hc'
  other := h.other

end

/-! ## One step -/

variable [DecidableEq ι]

theorem Without.client (h : Without M σ τ) {c : ι} {b : ClientAct} (hb : b ≠ .restart)
    (hs : σ.step args (.client c b) = some σ') :
    (¬ M c ∧ Without M σ' τ) ∨
      (M c ∧ ∃ τ', τ.step args (.client c b) = some τ' ∧ Without M σ' τ') := by
  obtain ⟨e, he, rfl⟩ := Option.map_eq_some_iff.mp hs
  have hheld : ∀ c', ((σ.setEnd c e).ends c').requester = .held → (σ.ends c').requester = .held :=
    Net.forall_setEnd (p := fun c' e' => e'.requester = .held → (σ.ends c').requester = .held)
      (ClientEnd.held_step (.of_step he)) fun _ _ hh => hh
  have hserver : τ.server = σ.server ∨
      (σ.server.pc = .tickSend ∧ τ.server = { σ.server with pc := .tickRecv, owes := false } ∧
        σ.server.server.allClientsResponded = false ∧
        ∀ c', M c' → ((σ.setEnd c e).ends c').requester ≠ .held) :=
    h.server.imp_right fun ⟨hp, hτ, hall, hno⟩ =>
      ⟨hp, hτ, hall, fun c' hc' hh => hno c' hc' (hheld c' hh)⟩
  by_cases hc : M c
  · right
    have he' : (τ.ends c).step (args c) b = some e := by rw [h.ends.member c hc, he]
    refine ⟨hc, _, congrArg (Option.map _) he', hserver, h.ends.update hc e, ?_, h.broadcasts⟩
    simp only [h.stale, ClientEnd.leaves_of_ne hb, List.append_nil]
  · exact .inl ⟨hc, hserver, h.ends.update_other hc e, h.stale, h.broadcasts⟩

theorem Unrefused.tickRecv_of_notMem (hr : Unrefused args n σ) (hu : Unambiguous args) {c : ι}
    {m : Msg} {υ : ServerRun} (hm : (σ.ends c).requester = .sent m)
    (hs : σ.server.step (.recv m) = some υ) (hc : (args c).id ∉ υ.ids) :
    σ.server.pc = .tickRecv := by
  cases hp : σ.server.pc with
  | tickRecv => rfl
  | handshakeRecv =>
    have hack := hr.ack_request hu.short hu.distinct hm hp hs
    have hg : Gathering args σ := hr.phase.resolve_right fun ht => by rw [hp] at ht; exact ht
    have hpc : (σ.ends c).run.pc = .await ∨ (σ.ends c).run.pc = .failed := by
      rcases (hr.steady.wired.ends c).sent hm with ⟨hpc, -⟩ | ⟨hpc, -⟩
      · exact hpc
      · exact absurd hpc (hg.silent c).pc.2
    have hreg := registered_id hr.steady.wired hr.steady.inv (.request c m υ hm hs) hpc hack
    exact absurd (hreg.2 ▸ List.mem_append_right _ (List.mem_singleton_self _)) hc
  | _ => simp [ServerRun.step, hp] at hs

theorem Without.request (h : Without M σ τ) (hu : Unambiguous args) (hr : Unrefused args n σ)
    (hphase : Gathering args σ ∨ Leading args σ)
    (hwait : σ.server.pc = .tickRecv → σ.server.server.allClientsResponded = false) {c : ι}
    (hM : ∀ c, (args c).id ∈ σ'.server.ids → M c) (hs : σ.step args (.request c) = some σ') :
    (¬ M c ∧ Without M σ' τ) ∨
      (M c ∧ ∃ τ', τ.step args (.request c) = some τ' ∧ Without M σ' τ') := by
  have hstep := NetStep.of_step hs
  have hw := hr.steady.wired
  have hsub := hstep.ids_subset hr.steady.inv
  cases hstep with
  | request _ m υ hm hυ =>
    have hserver := h.server_eq hυ (by simp)
    by_cases hc : M c
    · right
      refine ⟨hc, { τ.setEnd c { σ.ends c with requester := .held } with server := υ }, ?_,
        .inl rfl, h.ends.update hc _, h.stale, h.broadcasts⟩
      simp only [Net.step, h.ends.member c hc, hm, hserver, hυ, Option.map_some]
    · left
      have hp := hr.tickRecv_of_notMem hu hm hυ fun hx => hc (hM c hx)
      have howner : ∀ x ∈ σ.server.ids, ∃ c, (args c).id = x := by
        intro x hx
        rcases hphase with hg | hl
        · exact (hg.owner x hx).imp fun _ => And.left
        · exact hl.owner x hx
      have hnew : CStr.str m ∉ σ.server.ids := by
        intro hx
        obtain ⟨c', hc'⟩ := howner _ hx
        obtain ⟨rfl, -⟩ := (hu.id_eq_str_iff hw hm).mp hc'
        exact hc (hM c' (hsub (hc' ▸ hx)))
      obtain ⟨e, e'⟩ := tickRecv_unnoticed hr.steady.inv hp (hw.fits hu.short hm) hnew hυ
      refine ⟨hc, .inr ⟨by rw [e], hserver.trans e', by rw [e]; exact hwait hp, fun c' hc' => ?_⟩,
        h.ends.update_other hc _, h.stale, h.broadcasts⟩
      have hne : c' ≠ c := by rintro rfl; exact hc hc'
      simp only [Net.setEnd, Function.update_of_ne hne]
      exact hw.not_held hυ c'

theorem Without.answer (h : Without M σ τ) (hs : σ.step args .answer = some σ') :
    Without M σ' τ ∨ ∃ τ', τ.step args .answer = some τ' ∧ Without M σ' τ' := by
  cases NetStep.of_step hs with
  | answer m υ hm hυ =>
    rcases h.server with hserver | ⟨hp, hserver, hall, hno⟩
    · right
      refine ⟨{ τ with server := υ, ends := fun c => (τ.ends c).answer m }, ?_, .inl rfl,
        h.ends.map (fun _ => ClientEnd.answer m) fun _ => rfl, h.stale, h.broadcasts⟩
      simp only [Net.step, hserver, hm, hυ, Option.map_some]
    · left
      refine ⟨.inl (hserver.trans (tickSend_unnoticed hp hall hυ).symm), ?_, h.stale, h.broadcasts⟩
      refine ⟨fun c hc => (h.ends.member c hc).trans ?_, h.ends.other⟩
      exact (ClientEnd.answer_of_not_held (hno c hc) m).symm

theorem Without.broadcast (h : Without M σ τ) {heard : ι → Bool}
    (hs : σ.step args (.broadcast heard) = some σ') :
    ∃ τ', τ.step args (.broadcast heard) = some τ' ∧ Without M σ' τ' := by
  cases NetStep.of_step hs with
  | broadcast _ υ hυ =>
    have hserver := h.server_eq hυ (by simp)
    have hends := h.ends.map (fun c => ClientEnd.deliver (heard c) σ.server.server.currentTimeNs)
      fun _ => ClientEnd.deliver_zero _ _
    refine ⟨{ τ with
        server := υ
        ends := fun c => (τ.ends c).deliver (heard c) σ.server.server.currentTimeNs
        broadcasts := τ.broadcasts ++ [σ.server.server.currentTimeNs] }, ?_, .inl rfl, hends,
      h.stale, by rw [h.broadcasts]⟩
    simp only [Net.step, hserver, hυ, Option.map_some]

/-- A run in which nobody starts over, beside the same run without the others. -/
structure Shadowed (args : ι → ClientArgs) (n : Nat) (M : ι → Prop) (σ τ : Net ι) : Prop where
  unrefused : Unrefused args n σ
  phase : Gathering args σ ∨ Leading args σ
  waits : σ.server.pc = .tickRecv → σ.server.server.allClientsResponded = false
  without : Without M σ τ

omit [DecidableEq ι] in
theorem shadowed_init {N : Int} {iv : UInt64} {s : Server} (hs : ServerReady N iv s) :
    Shadowed args s.expectedClients M (Net.init ι s) (Net.init ι s) where
  unrefused := unrefused_init hs
  phase := .inl (gathering_init hs)
  waits hp := by
    rw [show (Net.init ι s).server = simulithServerRun s from rfl,
      simulithServerRun_eq hs.spec.1.1] at hp
    cases hp
  without := without_init s

/-- **One step**: the others make none that the members or the server notice. -/
theorem Shadowed.step [DecidablePred M] (h : Shadowed args n M σ τ) (hu : Unambiguous args)
    (ha : a.Once) (hM : ∀ c, (args c).id ∈ σ'.server.ids → M c) (hs : σ.step args a = some σ') :
    (a.concerns M = false ∧ Shadowed args n M σ' τ) ∨
      ((a.concerns M = true ∨ a = .answer) ∧
        ∃ τ', τ.step args a = some τ' ∧ Shadowed args n M σ' τ') := by
  have hstep := NetStep.of_step hs
  have hwaits : σ'.server.pc = .tickRecv → σ'.server.server.allClientsResponded = false := by
    rcases hstep.server with e | ⟨c, hc⟩
    · rw [e]; exact h.waits
    · exact waits_step h.waits hc
  have hnext : ∀ τ', Without M σ' τ' → Shadowed args n M σ' τ' := fun τ' hw =>
    ⟨h.unrefused.step hu.short hu.distinct ha hstep,
      gathering_or_leading_step hu h.unrefused.steady h.phase ha hstep, hwaits, hw⟩
  have hone : (a.concerns M = false ∧ Without M σ' τ) ∨ ((a.concerns M = true ∨ a = .answer) ∧
      ∃ τ', τ.step args a = some τ' ∧ Without M σ' τ') := by
    cases a with
    | client c b =>
      exact (h.without.client (by rintro rfl; exact ha) hs).imp
        (And.imp_left (decide_eq_false ·)) (And.imp_left fun hc => .inl (decide_eq_true hc))
    | request c =>
      exact (h.without.request hu h.unrefused h.phase h.waits hM hs).imp
        (And.imp_left (decide_eq_false ·)) (And.imp_left fun hc => .inl (decide_eq_true hc))
    | requestStale k =>
      cases hstep with
      | requestStale _ m _ hm _ =>
        rw [h.unrefused.steady.stale] at hm
        cases hm
    | answer => exact (h.without.answer hs).imp (fun hw => ⟨rfl, hw⟩) fun hw => ⟨.inr rfl, hw⟩
    | broadcast heard => exact .inr ⟨.inl rfl, h.without.broadcast hs⟩
  exact hone.imp (And.imp_right (hnext τ))
    (And.imp_right fun ⟨τ', hτ', hw⟩ => ⟨τ', hτ', hnext τ' hw⟩)

/-! ## Runs -/

theorem ids_subset_exec {acts : List (Act ι)} (hi : ServerInv n σ.server)
    (he : Lts.exec (Net.step args) σ acts = some σ') : σ.server.ids ⊆ σ'.server.ids :=
  (Lts.exec_preserves (I := fun τ => ServerInv n τ.server ∧ σ.server.ids ⊆ τ.server.ids)
    (fun _ _ _ h hs => ⟨(NetStep.of_step hs).serverInv h.1,
      List.Subset.trans h.2 ((NetStep.of_step hs).ids_subset h.1)⟩) ⟨hi, List.Subset.refl _⟩ he).2

/-- **The others go unnoticed.** Any number of clients, whatever the server
expects, none of which starts over, whatever is dropped or times out. Leave out
of a run what the clients do that are not registered at its end, and what the
server does for them: the rest is a run, in which these clients have not even
begun, and it ends with every registered client, the server's data and the times
broadcast as they are. -/
theorem others_unnoticed (hu : Unambiguous args) {N : Int} {iv : UInt64} {s : Server}
    (hs : ServerReady N iv s) {acts : List (Act ι)} (honce : ∀ a ∈ acts, a.Once)
    (he : Lts.exec (Net.step args) (Net.init ι s) acts = some σ) :
    ∃ acts' τ, List.Sublist acts' acts ∧
      acts'.filter (Act.concerns fun c => (args c).id ∈ σ.server.ids) =
        acts.filter (Act.concerns fun c => (args c).id ∈ σ.server.ids) ∧
      (∀ a ∈ acts', a.concerns (fun c => (args c).id ∈ σ.server.ids) ∨ a = .answer) ∧
      Lts.exec (Net.step args) (Net.init ι s) acts' = some τ ∧
      (∀ c, (args c).id ∈ σ.server.ids → τ.ends c = σ.ends c) ∧
      (∀ c, (args c).id ∉ σ.server.ids → τ.ends c = .zero) ∧
      τ.server.server = σ.server.server ∧ τ.broadcasts = σ.broadcasts := by
  have hP : Lts.Along (Net.step args) (fun υ a => a.Once ∧ ∀ υ', υ.step args a = some υ' →
      υ'.server.ids ⊆ σ.server.ids) (Net.init ι s) acts := by
    refine Lts.along_iff.mpr fun pre a post υ e hυ => ⟨honce a (by simp [e]), fun υ' hυ' => ?_⟩
    have hpost : Lts.exec (Net.step args) υ' post = some σ := by
      rw [e, Lts.exec_append, hυ, Option.bind_some, Lts.exec, hυ', Option.bind_some] at he
      exact he
    have hinv : ServerInv s.expectedClients υ.server :=
      Lts.exec_preserves (I := fun τ => ServerInv s.expectedClients τ.server)
        (fun _ _ _ h hs => (NetStep.of_step hs).serverInv h) (serverInv_init hs) hυ
    exact ids_subset_exec ((NetStep.of_step hυ').serverInv hinv) hpost
  obtain ⟨acts', τ, hsub, hfilter, hkept, hτ, h⟩ := Lts.exec_sublist
    (R := Shadowed args s.expectedClients fun c => (args c).id ∈ σ.server.ids)
    (fun υ τ a υ' h ha hstep => h.step hu ha.1 (fun c hc => ha.2 υ' hstep hc) hstep)
    (shadowed_init hs) hP he
  have hw := h.without
  refine ⟨acts', τ, hsub, hfilter, hkept, hτ, hw.ends.member, hw.ends.other, ?_, hw.broadcasts⟩
  rcases hw.server with e | ⟨-, e, -⟩ <;> rw [e]

theorem others_unnoticed_two_clients :
    let args := ![ClientArgs.named [97] (by decide) (by decide),
      ClientArgs.named [98] (by decide) (by decide)]
    let acts := join 0 ++ [.client 0 .subscribe, .client 1 (.init .ok), .client 1 .subscribe,
      .client 1 .send, .broadcast fun _ => true, .request 1, .answer, .client 1 .reply,
      .client 1 .tick, .client 1 .send, .request 1, .client 0 .tick, .client 0 .send]
    ∃ σ, Lts.exec (Net.step args) (Net.init (Fin 2) (.fresh 1 10)) acts = some σ ∧
      ∃ acts' τ, List.Sublist acts' acts ∧
        Lts.exec (Net.step args) (Net.init (Fin 2) (.fresh 1 10)) acts' = some τ ∧
        τ.ends 0 = σ.ends 0 ∧ τ.ends 1 = .zero ∧ τ.broadcasts = σ.broadcasts := by
  intro args acts
  obtain ⟨σ, h, hin, hout⟩ : ∃ σ, Lts.exec (Net.step args) (Net.init (Fin 2) (.fresh 1 10)) acts =
      some σ ∧ (args 0).id ∈ σ.server.ids ∧ (args 1).id ∉ σ.server.ids :=
    Lts.exists_exec_of_any (by decide)
  obtain ⟨acts', τ, hsub, -, -, hτ, hmem, hother, -, hb⟩ :=
    others_unnoticed ⟨by decide, by decide, by decide⟩
      (serverReady_fresh (by decide) (by decide) (by decide)) (by decide) h
  exact ⟨σ, h, acts', τ, hsub, hτ, hmem 0 hin, hother 1 hout, hb⟩

end Simulith
