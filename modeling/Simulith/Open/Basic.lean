import Simulith.Lts.Refine
import Simulith.Net.Requests
import Simulith.Server.Ignored

/-!
# The net among strangers

The server's reply socket is bound to an address that anyone can connect to.
In the open net it also receives requests of others, of any bytes and at any
time; the reply to one goes to nobody of the net. What such requests cannot do
is what the closed net's invariants say of any request (`open_invariant`); what
they do if the server ignores them is nothing: then the run without them is one
of the closed net (`strangers_unnoticed`).
-/

namespace Simulith

open Lts CStr

inductive OpenAct (ι : Type*) where
  | own (a : Act ι)
  /-- the server receives somebody else's request -/
  | foreign (m : Msg)

/-- What an act is in the closed net. -/
def OpenAct.act {ι : Type*} : OpenAct ι → Option (Act ι)
  | .own a => some a
  | .foreign _ => none

variable {ι : Type*} [DecidableEq ι]

def Net.openStep (args : ι → ClientArgs) (σ : Net ι) : OpenAct ι → Option (Net ι)
  | .own a => σ.step args a
  | .foreign m => (σ.server.step (.recv m)).map fun τ => { σ with server := τ }

variable {args : ι → ClientArgs} {σ σ' τ : Net ι} {a : OpenAct ι} {n : Nat}

/-- The steps of `Net.openStep`, one constructor for each. -/
inductive OpenStep (args : ι → ClientArgs) (σ : Net ι) : OpenAct ι → Net ι → Prop where
  | own (a : Act ι) (σ' : Net ι) : NetStep args σ a σ' → OpenStep args σ (.own a) σ'
  | foreign (m : Msg) (τ : ServerRun) : σ.server.step (.recv m) = some τ →
      OpenStep args σ (.foreign m) { σ with server := τ }

theorem OpenStep.of_step (h : σ.openStep args a = some σ') : OpenStep args σ a σ' := by
  cases a with
  | own a => exact .own a σ' (.of_step h)
  | foreign m =>
    obtain ⟨τ, hτ, rfl⟩ := Option.map_eq_some_iff.mp h
    exact .foreign m τ hτ

theorem OpenStep.server (h : OpenStep args σ a σ') :
    σ'.server = σ.server ∨ ∃ c, σ.server.step c = some σ'.server := by
  cases h with
  | own a _ hs => exact hs.server
  | foreign m τ hτ => exact .inr ⟨_, hτ⟩

theorem open_server {I : ServerRun → Prop} (hstep : ∀ τ c τ', I τ → τ.step c = some τ' → I τ')
    {s : Server} (h0 : I (simulithServerRun s)) {acts : List (OpenAct ι)}
    (he : exec (Net.openStep args) (Net.init ι s) acts = some σ) : I σ.server := by
  refine exec_preserves (I := fun σ : Net ι => I σ.server) (fun σ a σ' h hs => ?_) h0 he
  rcases (OpenStep.of_step hs).server with e | ⟨c, hc⟩
  · rw [e]
    exact h
  · exact hstep _ c _ h hc

/-- A request in one piece that the server ignores. -/
def OpenAct.Ignored (σ : Net ι) : OpenAct ι → Prop
  | .own _ => True
  | .foreign m => Fits m ∧ σ.server.Ignores m

instance (σ : Net ι) (a : OpenAct ι) : Decidable (a.Ignored σ) :=
  match a with
  | .own _ => isTrue trivial
  | .foreign m => inferInstanceAs (Decidable (Fits m ∧ σ.server.Ignores m))

/-- The closed net in state `τ` beside the open one in state `σ`, whose server may have a stranger
to answer. -/
structure Beside (args : ι → ClientArgs) (n : Nat) (σ τ : Net ι) : Prop where
  wired : Wired args τ
  inv : ServerInv n τ.server
  waits : τ.server.pc = .tickRecv → τ.server.server.allClientsResponded = false
  here : σ = τ ∨ ∃ υ, σ = { τ with server := υ } ∧ τ.server.Owing υ ∧
    ∀ c, (τ.ends c).requester ≠ .held

omit [DecidableEq ι] in
theorem beside_init {N : Int} {iv : UInt64} {s : Server} (hs : ServerReady N iv s) :
    Beside args s.expectedClients (Net.init ι s) (Net.init ι s) where
  wired := wired_init s
  inv := serverInv_init hs
  waits hp := by
    rw [show (Net.init ι s).server = simulithServerRun s from rfl,
      simulithServerRun_eq hs.spec.1.1] at hp
    cases hp
  here := .inl rfl

theorem Beside.step_closed {b : Act ι} (h : Beside args n σ τ) {τ' : Net ι}
    (hs : NetStep args τ b τ') (hhere : σ' = τ' ∨ ∃ υ, σ' = { τ' with server := υ } ∧
      τ'.server.Owing υ ∧ ∀ c, (τ'.ends c).requester ≠ .held) : Beside args n σ' τ' where
  wired := h.wired.step hs
  inv := hs.serverInv h.inv
  waits := by
    rcases hs.server with e | ⟨c, hc⟩
    · rw [e]
      exact h.waits
    · exact waits_step h.waits hc
  here := hhere

/-- The answer to a stranger leads back to the closed net. -/
theorem answer_stranger (args : ι → ClientArgs) {υ : ServerRun} (hi : ServerInv n τ.server)
    (hwait : τ.server.pc = .tickRecv → τ.server.server.allClientsResponded = false)
    (how : τ.server.Owing υ) (hfree : ∀ c, (τ.ends c).requester ≠ .held) :
    ({ τ with server := υ } : Net ι).step args .answer = some τ := by
  obtain ⟨r, hpc, hsend⟩ := how.reply hi hwait
  have htoSend : υ.toSend = some r.bytes := by
    unfold ServerRun.toSend
    rcases hpc with hpc | ⟨hpc, rfl⟩ <;> rw [hpc]
  have hends : (fun c => (τ.ends c).answer r.bytes) = τ.ends :=
    funext fun c => ClientEnd.answer_of_not_held (hfree c) _
  simp only [Net.step, htoSend, hsend, hends, Option.map_some]

theorem Beside.client (h : Beside args n σ τ) {c : ι} {b : ClientAct}
    (hs : σ.step args (.client c b) = some σ') :
    ∃ τ', τ.step args (.client c b) = some τ' ∧ Beside args n σ' τ' := by
  obtain ⟨e, he, rfl⟩ := Option.map_eq_some_iff.mp hs
  have hends : σ.ends = τ.ends ∧ σ.stale = τ.stale ∧ σ.broadcasts = τ.broadcasts := by
    rcases h.here with rfl | ⟨υ, rfl, -⟩ <;> exact ⟨rfl, rfl, rfl⟩
  rw [hends.1] at he
  have hτ : τ.step args (.client c b) =
      some { τ.setEnd c e with stale := τ.stale ++ (τ.ends c).leaves b } := congrArg (Option.map _) he
  refine ⟨_, hτ, h.step_closed (.of_step hτ) ?_⟩
  rcases h.here with rfl | ⟨υ, rfl, how, hfree⟩
  · exact .inl rfl
  · refine .inr ⟨υ, rfl, how, ?_⟩
    exact Net.forall_setEnd (p := fun _ e' => e'.requester ≠ .held)
      (fun hh => hfree c (ClientEnd.held_step (.of_step he) hh)) fun c' _ => hfree c'

/-- A step of the server other than a client's own act is made when no stranger waits, or it
answers one. -/
theorem Beside.server_act (h : Beside args n σ τ) {b : Act ι} (hb : ∀ c d, b ≠ .client c d)
    (hs : σ.step args b = some σ') :
    (b = .answer ∧ σ' = τ) ∨ ∃ τ', τ.step args b = some τ' ∧ Beside args n σ' τ' := by
  rcases h.here with rfl | ⟨υ, rfl, how, hfree⟩
  · exact .inr ⟨σ', hs, h.step_closed (.of_step hs) (.inl rfl)⟩
  · left
    have hanswer := answer_stranger args h.inv h.waits how hfree
    cases NetStep.of_step hs with
    | client c d => exact absurd rfl (hb c d)
    | answer m υ' hm hυ' =>
      rw [hs] at hanswer
      exact ⟨rfl, Option.some.inj hanswer⟩
    | request c m υ' _ hυ' =>
      obtain ⟨m', hm'⟩ := how.send_of_step hυ'
      cases hm'
    | requestStale k m υ' _ hυ' =>
      obtain ⟨m', hm'⟩ := how.send_of_step hυ'
      cases hm'
    | broadcast heard υ' hυ' =>
      obtain ⟨m', hm'⟩ := how.send_of_step hυ'
      cases hm'

theorem Beside.foreign (h : Beside args n σ τ) {m : Msg} (hm : (OpenAct.foreign m).Ignored σ)
    (hs : σ.openStep args (.foreign m) = some σ') : Beside args n σ' τ := by
  obtain ⟨υ, hυ, rfl⟩ := Option.map_eq_some_iff.mp hs
  rcases h.here with rfl | ⟨υ', rfl, how, -⟩
  · exact ⟨h.wired, h.inv, h.waits,
      .inr ⟨υ, rfl, (ignores_iff h.inv hm.1 hυ).2 hm.2, h.wired.not_held hυ⟩⟩
  · obtain ⟨m', hm'⟩ := how.send_of_step hυ
    cases hm'

theorem Beside.step (h : Beside args n σ τ) (ha : a.Ignored σ)
    (hs : σ.openStep args a = some σ') :
    ((∀ b, a.act = some b → (!b.isAnswer) = false) ∧ Beside args n σ' τ) ∨
      ∃ b, a.act = some b ∧ ∃ τ', τ.step args b = some τ' ∧ Beside args n σ' τ' := by
  cases a with
  | foreign m => exact .inl ⟨fun _ => nofun, h.foreign ha hs⟩
  | own b =>
    by_cases hb : ∃ c d, b = .client c d
    · obtain ⟨c, d, rfl⟩ := hb
      exact .inr ⟨_, rfl, h.client hs⟩
    · rcases h.server_act (fun c d e => hb ⟨c, d, e⟩) hs with ⟨rfl, rfl⟩ | ⟨τ', hτ', hnext⟩
      · exact .inl ⟨fun b hb => by cases hb; rfl, h.wired, h.inv, h.waits, .inl rfl⟩
      · exact .inr ⟨b, rfl, τ', hτ', hnext⟩

/-- **Strangers go unnoticed.** Any clients, whatever is dropped, times out or starts over, and any
requests of strangers, each of 1 to 63 bytes and such that the server, when it receives it, ignores
it. Leave these requests out of a run, and the server's answers to them: the rest is a run of the
net without strangers, and ends in the same state, or in that which the answer to the last of them
leads to. -/
theorem strangers_unnoticed {N : Int} {iv : UInt64} {s : Server} (hs : ServerReady N iv s)
    {acts : List (OpenAct ι)}
    (hP : Along (Net.openStep args) (fun σ a => a.Ignored σ) (Net.init ι s) acts)
    (he : exec (Net.openStep args) (Net.init ι s) acts = some σ) :
    ∃ acts' τ, List.Sublist acts' (acts.filterMap OpenAct.act) ∧
      acts'.filter (fun b => !b.isAnswer) =
        (acts.filterMap OpenAct.act).filter (fun b => !b.isAnswer) ∧
      exec (Net.step args) (Net.init ι s) acts' = some τ ∧
      (σ = τ ∨ σ.step args .answer = some τ) := by
  obtain ⟨acts', τ, hsub, hfilter, -, hτ, h⟩ := exec_part (K := fun _ => True)
    (f := OpenAct.act) (q := fun b => !b.isAnswer) (R := Beside args s.expectedClients)
    (fun _ _ _ _ h ha hs => (h.step ha hs).imp_right
      fun ⟨b, hb, hnext⟩ => ⟨b, hb, trivial, hnext⟩) (beside_init hs) hP he
  refine ⟨acts', τ, hsub, hfilter, hτ, h.here.imp_right ?_⟩
  rintro ⟨υ, rfl, how, hfree⟩
  exact answer_stranger args h.inv h.waits how hfree

/-- A stranger interrupts the handshake and the first round, in which the server is about to answer
it for the second time. -/
theorem strangers_unnoticed_one_client :
    let args := ![ClientArgs.named [97] (by decide) (by decide)]
    let acts : List (OpenAct (Fin 1)) := [.foreign [98], .own .answer] ++ (join 0).map .own ++
      [.own (.client 0 .subscribe), .own (.broadcast fun _ => true), .foreign [98],
        .own .answer, .own (.client 0 .tick), .own (.client 0 .send), .foreign [98]]
    ∃ σ, exec (Net.openStep args) (Net.init (Fin 1) (.fresh 1 10)) acts = some σ ∧
      σ.server.pc = .tickSend ∧
      ∃ acts' τ, List.Sublist acts' (acts.filterMap OpenAct.act) ∧
        exec (Net.step args) (Net.init (Fin 1) (.fresh 1 10)) acts' = some τ ∧
        (σ = τ ∨ σ.step args .answer = some τ) := by
  intro args acts
  obtain ⟨σ, h, hpc⟩ : ∃ σ, exec (Net.openStep args) (Net.init (Fin 1) (.fresh 1 10)) acts =
      some σ ∧ σ.server.pc = .tickSend := exists_exec_of_any (by decide)
  obtain ⟨acts', τ, hsub, -, hτ, hend⟩ := strangers_unnoticed
    (serverReady_fresh (by decide) (by decide) (by decide)) (by decide) h
  exact ⟨σ, h, hpc, acts', τ, hsub, hτ, hend⟩

end Simulith
