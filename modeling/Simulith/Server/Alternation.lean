import Simulith.Server.Invariant

/-!
# Requests and replies

`repStep` is the discipline of a reply socket as its user should see it: a
request is followed by one reply before the next `zmq_recv`. A server run
keeps to it, and never runs past its receive buffer, as long as every request
has 1 to 63 bytes (`well_exec`): then `owes` tells whether a request is
unanswered, and if one is, the server's next call is the reply
(`Well.next_send`).
-/

namespace Simulith

open CStr

/-- The alternation on the responder: `true` while a request is unanswered. -/
def repStep : Bool → ServerCall → Option Bool
  | false, .recv _ => some true
  | false, .recvFail => some false
  | true, .send _ => some false
  | b, .publish _ => some b
  | _, _ => none

/-- A request of 1 to 63 bytes. -/
def Fits (m : Msg) : Prop := 1 ≤ m.length ∧ m.length ≤ 63

instance (m : Msg) : Decidable (Fits m) := inferInstanceAs (Decidable (_ ∧ _))

/-- The server is about to reply. -/
def ServerPc.Sending : ServerPc → Prop
  | .handshakeSend _ => True
  | .tickSend => True
  | _ => False

/-- No store has left its buffer, and the socket owes a reply when the server is about to send. -/
structure Well (σ : ServerRun) : Prop where
  defined : σ.pc ≠ .undefined
  owes : σ.owes = true ↔ σ.pc.Sending

theorem Well.not_owes {σ : ServerRun} (h : Well σ)
    (hp : σ.pc = .handshakeRecv ∨ σ.pc = .tickRecv ∨ σ.pc = .broadcast) : σ.owes = false := by
  rw [← Bool.not_eq_true, h.owes]
  rcases hp with hp | hp | hp <;> rw [hp] <;> exact id

theorem handshakeHead_pc (σ : ServerRun) :
    σ.handshakeHead.pc = .handshakeRecv ∨ σ.handshakeHead.pc = .broadcast := by
  unfold ServerRun.handshakeHead; split
  · exact .inl rfl
  · exact .inr rfl

theorem tickHead_pc (σ : ServerRun) :
    σ.tickHead.pc = .tickRecv ∨ σ.tickHead.pc = .broadcast := by
  unfold ServerRun.tickHead; split
  · exact .inr rfl
  · exact .inl rfl

@[simp] theorem handshakeHead_owes (σ : ServerRun) : σ.handshakeHead.owes = σ.owes := by
  unfold ServerRun.handshakeHead; split <;> rfl

@[simp] theorem tickHead_owes (σ : ServerRun) : σ.tickHead.owes = σ.owes := by
  unfold ServerRun.tickHead; split <;> rfl

theorem handshakeReceived_sending (σ : ServerRun) {m : Msg} (h : Fits m) :
    ∃ r, (σ.handshakeReceived m).pc = .handshakeSend r ∧ (σ.handshakeReceived m).owes = true := by
  obtain ⟨b, hb, -⟩ := recvTerminated_isSome (n := 64) (m := m) (by have := h.2; omega)
  have h0 : m.length ≠ 0 := by have := h.1; omega
  simp only [ServerRun.handshakeReceived, if_neg h0, hb]
  split
  · exact ⟨_, rfl, rfl⟩
  · exact ⟨_, rfl, rfl⟩

theorem tickReceived_fits (σ : ServerRun) {m : Msg} (h : Fits m) :
    ∃ b : CharBuf 64, str b.bytes = str m ∧ σ.tickReceived m =
      { σ with server := σ.server.handleAck b.bytes, pc := .tickSend, owes := true } := by
  obtain ⟨b, hb, hs⟩ := recvTerminated_isSome (n := 64) (m := m) (by have := h.2; omega)
  have h0 : m.length ≠ 0 := by have := h.1; omega
  exact ⟨b, hs, by simp only [ServerRun.tickReceived, if_neg h0, hb]⟩

theorem well_idle {σ : ServerRun}
    (hp : σ.pc = .handshakeRecv ∨ σ.pc = .tickRecv ∨ σ.pc = .broadcast) (ho : σ.owes = false) :
    Well σ := by
  rcases hp with hp | hp | hp <;>
    exact ⟨by rw [hp]; exact nofun, by rw [hp, ho]; exact iff_of_false nofun fun h => h⟩

theorem well_handshakeHead {σ : ServerRun} (ho : σ.owes = false) : Well σ.handshakeHead :=
  well_idle ((handshakeHead_pc σ).imp_right .inr) ((handshakeHead_owes σ).trans ho)

theorem well_tickHead {σ : ServerRun} (ho : σ.owes = false) : Well σ.tickHead :=
  well_idle (.inr (tickHead_pc σ)) ((tickHead_owes σ).trans ho)

theorem well_init (s : Server) : Well (simulithServerRun s) := well_handshakeHead rfl

theorem well_step {σ σ' : ServerRun} {c : ServerCall} (h : Well σ)
    (hc : ∀ m, c = .recv m → Fits m) (hs : σ.step c = some σ') :
    Well σ' ∧ repStep σ.owes c = some σ'.owes := by
  rw [step_eq_some] at hs
  cases hs with
  | handshakeRecv m hpc ho =>
    obtain ⟨r, hp, ho'⟩ := handshakeReceived_sending σ (hc m rfl)
    refine ⟨⟨by rw [hp]; exact nofun, ?_⟩, by rw [ho, ho']; rfl⟩
    rw [hp, ho']; exact iff_of_true rfl trivial
  | tickRecv m hpc ho =>
    obtain ⟨b, -, e⟩ := tickReceived_fits σ (hc m rfl)
    rw [e, ho]
    exact ⟨⟨nofun, iff_of_true rfl trivial⟩, rfl⟩
  | fail hpc =>
    have ho : σ.owes = false := h.not_owes (hpc.imp_right .inl)
    exact ⟨h, by rw [ho]; rfl⟩
  | handshakeSend r hpc =>
    have ho : σ.owes = true := h.owes.mpr (by rw [hpc]; trivial)
    rw [handshakeHead_owes, ho]
    exact ⟨well_handshakeHead rfl, rfl⟩
  | tickSend hpc =>
    have ho : σ.owes = true := h.owes.mpr (by rw [hpc]; trivial)
    rw [tickHead_owes, ho]
    exact ⟨well_tickHead rfl, rfl⟩
  | publish hpc =>
    have ho : σ.owes = false := h.not_owes (.inr (.inr hpc))
    rw [tickHead_owes]
    exact ⟨well_tickHead ho, by rw [ho]; rfl⟩

theorem defined_step {σ σ' : ServerRun} {c : ServerCall} (hd : σ.pc ≠ .undefined)
    (hc : ∀ m, c = .recv m → m.length ≤ 63) (hs : σ.step c = some σ') : σ'.pc ≠ .undefined := by
  rw [step_eq_some] at hs
  cases hs with
  | handshakeRecv m hpc _ =>
    by_cases hf : Fits m
    · obtain ⟨r, hr, -⟩ := handshakeReceived_sending σ hf
      simp [hr]
    · have h0 : m.length = 0 := by have := hc m rfl; unfold Fits at hf; omega
      rw [ServerRun.handshakeReceived, if_pos h0]
      exact hd
  | tickRecv m hpc _ =>
    by_cases hf : Fits m
    · obtain ⟨b, -, e⟩ := tickReceived_fits σ hf
      simp [e]
    · have h0 : m.length = 0 := by have := hc m rfl; unfold Fits at hf; omega
      rw [ServerRun.tickReceived, if_pos h0]
      exact hd
  | fail _ => exact hd
  | handshakeSend _ _ =>
    rcases handshakeHead_pc { σ with owes := false } with hp | hp <;> simp [hp]
  | tickSend _ =>
    rcases tickHead_pc { σ with owes := false } with hp | hp <;> simp [hp]
  | publish _ =>
    rcases tickHead_pc { σ with server := σ.server.resetResponses } with hp | hp <;> simp [hp]

/-- A run that receives only requests of 1 to 63 bytes alternates. -/
theorem well_exec {σ σ' : ServerRun} {cs : List ServerCall} (h : Well σ)
    (hm : ∀ m ∈ requests cs, Fits m) (he : Lts.exec ServerRun.step σ cs = some σ') :
    Well σ' ∧ Lts.exec repStep σ.owes cs = some σ'.owes := by
  induction cs generalizing σ with
  | nil => cases he; exact ⟨h, rfl⟩
  | cons c cs ih =>
    obtain ⟨τ, hτ, he⟩ := Lts.exec_cons_eq_some.mp he
    have hc : ∀ m, c = .recv m → Fits m := fun m e =>
      hm m (mem_requests.mpr (e ▸ List.mem_cons_self))
    obtain ⟨hw, hr⟩ := well_step h hc hτ
    obtain ⟨hw', hr'⟩ := ih hw (fun m hmem => hm m (mem_requests.mpr
      (List.mem_cons_of_mem _ (mem_requests.mp hmem)))) he
    exact ⟨hw', Lts.exec_cons_eq_some.mpr ⟨_, hr, hr'⟩⟩

theorem Well.next_send {σ : ServerRun} (h : Well σ) (ho : σ.owes = true) :
    ∃ m, ∀ c, (σ.step c).isSome ↔ c = .send m := by
  have hs := h.owes.mp ho
  cases hpc : σ.pc with
  | handshakeSend r =>
    refine ⟨r.bytes, fun c => ?_⟩
    cases c <;> simp [ServerRun.step, hpc, ho]
  | tickSend =>
    refine ⟨Reply.ack.bytes, fun c => ?_⟩
    cases c <;> simp [ServerRun.step, hpc, ho]
  | _ => rw [hpc] at hs; exact hs.elim

/-- From a socket that owes a reply or not, each request of the run is answered
once before the next `zmq_recv`; one not answered yet is answered by the next call. -/
def AnsweredFrom (owes : Bool) (cs : List ServerCall) (σ : ServerRun) : Prop :=
  ∃ b, Lts.exec repStep owes cs = some b ∧
    (b = true → ∃ m, ∀ c, (σ.step c).isSome ↔ c = .send m)

/-- What becomes of a request that does not fit: the socket is stuck with an
empty one, and a long one ends the run. -/
theorem misfit_step {σ σ' : ServerRun} {m : Msg} (hs : σ.step (.recv m) = some σ')
    (hm : ¬ Fits m) :
    (m.length = 0 ∧ σ'.owes = true ∧ (σ'.pc = .handshakeRecv ∨ σ'.pc = .tickRecv)) ∨
    (64 ≤ m.length ∧ σ'.pc = .undefined) := by
  by_cases h0 : m.length = 0
  · left
    rw [step_eq_some] at hs
    cases hs with
    | handshakeRecv _ hpc _ =>
      rw [ServerRun.handshakeReceived, if_pos h0]
      exact ⟨h0, rfl, .inl hpc⟩
    | tickRecv _ hpc _ =>
      rw [ServerRun.tickReceived, if_pos h0]
      exact ⟨h0, rfl, .inr hpc⟩
  · right
    have h64 : 64 ≤ m.length := by unfold Fits at hm; omega
    have hnone : recvTerminated 64 m = none := recvTerminated_eq_none.mpr h64
    rw [step_eq_some] at hs
    cases hs with
    | handshakeRecv _ _ _ =>
      simp only [ServerRun.handshakeReceived, if_neg h0, hnone]
      exact ⟨h64, trivial⟩
    | tickRecv _ _ _ =>
      simp only [ServerRun.tickReceived, if_neg h0, hnone]
      exact ⟨h64, trivial⟩

theorem step_undefined {σ : ServerRun} (h : σ.pc = .undefined) (c : ServerCall) :
    σ.step c = none := by
  cases c <;> simp [ServerRun.step, h]

theorem step_wedged {σ σ' : ServerRun} {c : ServerCall} (ho : σ.owes = true)
    (hp : σ.pc = .handshakeRecv ∨ σ.pc = .tickRecv) (hs : σ.step c = some σ') :
    c = .recvFail ∧ σ' = σ := by
  rcases hp with hp | hp <;> cases c <;> simp [ServerRun.step, hp, ho] at hs <;> exact ⟨rfl, hs.symm⟩

/-- A request that does not fit is the last thing the server receives. -/
theorem exec_after_misfit {σ τ τ' : ServerRun} {m : Msg} {post : List ServerCall}
    (hs : τ.step (.recv m) = some τ') (hm : ¬ Fits m)
    (hpost : Lts.exec ServerRun.step τ' post = some σ) : σ = τ' := by
  have hstuck : ∀ c υ, τ'.step c = some υ → υ = τ' := by
    intro c υ hc
    rcases misfit_step hs hm with ⟨-, ho, hp⟩ | ⟨-, hp⟩
    · exact (step_wedged ho hp hc).2
    · rw [step_undefined hp] at hc
      cases hc
  exact Lts.exec_preserves (I := fun υ => υ = τ') (fun υ c υ' hυ hc => hstuck c υ' (hυ ▸ hc)) rfl
    hpost

theorem fits_of_broadcast {σ₀ σ : ServerRun} {cs : List ServerCall}
    (he : Lts.exec ServerRun.step σ₀ cs = some σ) (hpc : σ.pc = .broadcast) :
    ∀ m ∈ requests cs, Fits m := by
  intro m hm
  by_contra hf
  obtain ⟨pre, post, τ, τ', -, -, hs, hpost⟩ := Lts.exec_mem he (mem_requests.mp hm)
  rw [exec_after_misfit hs hf hpost] at hpc
  rcases misfit_step hs hf with ⟨-, -, hp | hp⟩ | ⟨-, hp⟩ <;> rw [hpc] at hp <;> cases hp

theorem misfit_not_answered {σ τ τ' : ServerRun} {m : Msg} {post : List ServerCall}
    (hs : τ.step (.recv m) = some τ') (hm : ¬ Fits m)
    (hpost : Lts.exec ServerRun.step τ' post = some σ) :
    ¬ AnsweredFrom true post σ := by
  rintro ⟨b, hb, hn⟩
  rcases misfit_step hs hm with ⟨-, ho, hp⟩ | ⟨-, hp⟩
  · cases post with
    | nil =>
      cases hpost
      cases hb
      obtain ⟨m, hm⟩ := hn rfl
      have : (σ.step .recvFail).isSome = true := by rcases hp with hp | hp <;> simp [ServerRun.step, hp]
      cases (hm .recvFail).mp this
    | cons c post =>
      obtain ⟨υ, hυ, -⟩ := Lts.exec_cons_eq_some.mp hpost
      obtain ⟨rfl, -⟩ := step_wedged ho hp hυ
      cases hb
  · cases post with
    | nil =>
      cases hpost
      cases hb
      obtain ⟨m, hm⟩ := hn rfl
      have := (hm (.send m)).mpr rfl
      rw [step_undefined hp] at this
      cases this
    | cons c post =>
      obtain ⟨υ, hυ, -⟩ := Lts.exec_cons_eq_some.mp hpost
      rw [step_undefined hp] at hυ
      cases hυ

theorem answeredFrom_iff {σ₀ σ : ServerRun} {cs : List ServerCall} (hw : Well σ₀)
    (he : Lts.exec ServerRun.step σ₀ cs = some σ) :
    AnsweredFrom σ₀.owes cs σ ↔ ∀ m ∈ requests cs, Fits m := by
  induction cs generalizing σ₀ with
  | nil =>
    cases he
    exact iff_of_true ⟨_, rfl, hw.next_send⟩ fun m hm => by cases hm
  | cons c cs ih =>
    obtain ⟨τ, hτ, he'⟩ := Lts.exec_cons_eq_some.mp he
    have hcons : (∀ m ∈ requests (c :: cs), Fits m) ↔
        (∀ m, c = .recv m → Fits m) ∧ ∀ m ∈ requests cs, Fits m := by
      simp only [mem_requests, List.mem_cons]
      exact ⟨fun h => ⟨fun m e => h m (.inl e.symm), fun m hm => h m (.inr hm)⟩,
        fun h m hm => hm.elim (fun e => h.1 m e.symm) (h.2 m)⟩
    rw [hcons]
    by_cases hc : ∀ m, c = .recv m → Fits m
    · obtain ⟨hw', hr⟩ := well_step hw hc hτ
      rw [and_iff_right hc, ← ih hw' he']
      simp only [AnsweredFrom, Lts.exec, hr, Option.bind_some]
    · refine iff_of_false ?_ fun h => hc h.1
      push Not at hc
      obtain ⟨m, rfl, hm⟩ := hc
      have ho : σ₀.owes = false := by
        cases h : σ₀.owes with
        | false => rfl
        | true => simp [ServerRun.step, h] at hτ
      rw [ho]
      show ¬ AnsweredFrom true cs σ
      exact misfit_not_answered hτ hm he'

/-- **Every request is answered once, in its turn, exactly when every request
has 1 to 63 bytes.** -/
theorem answered_iff {s : Server} {cs : List ServerCall} {σ : ServerRun}
    (he : Lts.exec ServerRun.step (simulithServerRun s) cs = some σ) :
    AnsweredFrom false cs σ ↔ ∀ m ∈ requests cs, Fits m := by
  rw [← answeredFrom_iff (well_init s) he, simulithServerRun, handshakeHead_owes]

theorem answered_iff_one_client :
    let cs : List ServerCall := [.recv (readyWord ++ [space, 97]), .send Reply.ack.bytes,
      .publish 0, .recv [97], .send Reply.ack.bytes]
    ∃ σ, Lts.exec ServerRun.step (simulithServerRun (.fresh 1 10)) cs = some σ ∧
      AnsweredFrom false cs σ :=
  have ⟨σ, h⟩ := Option.isSome_iff_exists.mp (by decide)
  ⟨σ, h, (answered_iff h).mpr (by decide)⟩

/-- An empty request is received and then `zmq_recv` is called again, the
request unanswered. -/
theorem empty_request_unanswered :
    ∃ σ, Lts.exec ServerRun.step (simulithServerRun (.fresh 1 10)) [.recv [], .recvFail] = some σ ∧
      ¬ AnsweredFrom false [.recv [], .recvFail] σ :=
  ⟨_, rfl, by rintro ⟨b, hb, -⟩; cases hb⟩

end Simulith
