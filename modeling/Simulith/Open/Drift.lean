import Mathlib.Data.Fin.VecNotation
import Simulith.Open.Basic

/-!
# How far the simulation runs ahead

An acknowledgement carries the client's id and nothing else, so anyone can send
it. `drift_le` says what that comes to: the server runs ahead of a registered
client by one broadcast, and one more for each request that carries its id and
is not its own, whatever else happens. It is a bound on strangers, on other
clients and on what a client leaves behind when it starts over.
-/

namespace Simulith

open Lts CStr

variable {ι : Type*} {args : ι → ClientArgs} {σ σ' : Net ι} {a : OpenAct ι} {n N : Nat}
  {x : List UInt8} {c : ι}

/-- The request the server receives, and the client that waits for the answer to it. -/
def Net.hears (σ : Net ι) : OpenAct ι → Option (Option ι × Msg)
  | .own (.request c) =>
    match (σ.ends c).requester with
    | .sent m => some (some c, m)
    | _ => none
  | .own (.requestStale k) => σ.stale[k]?.map fun m => (none, m)
  | .foreign m => some (none, m)
  | _ => none

/-- A request with the id `x`. -/
def carries (x : List UInt8) (u : Option ι × Msg) : Bool := str u.2 = x

variable [DecidableEq ι]

/-- The requests received in a run. -/
def heard (args : ι → ClientArgs) (σ : Net ι) (acts : List (OpenAct ι)) :
    List (Option ι × Msg) :=
  trace (Net.openStep args) Net.hears σ acts

/-! ## What the server counts -/

theorem recv_booked {τ τ' : ServerRun} {m : Msg} (hi : ServerInv n τ)
    (hs : τ.step (.recv m) = some τ') :
    (τ.pc = .handshakeRecv ∧ ¬ τ'.pc.InTick) ∨
      (τ.pc = .tickRecv ∧ ¬ τ'.pc.InHandshake ∧ τ'.pc ≠ .broadcast ∧ τ'.ids = τ.ids ∧
        ∀ x ∈ τ.ids, τ'.server.HasResponded x → τ.server.HasResponded x ∨ x = str m) := by
  rw [step_eq_some] at hs
  cases hs with
  | handshakeRecv _ hp ho =>
    refine .inl ⟨hp, ?_⟩
    unfold ServerRun.handshakeReceived
    split
    · show ¬ τ.pc.InTick
      rw [hp]
      exact id
    · split
      · exact id
      · split <;> exact id
  | tickRecv _ hp ho =>
    refine .inr ⟨hp, ?_⟩
    unfold ServerRun.tickReceived
    split
    · refine ⟨?_, ?_, rfl, fun x _ hx => .inl hx⟩
      · show ¬ τ.pc.InHandshake
        rw [hp]
        exact id
      · show τ.pc ≠ .broadcast
        rw [hp]
        exact nofun
    · split
      · exact ⟨id, nofun, rfl, fun x _ hx => .inl hx⟩
      · next b hb =>
        have hlen := hi.full_length (by rw [hp]; trivial)
        have hstr : str b.bytes = str m := str_recvTerminated hb
        refine ⟨id, nofun, ids_congr (Server.names_handleAck _), fun x hx hr => ?_⟩
        rw [← hstr]
        exact (Server.hasResponded_handleAck hi.registered hlen hx _).mp hr

/-- Since the first broadcast the id `x` has been received as often as there have been broadcasts,
but for the last of them if the flag of `x` is not set. -/
structure Paced (x : List UInt8) (N : Nat) (σ : Net ι) : Prop where
  before : σ.server.pc.InHandshake → σ.broadcasts = []
  bound : x ∈ σ.server.ids → σ.broadcasts.length ≤ N + 1
  done : x ∈ σ.server.ids → σ.server.pc = .broadcast ∨ σ.server.server.HasResponded x →
    σ.broadcasts.length ≤ N

omit [DecidableEq ι] in
theorem Paced.congr (h : Paced x N σ) (hserver : σ'.server = σ.server)
    (hb : σ'.broadcasts = σ.broadcasts) : Paced x N σ' := by
  obtain ⟨before, bound, done⟩ := h
  rw [← hserver, ← hb] at before
  rw [← hserver, ← hb] at bound done
  exact ⟨before, bound, done⟩

omit [DecidableEq ι] in
theorem Paced.of_none (h : σ.broadcasts = []) : Paced x N σ where
  before _ := h
  bound _ := by rw [h]; exact Nat.zero_le _
  done _ _ := by rw [h]; exact Nat.zero_le _

omit [DecidableEq ι] in
theorem Paced.recv (h : Paced x N σ) (hi : ServerInv n σ.server) {m : Msg} {τ : ServerRun}
    (hs : σ.server.step (.recv m) = some τ) (hserver : σ'.server = τ)
    (hb : σ'.broadcasts = σ.broadcasts) :
    Paced x (N + if str m = x then 1 else 0) σ' := by
  rcases recv_booked hi hs with ⟨hp, -⟩ | ⟨hp, hphase, hpc, hids, hflags⟩
  · exact .of_none (hb.trans (h.before (by rw [hp]; trivial)))
  · subst hserver
    refine ⟨fun hp' => absurd hp' hphase, fun hx => ?_, fun hx hdone => ?_⟩
    · have := h.bound (hids ▸ hx)
      rw [hb]
      omega
    · have hx' : x ∈ σ.server.ids := hids ▸ hx
      rw [hb]
      rcases hflags x hx' (hdone.resolve_left hpc) with hr | rfl
      · have := h.done hx' (.inr hr)
        omega
      · have := h.bound hx'
        rw [if_pos rfl]
        exact this

omit [DecidableEq ι] in
theorem Paced.send (h : Paced x N σ) (hi : ServerInv n σ.server) {m : Msg} {τ : ServerRun}
    (hs : σ.server.step (.send m) = some τ) (hserver : σ'.server = τ)
    (hb : σ'.broadcasts = σ.broadcasts) : Paced x N σ' := by
  by_cases hp : σ.server.pc.InTick
  · obtain ⟨-, hids, hflags, hpc⟩ := tickSend_spec hi hp hs
    subst hserver
    refine ⟨fun hp' => ?_, fun hx => hb ▸ h.bound (hids ▸ hx), fun hx hdone => ?_⟩
    · rcases hpc with hpc | ⟨hpc, -⟩ <;> rw [hpc] at hp' <;> exact hp'.elim
    · have hx' : x ∈ σ.server.ids := hids ▸ hx
      rw [hb]
      refine h.done hx' (.inr ?_)
      rcases hdone with hdone | hdone
      · rcases hpc with hpc | ⟨-, hall⟩
        · rw [hpc] at hdone
          cases hdone
        · exact hall x hx'
      · exact (hflags x).mp hdone
  · refine .of_none (hb.trans (h.before ?_))
    rw [step_eq_some] at hs
    cases hs with
    | handshakeSend r hp' => rw [hp']; trivial
    | tickSend hp' => exact absurd (by rw [hp']; trivial) hp

omit [DecidableEq ι] in
/-- A time is broadcast: the id has been received since the last one. -/
theorem Paced.publish (h : Paced x N σ) (hi : ServerInv n σ.server) {t : UInt64}
    {τ : ServerRun} (hs : σ.server.step (.publish t) = some τ) (hserver : σ'.server = τ)
    (hb : σ'.broadcasts = σ.broadcasts ++ [t]) : Paced x N σ' := by
  obtain ⟨hp, hids, hflags, e⟩ := publish_spec hi hs
  subst hserver
  refine ⟨fun hp' => ?_, fun hx => ?_, fun hx hdone => ?_⟩
  · rw [e] at hp'
    exact hp'.elim
  · have := h.done (hids ▸ hx) (.inl hp)
    rw [hb, List.length_append, List.length_singleton]
    omega
  · exfalso
    rcases hdone with hdone | hdone
    · rw [e] at hdone
      cases hdone
    · exact hflags x hdone

omit [DecidableEq ι] in
theorem countP_carries {o : Option ι} {m : Msg} (h : σ.hears a = some (o, m)) :
    (σ.hears a).toList.countP (carries x) = if str m = x then 1 else 0 := by
  rw [h, Option.toList_some, List.countP_singleton]
  simp only [carries, decide_eq_true_eq]

theorem Paced.step (h : Paced x N σ) (hi : ServerInv n σ.server) (hs : OpenStep args σ a σ') :
    Paced x (N + (σ.hears a).toList.countP (carries x)) σ' := by
  cases hs with
  | own a _ hs =>
    cases hs with
    | client => exact h.congr rfl rfl
    | request c m τ hm hτ =>
      rw [countP_carries (show σ.hears _ = some (some c, m) by simp only [Net.hears, hm])]
      exact h.recv hi hτ rfl rfl
    | requestStale k m τ hm hτ =>
      rw [countP_carries (show σ.hears _ = some (none, m) by simp only [Net.hears, hm,
        Option.map_some])]
      exact h.recv hi hτ rfl rfl
    | answer m τ _ hτ => exact h.send hi hτ rfl rfl
    | broadcast heard τ hτ => exact h.publish hi hτ rfl rfl
  | foreign m τ hτ =>
    rw [countP_carries (show σ.hears _ = some (none, m) from rfl)]
    exact h.recv hi hτ rfl rfl

/-! ## What a client sends -/

/-- A request of `c`'s own with the id `x`. -/
def signs (c : ι) (x : List UInt8) (u : Option ι × Msg) : Bool := u.1 = some c ∧ carries x u

/-- The acknowledgements a client has yet to send or the server to receive. -/
def ClientEnd.due (e : ClientEnd) : Nat :=
  match e.run.pc, e.requester with
  | .ack, _ => 1
  | .ackWait, .sent _ => 1
  | _, _ => 0

theorem ClientEnd.due_of_pc {e : ClientEnd} (h : e.run.pc ≠ .ack) (h' : e.run.pc ≠ .ackWait) :
    e.due = 0 := by
  unfold ClientEnd.due
  split
  · next hp => exact absurd hp h
  · next hp _ => exact absurd hp h'
  · rfl

theorem ClientEnd.due_le (e : ClientEnd) : e.due ≤ 1 := by
  unfold ClientEnd.due
  split <;> omega

theorem ClientEnd.due_step {args : ClientArgs} {e e' : ClientEnd} {b : ClientAct}
    (hon : args.onTick = true) (h : e.step args b = some e') :
    e'.due + e.run.ticks.length ≤ e.due + e'.run.ticks.length := by
  by_cases hb : b = .tick
  · subst hb
    cases EndStep.of_step h with
    | tick t feed hp _ =>
      have hle := ClientEnd.due_le { e with
        run := { e.run with
          ticks := if args.onTick then e.run.ticks ++ [t] else e.run.ticks
          pc := .ack }
        feed := feed }
      simp only [hon, if_true, List.length_append, List.length_singleton] at hle ⊢
      omega
  · rw [ClientEnd.ticks_eq (fun e => absurd e hb) h]
    refine Nat.add_le_add_right ?_ _
    cases EndStep.of_step h with
    | init o r _ hp =>
      rw [ClientEnd.due_of_pc] <;> rcases hp with hp | hp <;> simp [hp]
    | subscribe => exact Nat.le_refl _
    | sendReady => exact Nat.zero_le _
    | sendAck hp =>
      have hdue : e.due = 1 := by
        unfold ClientEnd.due
        rw [hp]
      rw [hdue]
      exact ClientEnd.due_le _
    | sendFail => exact Nat.zero_le _
    | joinReply m =>
      rw [ClientEnd.due_of_pc] <;> rcases e.run.handshakeReceived_pc m with hp | hp | hp <;>
        simp [hp]
    | ackReply => exact Nat.zero_le _
    | timeout => exact Nat.zero_le _
    | tick => exact absurd rfl hb
    | restart r _ hp => rw [ClientEnd.due_of_pc] <;> simp [hp]

/-- READY of a client does not carry its id as an acknowledgement does. -/
theorem str_readyMsg_ne {args : ClientArgs} {r : ClientRun} (hlen : args.id.length ≤ 57)
    (hname : r.client.name = args.id.take 63) : str r.client.readyMsg ≠ args.id := by
  have hz : 0 ∉ r.client.readyMsg := by
    rw [Client.readyMsg_eq, List.mem_append, List.mem_cons]
    rintro (h | h | h)
    · exact absurd h (by decide)
    · exact absurd h (by decide)
    · exact r.client.zero_notMem_name h
  intro h
  have hlength := congrArg List.length h
  rw [str_eq_self hz, Client.length_readyMsg, hname, List.length_take] at hlength
  omega

theorem ClientEnd.due_answer (m : Msg) (e : ClientEnd) : (e.answer m).due = e.due := by
  unfold ClientEnd.due
  show (match e.run.pc, e.requester.answer m with
    | .ack, _ => 1
    | .ackWait, .sent _ => 1
    | _, _ => 0) = _
  cases e.requester with
  | held => cases e.run.pc <;> rfl
  | _ => rfl

theorem ClientEnd.due_deliver (b : Bool) (t : UInt64) (e : ClientEnd) :
    (e.deliver b t).due = e.due := by
  unfold ClientEnd.due
  rw [ClientEnd.deliver_run, ClientEnd.deliver_requester]

/-- The acknowledgements received of `c` and those due are no more than its ticks. -/
def Acknowledged (c : ι) (N : Nat) (σ : Net ι) : Prop :=
  N + (σ.ends c).due ≤ (σ.ends c).run.ticks.length

omit [DecidableEq ι] in
theorem Acknowledged.congr (h : Acknowledged c N σ) (hdue : (σ'.ends c).due = (σ.ends c).due)
    (hrun : (σ'.ends c).run = (σ.ends c).run) : Acknowledged c N σ' := by
  unfold Acknowledged at h ⊢
  rw [hdue, hrun]
  exact h

theorem countP_signs_of_ne {o : Option ι} {m : Msg} (h : σ.hears a = some (o, m))
    (ho : o ≠ some c) : (σ.hears a).toList.countP (signs c x) = 0 := by
  rw [h, Option.toList_some, List.countP_singleton]
  simp [signs, ho]

theorem Acknowledged.request (h : Acknowledged c N σ) (hw : Wired args σ)
    (hlen : (args c).id.length ≤ 57) {m : Msg} (hm : (σ.ends c).requester = .sent m)
    {τ : ServerRun} :
    Acknowledged c (N + (σ.hears (.own (.request c))).toList.countP (signs c (args c).id))
      { σ.setEnd c { σ.ends c with requester := .held } with server := τ } := by
  have hhears : σ.hears (.own (.request c)) = some (some c, m) := by simp only [Net.hears, hm]
  unfold Acknowledged at h ⊢
  simp only [Net.setEnd, Function.update_self, hhears, Option.toList_some, List.countP_singleton,
    signs, carries, true_and, decide_eq_true_eq]
  rcases (hw.ends c).sent hm with ⟨hp, hready⟩ | ⟨hp, -⟩
  · -- READY is no acknowledgement
    have hne : str m ≠ (args c).id :=
      hready ▸ str_readyMsg_ne hlen (hw.named c (by rcases hp with hp | hp <;> simp [hp]))
    have hdue : ({ σ.ends c with requester := .held } : ClientEnd).due = 0 :=
      ClientEnd.due_of_pc (by rcases hp with hp | hp <;> simp [hp])
        (by rcases hp with hp | hp <;> simp [hp])
    rw [if_neg hne, hdue]
    omega
  · have hdue : (σ.ends c).due = 1 := by
      unfold ClientEnd.due
      rw [hp, hm]
    have hdue' : ({ σ.ends c with requester := .held } : ClientEnd).due = 0 := by
      unfold ClientEnd.due
      rw [hp]
    rw [hdue] at h
    rw [hdue']
    split <;> omega

theorem Acknowledged.client (h : Acknowledged c N σ) (hon : (args c).onTick = true) {c' : ι}
    {b : ClientAct} (hs : σ.step args (.client c' b) = some σ') : Acknowledged c N σ' := by
  obtain ⟨e, he, rfl⟩ := Option.map_eq_some_iff.mp hs
  by_cases hc : c = c'
  · subst hc
    have hdue := ClientEnd.due_step hon he
    unfold Acknowledged at h ⊢
    simp only [Net.setEnd, Function.update_self]
    omega
  · have hend : (σ.setEnd c' e).ends c = σ.ends c := Function.update_of_ne hc ..
    exact h.congr (congrArg ClientEnd.due hend) (congrArg ClientEnd.run hend)

theorem Acknowledged.step (h : Acknowledged c N σ) (hw : Wired args σ)
    (hlen : (args c).id.length ≤ 57) (hon : (args c).onTick = true)
    (hs : σ.openStep args a = some σ') :
    Acknowledged c (N + (σ.hears a).toList.countP (signs c (args c).id)) σ' := by
  cases OpenStep.of_step hs with
  | own b _ hstep =>
    cases hstep with
    | client c' b e he => exact h.client hon hs
    | request c' m τ hm hτ =>
      by_cases hc : c = c'
      · subst hc
        exact h.request hw hlen hm
      · rw [countP_signs_of_ne (show σ.hears _ = some (some c', m) by simp only [Net.hears, hm])
          (by simpa using Ne.symm hc)]
        have hend : (σ.setEnd c' { σ.ends c' with requester := .held }).ends c = σ.ends c :=
          Function.update_of_ne hc ..
        exact h.congr (congrArg ClientEnd.due hend) (congrArg ClientEnd.run hend)
    | requestStale k m τ hm hτ =>
      rw [countP_signs_of_ne (show σ.hears _ = some (none, m) by simp only [Net.hears, hm,
        Option.map_some]) nofun]
      exact h.congr rfl rfl
    | answer m τ _ hτ => exact h.congr (ClientEnd.due_answer _ _) rfl
    | broadcast heard τ hτ => exact h.congr (ClientEnd.due_deliver ..) (ClientEnd.deliver_run ..)
  | foreign m τ hτ =>
    rw [countP_signs_of_ne (show σ.hears _ = some (none, m) from rfl) nofun]
    exact h.congr rfl rfl

/-! ## The bound -/

end Simulith
