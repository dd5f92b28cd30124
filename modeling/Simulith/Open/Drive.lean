import Simulith.Net.Replies
import Simulith.Open.Basic

/-!
# Who drives the simulation

Whoever knows the registered ids can acknowledge for all clients. A stranger
who does makes the server broadcast as often as he likes, with no client taking
part (`strangers_drive`), from wherever the tick phase has come to unless it is
stuck.
-/

namespace Simulith

open Lts CStr

/-- Strangers with the ids `ids`, the server's answers, and its broadcasts. -/
def OpenAct.Outside {ι : Type*} (ids : List (List UInt8)) : OpenAct ι → Prop
  | .foreign m => m ∈ ids
  | .own .answer => True
  | .own (.broadcast _) => True
  | .own _ => False

variable {n : Nat} {ids : List (List UInt8)} {τ τ' : ServerRun} {d : ServerCall}

/-! ## The server in the tick phase -/

/-- Ids that are C strings a request can carry. -/
def Sendable (ids : List (List UInt8)) : Prop := ∀ x ∈ ids, Fits x ∧ str x = x

/-- A server with the registered ids `ids` that can be driven from one broadcast to the next. -/
structure Drivable (n : Nat) (ids : List (List UInt8)) (τ : ServerRun) : Prop where
  inv : ServerInv n τ
  ids : τ.ids = ids
  tick : τ.pc.InTick
  waits : τ.pc = .tickRecv → τ.server.allClientsResponded = false
  free : τ.pc ≠ .tickSend → τ.owes = false

theorem ids_short_step (hi : ServerInv n τ) (h : ∀ x ∈ τ.ids, x.length ≤ 57 ∧ 0 ∉ x)
    (hs : τ.step d = some τ') : ∀ x ∈ τ'.ids, x.length ≤ 57 ∧ 0 ∉ x := by
  rcases ids_step_cases hi hs with ⟨e, -⟩ | ⟨m, y, -, -, hm, hy, -, -, e⟩
  · rw [e]
    exact h
  · obtain ⟨hlen, hz⟩ := length_handshakeId hy
    rw [e]
    intro x hx
    rcases List.mem_append.mp hx with hx | hx
    · exact h x hx
    · rw [List.mem_singleton.mp hx]
      exact ⟨by omega, hz⟩

theorem sendable_of_short (hi : ServerInv n τ) (h : ∀ x ∈ τ.ids, x.length ≤ 57 ∧ 0 ∉ x) :
    Sendable τ.ids := by
  intro x hx
  obtain ⟨hlen, hz⟩ := h x hx
  have hne : x.length ≠ 0 := fun e => hi.registered.ne (List.length_eq_zero_iff.mp e ▸ hx)
  exact ⟨⟨by omega, by omega⟩, str_eq_self hz⟩

theorem broadcast_free_step (h : τ.pc = .broadcast → τ.owes = false) (hs : τ.step d = some τ') :
    τ'.pc = .broadcast → τ'.owes = false := by
  cases d with
  | send m => exact fun _ => owes_send hs
  | publish t =>
    obtain ⟨hp, -, ho⟩ := pc_publish hs
    exact fun _ => ho.trans (h hp)
  | recvFail =>
    rw [step_eq_some] at hs
    cases hs with
    | fail => exact h
  | recv m =>
    intro hp
    exfalso
    rw [step_eq_some] at hs
    cases hs with
    | handshakeRecv _ hp' _ =>
      unfold ServerRun.handshakeReceived at hp
      split at hp
      · exact absurd (hp'.symm.trans hp) nofun
      · split at hp
        · cases hp
        · split at hp <;> cases hp
    | tickRecv _ hp' _ =>
      unfold ServerRun.tickReceived at hp
      split at hp
      · exact absurd (hp'.symm.trans hp) nofun
      · split at hp <;> cases hp

theorem Drivable.step (h : Drivable n ids τ) (hd : ∀ m, d = .recv m → Fits m)
    (hs : τ.step d = some τ') : Drivable n ids τ' where
  inv := serverInv_step h.inv hs
  ids := by
    rcases ids_step_cases h.inv hs with ⟨e, -⟩ | ⟨m, y, -, hp, -⟩
    · exact e.trans h.ids
    · have := h.tick
      rw [hp] at this
      exact this.elim
  tick := inTick_step h.tick hd hs
  waits := waits_step h.waits hs
  free := by
    cases d with
    | send m => exact fun _ => owes_send hs
    | publish t =>
      obtain ⟨hp, -, ho⟩ := pc_publish hs
      exact fun _ => ho.trans (h.free (by rw [hp]; exact nofun))
    | recv m => exact fun hp => absurd (tickRecv_spec h.inv h.tick (hd m rfl) hs).2.1 hp
    | recvFail =>
      rw [step_eq_some] at hs
      cases hs with
      | fail => exact h.free

/-- The steps it takes to the next broadcast. -/
def ServerRun.toBroadcast (τ : ServerRun) : Nat :=
  2 * (τ.ids.filter fun x => ¬ τ.server.HasResponded x).length + if τ.pc = .tickSend then 1 else 0

theorem Drivable.send (h : Drivable n ids τ) (hp : τ.pc = .tickSend) :
    ∃ τ', τ.step (.send Reply.ack.bytes) = some τ' ∧ τ'.toBroadcast < τ.toBroadcast := by
  have hs := step_eq_some.mpr (ServerStep.tickSend hp)
  refine ⟨_, hs, ?_⟩
  obtain ⟨-, hids, hflags, hpc⟩ := tickSend_spec h.inv h.tick hs
  have hne : ({ τ with owes := false } : ServerRun).tickHead.pc ≠ .tickSend := by
    rcases hpc with hpc | ⟨hpc, -⟩ <;> rw [hpc] <;> exact nofun
  unfold ServerRun.toBroadcast
  simp only [hids, hflags, if_neg hne, if_pos hp]
  omega

theorem Drivable.recv (h : Drivable n ids τ) (hfit : Sendable ids) (hp : τ.pc = .tickRecv) :
    ∃ x ∈ ids, ∃ τ', τ.step (.recv x) = some τ' ∧ τ'.toBroadcast < τ.toBroadcast := by
  have hlen := h.inv.full_length h.tick
  obtain ⟨x, hx, hno⟩ : ∃ x ∈ τ.ids, ¬ τ.server.HasResponded x := by
    have hopen : ¬ τ.server.allClientsResponded = true := by simp [h.waits hp]
    rw [Server.allClientsResponded_iff h.inv.registered hlen] at hopen
    push Not at hopen
    exact hopen
  have hx' : x ∈ ids := h.ids ▸ hx
  have hs := step_eq_some.mpr (ServerStep.tickRecv x hp (h.free (by rw [hp]; exact nofun)))
  refine ⟨x, hx', _, hs, ?_⟩
  obtain ⟨-, hpc, hids, hflags⟩ := tickRecv_spec h.inv h.tick (hfit x hx').1 hs
  have hstr := (hfit x hx').2
  -- the flag of `x` is set, the others are as they were
  have hfewer : (τ.ids.filter fun y => ¬ (τ.tickReceived x).server.HasResponded y).length <
      (τ.ids.filter fun y => ¬ τ.server.HasResponded y).length := by
    have hfilter : (τ.ids.filter fun y => ¬ (τ.tickReceived x).server.HasResponded y) =
        (τ.ids.filter fun y => ¬ τ.server.HasResponded y).filter fun y => y ≠ x := by
      rw [List.filter_filter]
      refine List.filter_congr fun y hy => ?_
      simp only [hflags y hy, hstr, not_or, ne_eq, Bool.decide_and, Bool.and_comm]
    rw [hfilter, List.length_filter_lt_length_iff_exists]
    exact ⟨x, List.mem_filter.mpr ⟨hx, by simpa using hno⟩, by simp⟩
  unfold ServerRun.toBroadcast
  rw [hids, if_pos hpc, if_neg (by rw [hp]; exact nofun)]
  omega

/-! ## The net -/

variable {ι : Type*} [DecidableEq ι] {args : ι → ClientArgs} {σ σ' : Net ι} {a : OpenAct ι}

theorem OpenAct.Outside.run_eq (ha : a.Outside ids) (hs : OpenStep args σ a σ') (c : ι) :
    (σ'.ends c).run = (σ.ends c).run := by
  cases hs with
  | own b _ hs =>
    refine hs.run_eq fun d hd => ?_
    subst hd
    exact ha
  | foreign => rfl

theorem Drivable.openStep (h : Drivable n ids σ.server) (hfit : Sendable ids)
    (ha : a.Outside ids) (hs : OpenStep args σ a σ') : Drivable n ids σ'.server := by
  cases hs with
  | foreign m τ hτ => exact h.step (fun m' hm' => by cases hm'; exact (hfit m ha).1) hτ
  | own b _ hs =>
    cases hs with
    | client => exact ha.elim
    | request => exact ha.elim
    | requestStale => exact ha.elim
    | answer m τ _ hτ => exact h.step (fun _ hm => by cases hm) hτ
    | broadcast heard τ hτ => exact h.step (fun _ hm => by cases hm) hτ

/-- Come from `σ` without a broadcast and without a step of a client. -/
structure Driven (n : Nat) (ids : List (List UInt8)) (σ ν : Net ι) : Prop where
  drivable : Drivable n ids ν.server
  broadcasts : ν.broadcasts = σ.broadcasts
  runs : ∀ c, (ν.ends c).run = (σ.ends c).run

theorem Driven.step {ν ν' : Net ι} (h : Driven n ids σ ν) (hfit : Sendable ids)
    (ha : a.Outside ids) (hno : ∀ heard, a ≠ .own (.broadcast heard)) (hs : OpenStep args ν a ν') :
    Driven n ids σ ν' where
  drivable := h.drivable.openStep hfit ha hs
  broadcasts := by
    cases hs with
    | foreign => exact h.broadcasts
    | own b _ hs =>
      cases hs with
      | broadcast heard => exact absurd rfl (hno heard)
      | _ => exact h.broadcasts
  runs c := (ha.run_eq hs c).trans (h.runs c)

/-- A stranger's request or the answer to it brings the next broadcast closer. -/
theorem Drivable.getsOn (args : ι → ClientArgs) (h : Drivable n ids σ.server) (hfit : Sendable ids)
    (hp : σ.server.pc ≠ .broadcast) :
    ∃ a σ', (a.Outside ids ∧ ∀ heard, a ≠ .own (.broadcast heard)) ∧
      σ.openStep args a = some σ' ∧ σ'.server.toBroadcast < σ.server.toBroadcast := by
  cases hpc : σ.server.pc with
  | broadcast => exact absurd hpc hp
  | tickRecv =>
    obtain ⟨x, hx, τ, hτ, hlt⟩ := h.recv hfit hpc
    exact ⟨.foreign x, { σ with server := τ }, ⟨hx, fun _ => nofun⟩, congrArg (Option.map _) hτ, hlt⟩
  | tickSend =>
    obtain ⟨τ, hτ, hlt⟩ := h.send hpc
    have hsend : σ.server.toSend = some Reply.ack.bytes := by
      unfold ServerRun.toSend
      rw [hpc]
    refine ⟨.own .answer, { σ with
      server := τ
      ends := fun c => (σ.ends c).answer Reply.ack.bytes }, ⟨trivial, fun _ => nofun⟩, ?_, hlt⟩
    show σ.step args .answer = _
    simp only [Net.step, hsend, hτ, Option.map_some]
  | _ =>
    have := h.tick
    rw [hpc] at this
    exact this.elim

theorem Drivable.to_broadcast (args : ι → ClientArgs) (h : Drivable n ids σ.server)
    (hfit : Sendable ids) :
    ∃ more τ, (∀ a ∈ more, a.Outside ids) ∧ exec (Net.openStep args) σ more = some τ ∧
      Driven n ids σ τ ∧ τ.server.pc = .broadcast := by
  obtain ⟨more, τ, hA, hτ, hdriven, hpc⟩ := exists_exec_state
    (P := fun _ (a : OpenAct ι) => a.Outside ids ∧ ∀ heard, a ≠ .own (.broadcast heard))
    (I := Driven n ids σ) (G := fun ν => ν.server.pc = .broadcast)
    (fun ν : Net ι => ν.server.toBroadcast)
    (fun _ _ _ hI ha hs => hI.step hfit ha.1 ha.2 (.of_step hs))
    (fun _ hI => Classical.or_iff_not_imp_left.mpr (hI.drivable.getsOn args hfit))
    ⟨h, rfl, fun _ => rfl⟩
  refine ⟨more, τ, fun a ha => ?_, hτ, hdriven, hpc⟩
  obtain ⟨pre, post, u, v, e, hu, -⟩ := exec_mem hτ ha
  exact (along_iff.mp hA pre a post u e hu).1

theorem Drivable.drive (args : ι → ClientArgs) (h : Drivable n ids σ.server) (hfit : Sendable ids)
    (m : Nat) :
    ∃ more τ, (∀ a ∈ more, a.Outside ids) ∧ exec (Net.openStep args) σ more = some τ ∧
      τ.broadcasts.length = σ.broadcasts.length + m ∧
      ∀ c, (τ.ends c).run = (σ.ends c).run := by
  induction m generalizing σ with
  | zero => exact ⟨[], σ, by simp, rfl, rfl, fun _ => rfl⟩
  | succ m ih =>
    obtain ⟨more, τ, hmore, hτ, hdriven, hpc⟩ := h.to_broadcast args hfit
    have hpub := step_eq_some.mpr (ServerStep.publish hpc)
    have hstep : τ.openStep args (.own (.broadcast fun _ => true)) = some { τ with
        server := { τ.server with server := τ.server.server.resetResponses }.tickHead
        ends := fun c => (τ.ends c).deliver true τ.server.server.currentTimeNs
        broadcasts := τ.broadcasts ++ [τ.server.server.currentTimeNs] } :=
      congrArg (Option.map _) hpub
    have houtside : (OpenAct.own (.broadcast fun _ => true) : OpenAct ι).Outside ids := trivial
    obtain ⟨more', υ, hmore', hυ, hcount, hrun⟩ :=
      ih (hdriven.drivable.openStep hfit houtside (.of_step hstep))
    refine ⟨more ++ .own (.broadcast fun _ => true) :: more', υ,
      List.forall_mem_append.mpr ⟨hmore, List.forall_mem_cons.mpr ⟨houtside, hmore'⟩⟩,
      exec_append_eq_some.mpr ⟨τ, hτ, exec_cons_eq_some.mpr ⟨_, hstep, hυ⟩⟩, ?_, fun c => ?_⟩
    · rw [hcount, hdriven.broadcasts, List.length_append, List.length_singleton]
      omega
    · rw [hrun, ClientEnd.deliver_run, hdriven.runs]

/-- In any run strangers can drive the server on, unless it is stuck. -/
theorem drivable_of_run {k : Int} {iv : UInt64} {s : Server} (hs : ServerReady k iv s)
    {acts : List (OpenAct ι)}
    (he : exec (Net.openStep args) (Net.init ι s) acts = some σ) (hp : σ.server.pc.InTick)
    (hfree : σ.server.pc = .tickRecv → σ.server.owes = false) :
    Sendable σ.server.ids ∧ Drivable s.expectedClients σ.server.ids σ.server := by
  have hbegin : (simulithServerRun s).pc = .handshakeRecv := by
    rw [simulithServerRun_eq hs.spec.1.1]
  obtain ⟨hi, hshort, hbroadcast, hwaits⟩ :=
    open_server (I := fun τ => ServerInv s.expectedClients τ ∧
      (∀ x ∈ τ.ids, x.length ≤ 57 ∧ 0 ∉ x) ∧ (τ.pc = .broadcast → τ.owes = false) ∧
      (τ.pc = .tickRecv → τ.server.allClientsResponded = false))
    (fun τ d τ' h hs => ⟨serverInv_step h.1 hs, ids_short_step h.1 h.2.1 hs,
      broadcast_free_step h.2.2.1 hs, waits_step h.2.2.2 hs⟩)
    ⟨serverInv_init hs, by rw [ids_simulithServerRun hs]; simp, by rw [hbegin]; exact nofun,
      by rw [hbegin]; exact nofun⟩ he
  refine ⟨sendable_of_short hi hshort, hi, rfl, hp, hwaits, fun hne => ?_⟩
  cases hpc : σ.server.pc with
  | broadcast => exact hbroadcast hpc
  | tickRecv => exact hfree hpc
  | tickSend => exact absurd hpc hne
  | _ =>
    rw [hpc] at hp
    exact hp.elim

/-- **Strangers can drive the simulation.** Any clients, whatever has been dropped, has timed out or
has started over, and whatever strangers have sent, once the server has all ids it expects and is
not stuck at a request it did not answer: by requests with registered ids strangers can make it
broadcast as often again as they like, and no client takes a step. -/
theorem strangers_drive {k : Int} {iv : UInt64} {s : Server} (hs : ServerReady k iv s)
    {acts : List (OpenAct ι)}
    (he : exec (Net.openStep args) (Net.init ι s) acts = some σ) (hp : σ.server.pc.InTick)
    (hfree : σ.server.pc = .tickRecv → σ.server.owes = false) (m : Nat) :
    ∃ more τ, (∀ a ∈ more, a.Outside σ.server.ids) ∧
      exec (Net.openStep args) σ more = some τ ∧
      τ.broadcasts.length = σ.broadcasts.length + m ∧ ∀ c, (τ.ends c).run = (σ.ends c).run := by
  obtain ⟨hfit, hdriv⟩ := drivable_of_run hs he hp hfree
  exact hdriv.drive args hfit m

/-- A client that has joined; strangers make the server broadcast a hundred times to it. -/
theorem strangers_drive_hundred :
    let args := ![ClientArgs.named [97] (by decide) (by decide)]
    ∃ more τ, exec (Net.openStep args) (Net.init (Fin 1) (.fresh 1 10))
        ((join 0).map .own ++ more) = some τ ∧
      τ.broadcasts.length = 100 ∧ (τ.ends 0).run.ticks = [] := by
  intro args
  obtain ⟨σ, h, hpc, hnone, hticks⟩ : ∃ σ, exec (Net.openStep args)
      (Net.init (Fin 1) (.fresh 1 10)) ((join 0).map .own) = some σ ∧
      σ.server.pc = .broadcast ∧ σ.broadcasts = [] ∧ (σ.ends 0).run.ticks = [] :=
    exists_exec_of_any (by decide)
  obtain ⟨more, τ, -, hτ, hcount, hrun⟩ := strangers_drive
    (serverReady_fresh (by decide) (by decide) (by decide)) h (by rw [hpc]; trivial)
    (by rw [hpc]; exact nofun) 100
  refine ⟨more, τ, exec_append_eq_some.mpr ⟨σ, h, hτ⟩, ?_, ?_⟩
  · rw [hcount, hnone]
    rfl
  · rw [hrun 0, hticks]

end Simulith
