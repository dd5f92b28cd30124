import Mathlib.Data.Fin.VecNotation
import Simulith.Net.Lockstep
import Simulith.Simulation.Basic

/-!
# Computing in rounds

The barrier is there so that no client computes on a time before all have done
with the last. `computing_in_rounds` says so of the driver calls and the other
steps of `on_tick`: those made for a broadcast are made after it and before the
next, in every client, whatever the network does.
-/

namespace Simulith

open Lts

theorem ClientEnd.Placed.ticks_of_ack {args : ClientArgs} {ℓ : Prop} {times : List UInt64}
    {e : ClientEnd} {responded : Prop} (h : e.Placed args ℓ times responded)
    (hp : e.run.pc = .ack) (hon : args.onTick = true) : e.run.ticks = times := by
  rcases h with ⟨-, hl | ha⟩ | ⟨-, hs⟩
  · exfalso
    cases hl.resting with
    | tick hp' | joining hp' | acked _ hp' | failed _ hp' => rw [hp] at hp'; cases hp'
  · exact ha.upToDate.ticks hon
  · exfalso
    rcases hs.settled with ⟨hp', -⟩ | ⟨hp', -⟩ <;> rw [hp] at hp' <;> cases hp'

variable {ι : Type*} {υ : Type} {args : ι → ClientArgs} {code : ι → UserCode υ}
  {σ σ' : Simulation ι υ} {a : SimAct ι} {acts : List (SimAct ι)}

/-- How many ticks the client that computes has been given. -/
def Simulation.stamp (σ : Simulation ι υ) : SimAct ι → Option Nat
  | .net _ => none
  | .compute c => some (σ.net.ends c).run.ticks.length

/-- No client starts over. -/
def SimAct.Once : SimAct ι → Prop
  | .net a => a.Once
  | .compute _ => True

instance (a : SimAct ι) : Decidable a.Once :=
  match a with
  | .net a => inferInstanceAs (Decidable a.Once)
  | .compute _ => isTrue trivial

theorem SimAct.Once.act {b : Act ι} (h : a.Once) (hb : a.act = some b) : b.Once := by
  cases a with
  | net a => cases hb; exact h
  | compute c => cases hb

variable [DecidableEq ι]

/-- The stamps of the computing done in a run. -/
def stamps (args : ι → ClientArgs) (code : ι → UserCode υ) (σ : Simulation ι υ)
    (acts : List (SimAct ι)) : List Nat :=
  trace (Simulation.step args code) Simulation.stamp σ acts

theorem SimStep.broadcasts_le (h : SimStep args code σ a σ') :
    σ.net.broadcasts.length ≤ σ'.net.broadcasts.length := by
  rcases h.step_net with ⟨-, hnet⟩ | ⟨b, -, hnet⟩
  · rw [hnet]
  · generalize σ'.net = ν at hnet
    cases NetStep.of_step hnet with
    | broadcast => simp only [List.length_append]; omega
    | _ => exact Nat.le_refl _

variable [Fintype ι]

theorem running_given (hlen : ∀ c, (args c).id.length ≤ 57) {iv : UInt64} {s : Server}
    (hs : ServerReady (Fintype.card ι) iv s) {procs : ι → Process υ}
    (honce : ∀ a ∈ acts, a.Once)
    (he : exec (Simulation.step args code) (.init s procs) acts = some σ) :
    (∀ c t q, σ.running c = some (t, q) → (σ.net.ends c).run.ticks = σ.net.broadcasts ∧
      σ.net.broadcasts.getLast? = some t) ∧
    (σ.net.server.pc = .broadcast → ∀ c, σ.running c = none) := by
  have honce' : ∀ b ∈ acts.filterMap SimAct.act, b.Once := by
    intro b hb
    obtain ⟨a, ha, hab⟩ := List.mem_filterMap.mp hb
    exact (honce a ha).act hab
  obtain ⟨hst, hphase⟩ := gathering_or_ticking (ℓ := False) hlen hs
    (along_of_forall fun a ha _ => ⟨honce' a ha, False.elim⟩) (exec_net he)
  have hgiven : ∀ c t q, σ.running c = some (t, q) → (σ.net.ends c).run.pc = .ack ∧
      (σ.net.ends c).run.ticks = σ.net.broadcasts ∧ σ.net.broadcasts.getLast? = some t := by
    intro c t q hrun
    have hbooked := booked_exec he c
    rw [hrun] at hbooked
    cases hbooked with
    | busy hon hpc hticks _ _ =>
      have hall : (σ.net.ends c).run.ticks = σ.net.broadcasts := by
        rcases hphase with hg | ht
        · exact absurd hpc (hg.silent c).pc.1
        · exact (ht.placed c).ticks_of_ack hpc hon
      refine ⟨hpc, hall, ?_⟩
      rw [← hall, hticks]
      exact List.getLast?_concat
  refine ⟨fun c t q hrun => (hgiven c t q hrun).2, fun hpc c => ?_⟩
  cases hrun : σ.running c with
  | none => rfl
  | some x =>
    obtain ⟨hack, -⟩ := hgiven c x.1 x.2 hrun
    have hready : (σ.net.ends c).Resting := by
      rcases hphase with hg | ht
      · exact (hg.ready hst hpc c).1
      · exact (ht.ready hst hpc c).1
    cases hready with
    | tick hp | joining hp | acked _ hp | failed _ hp => rw [hack] at hp; cases hp

/-- The stamps of a run rise, up to the number of broadcasts made. -/
theorem stamps_rise (hlen : ∀ c, (args c).id.length ≤ 57) {iv : UInt64} {s : Server}
    (hs : ServerReady (Fintype.card ι) iv s) {procs : ι → Process υ}
    (honce : ∀ a ∈ acts, a.Once)
    (he : exec (Simulation.step args code) (.init s procs) acts = some σ) :
    (stamps args code (.init s procs) acts).Pairwise (· ≤ ·) ∧
      ∀ k ∈ stamps args code (.init s procs) acts, k ≤ σ.net.broadcasts.length := by
  induction acts using List.reverseRecOn generalizing σ with
  | nil => exact ⟨.nil, by simp [stamps, trace]⟩
  | append_singleton acts a ih =>
    obtain ⟨τ, hτ, hstep⟩ := exec_snoc_eq_some.mp he
    have honce' : ∀ a ∈ acts, a.Once := fun b hb => honce b (List.mem_append_left _ hb)
    obtain ⟨hrise, hle⟩ := ih honce' hτ
    have hmono := (SimStep.of_step hstep).broadcasts_le
    have htrace : stamps args code (.init s procs) (acts ++ [a]) =
        stamps args code (.init s procs) acts ++ (τ.stamp a).toList := trace_snoc hτ hstep
    rw [htrace]
    cases a with
    | net b =>
      show (_ ++ []).Pairwise _ ∧ ∀ k ∈ _ ++ [], _
      rw [List.append_nil]
      exact ⟨hrise, fun k hk => (hle k hk).trans hmono⟩
    | compute c =>
      -- who computes has been given every broadcast made so far
      have hgiven : (τ.net.ends c).run.ticks.length = τ.net.broadcasts.length := by
        have hrun : ∃ x, τ.running c = some x := by
          cases SimStep.of_step hstep with
          | call _ _ _ _ hrun _ => exact ⟨_, hrun⟩
          | ret _ _ hrun => exact ⟨_, hrun⟩
        obtain ⟨⟨t, q⟩, hrun⟩ := hrun
        rw [((running_given hlen hs honce' hτ).1 c t q hrun).1]
      show (_ ++ [_]).Pairwise _ ∧ ∀ k ∈ _ ++ [_], _
      rw [hgiven]
      refine ⟨List.pairwise_append.mpr ⟨hrise, List.pairwise_singleton _ _, ?_⟩, fun k hk => ?_⟩
      · intro k hk j hj
        rw [List.mem_singleton.mp hj]
        exact hle k hk
      · rcases List.mem_append.mp hk with hk | hk
        · exact (hle k hk).trans hmono
        · rw [List.mem_singleton.mp hk]
          exact hmono

/-- **Clients compute in rounds.** A server for as many clients as there are,
with ids of at most 57 bytes, and nobody starts over; whatever is dropped or
times out, whatever `on_tick` calls. While it runs in a client it has been
called with the last time broadcast, after all those before it, and it runs
nowhere when the server broadcasts: what any client computes for one tick comes
before what any of them computes for a later one. -/
theorem computing_in_rounds (hlen : ∀ c, (args c).id.length ≤ 57) {iv : UInt64} {s : Server}
    (hs : ServerReady (Fintype.card ι) iv s) {procs : ι → Process υ}
    (honce : ∀ a ∈ acts, a.Once)
    (he : exec (Simulation.step args code) (.init s procs) acts = some σ) :
    (∀ c t q, σ.running c = some (t, q) → (σ.net.ends c).run.ticks = σ.net.broadcasts ∧
      σ.net.broadcasts.getLast? = some t) ∧
    (∀ heard σ', σ.step args code (.net (.broadcast heard)) = some σ' →
      ∀ c, σ.running c = none) ∧
    (stamps args code (.init s procs) acts).Pairwise (· ≤ ·) := by
  obtain ⟨hgiven, hquiet⟩ := running_given hlen hs honce he
  refine ⟨hgiven, fun heard σ' hb c => ?_, (stamps_rise hlen hs honce he).1⟩
  rcases (SimStep.of_step hb).step_net with ⟨ha, -⟩ | ⟨b, hb, hnet⟩
  · cases ha
  · cases hb
    obtain ⟨τ, hτ, -⟩ := Option.map_eq_some_iff.mp hnet
    exact hquiet (pc_publish hτ).1 c

/-- Two clients whose `on_tick` toggles a pin; one of them computes while the other has not yet
received the tick. -/
theorem computing_in_rounds_two_clients :
    let args := ![ClientArgs.named [97] (by decide) (by decide),
      ClientArgs.named [98] (by decide) (by decide)]
    let code : Fin 2 → UserCode Unit := fun _ =>
      ⟨fun _ => .call (.driver (.gpio 0 0 .toggle)) fun _ => .ret (), fun _ => .ret (0, [])⟩
    let begun : List (Act (Fin 2)) := join 0 ++ .client 0 .subscribe :: join 1 ++
      [.client 1 .subscribe, .broadcast fun _ => true, .client 0 .tick]
    let acts : List (SimAct (Fin 2)) := begun.map .net ++
      [.compute 0, .compute 0, .net (.client 1 .tick), .compute 1]
    ∃ σ, exec (Simulation.step args code) (.init (.fresh 2 10) fun _ => ⟨.zero, ()⟩) acts = some σ ∧
      (σ.running 1).isSome ∧
      (∀ c t q, σ.running c = some (t, q) → (σ.net.ends c).run.ticks = σ.net.broadcasts ∧
        σ.net.broadcasts.getLast? = some t) ∧
      (stamps args code (.init (.fresh 2 10) fun _ => ⟨.zero, ()⟩) acts).Pairwise (· ≤ ·) := by
  intro args code begun acts
  obtain ⟨σ, h, hrun⟩ : ∃ σ, exec (Simulation.step args code)
      (.init (.fresh 2 10) fun _ => ⟨.zero, ()⟩) acts = some σ ∧ (σ.running 1).isSome = true :=
    exists_exec_of_any (by decide)
  have hall := computing_in_rounds (by decide)
    (serverReady_fresh (by decide) (by decide) (by decide)) (by decide) h
  exact ⟨σ, h, hrun, hall.1, hall.2.2⟩

end Simulith
