import Simulith.Net.RoundEnd
import Simulith.Simulation.Rounds

/-!
# The outcome of a simulation

User code has no choice and the schedule does not matter at the end of a round
(`ended_of_rest`): together, a simulation in which nothing is lost and every
`on_tick` returns has one outcome. It can be run for any number of rounds, and
what each process has then come to, drivers and variables, is what its
`on_tick` makes of the process by itself, called with the times of these rounds.
-/

namespace Simulith

open Lts

/-- `on_tick` returns from whatever its earlier calls make of the process. -/
def UserCode.Responsive {υ : Type} (code : UserCode υ) (p₀ : Process υ) : Prop :=
  ∀ ts p t, code.Ran p₀ ts p → ∃ p', code.machine.Returns p (code.onTick t) p' ()

namespace UserCode

variable {υ : Type} {code : UserCode υ} {p₀ p : Process υ} {ts : List UInt64}

theorem Ran.drivers (h : code.Ran p₀ ts p)
    (h0 : ∃ es, exec Drivers.step .zero es = some p₀.drivers) :
    ∃ es, exec Drivers.step .zero es = some p.drivers := by
  induction h with
  | nil => exact h0
  | snoc _ hret ih =>
    obtain ⟨es, hes⟩ := ih
    obtain ⟨es', -, hes'⟩ :=
      Program.Machine.exists_exec Process.drivers (fun _ _ _ _ => call_drivers) hret
    exact ⟨es ++ es', exec_append_eq_some.mpr ⟨_, hes, hes'⟩⟩

theorem Plain.responsive (h : code.Plain)
    (hq : ∀ t, (code.onTick t).Avoids ProcessCall.AddsNull)
    (h0 : ∃ es, exec Drivers.step .zero es = some p₀.drivers) : code.Responsive p₀ := by
  intro ts p t hran
  obtain ⟨es, hes⟩ := hran.drivers h0
  obtain ⟨p', _, hret⟩ := h.returns hes (hq t)
  exact ⟨p', hret⟩

end UserCode

/-- The times `on_tick` is called with in the first `n` rounds. -/
def ClientArgs.times (args : ClientArgs) (t₀ iv : UInt64) (n : Nat) : List UInt64 :=
  if args.onTick then timesFrom t₀ iv n else []

variable {ι : Type*} {υ : Type} {args : ι → ClientArgs} {code : ι → UserCode υ}
  {procs : ι → Process υ} {σ σ' τ : Simulation ι υ} {a : SimAct ι} {acts : List (SimAct ι)}

/-- Nothing is lost in the step, and nobody gives up. -/
def SimAct.Lossless (σ : Simulation ι υ) : SimAct ι → Prop
  | .net a => a.Lossless σ.net
  | .compute _ => True

instance [Fintype ι] (σ : Simulation ι υ) (a : SimAct ι) : Decidable (a.Lossless σ) :=
  match a with
  | .net a => inferInstanceAs (Decidable (a.Lossless σ.net))
  | .compute _ => isTrue trivial

def SimAct.isBroadcast : SimAct ι → Bool
  | .net a => a.isBroadcast
  | .compute _ => false

/-- A processed subscription is not processed again. -/
def SimAct.SubscribesOnce (σ : Simulation ι υ) : SimAct ι → Prop
  | .net a => a.SubscribesOnce σ.net
  | .compute _ => True

/-- No `on_tick` runs. -/
def Simulation.Quiet (σ : Simulation ι υ) : Prop := ∀ c, σ.running c = none

variable [DecidableEq ι]

/-- No lossless step is left but a broadcast. -/
def Simulation.AtRest (args : ι → ClientArgs) (code : ι → UserCode υ) (σ : Simulation ι υ) : Prop :=
  ∀ a σ', a.Lossless σ → a.SubscribesOnce σ → σ.step args code a = some σ' → a.isBroadcast = true

/-- Every client's process is accounted for. -/
def Simulation.Accounted (args : ι → ClientArgs) (code : ι → UserCode υ) (procs : ι → Process υ)
    (σ : Simulation ι υ) : Prop :=
  ∀ c, Booked (args c) (code c) (procs c) (σ.net.ends c).run (σ.procs c) (σ.running c)

theorem Simulation.Accounted.exec (h : σ.Accounted args code procs)
    (he : Lts.exec (Simulation.step args code) σ acts = some τ) : τ.Accounted args code procs :=
  exec_preserves (I := fun σ : Simulation ι υ => σ.Accounted args code procs)
    (fun _ _ _ h hs => booked_step h (.of_step hs)) h he

theorem along_net (hP : Along (Simulation.step args code) (fun σ a => a.Lossless σ) σ acts)
    (he : exec (Simulation.step args code) σ acts = some τ) :
    Along (Net.step args) (fun ν a => a.Lossless ν) σ.net (acts.filterMap SimAct.act) := by
  have hlossless : ∀ (σ : Simulation ι υ) ν (a : SimAct ι) (b : Act ι), σ.net = ν →
      a.Lossless σ → a.act = some b → b.Lossless ν := by
    rintro σ ν (a | c) b rfl ha hb
    · cases hb
      exact ha
    · cases hb
  have hsim := along_simulates (R := fun (σ : Simulation ι υ) ν => σ.net = ν)
    (fun _ _ _ _ h _ hs => net_simulates h hs) hlossless rfl hP he
  rwa [trace_label he] at hsim

/-! ## Letting user code return -/

theorem Simulation.step_call {c : ι} {t : UInt64} {q : Code υ Unit} {u : Process υ × Code υ Unit}
    (hr : σ.running c = some (t, q)) (hs : (code c).machine.step (σ.procs c, q) = some u) :
    σ.step args code (.compute c) = some { σ with
      procs := Function.update σ.procs c u.1
      running := Function.update σ.running c (some (t, u.2)) } := by
  obtain ⟨d, k, r, rfl, -, -⟩ := Program.Machine.exists_call hs
  unfold Simulation.step
  simp only [hr, hs]
  rfl

theorem Simulation.step_ret {c : ι} {t : UInt64} (hr : σ.running c = some (t, .ret ())) :
    σ.step args code (.compute c) =
      some { σ with running := Function.update σ.running c none } := by
  unfold Simulation.step
  simp only [hr]

theorem Simulation.Quiet.step_net (code : ι → UserCode υ) {b : Act ι} {ν : Net ι} (h : σ.Quiet)
    (hs : σ.net.step args b = some ν) :
    σ.step args code (.net b) = some { σ with net := ν, running := σ.called args code b } := by
  have hfree : (b.thread.all fun c => (σ.running c).isNone) = true := by
    cases b.thread with
    | none => rfl
    | some c =>
      show (σ.running c).isNone = true
      rw [h c]
      rfl
  unfold Simulation.step
  simp only [hfree, hs, if_true]
  rfl

theorem exists_compute_of_reaches (args : ι → ClientArgs) {c : ι} {t : UInt64}
    {x y : Process υ × Code υ Unit} (h : StateTransition.Reaches (code c).machine.step x y)
    (hp : σ.procs c = x.1) (hr : σ.running c = some (t, x.2)) :
    ∃ more τ, (∀ a ∈ more, a = SimAct.compute c) ∧
      exec (Simulation.step args code) σ more = some τ ∧ τ.net = σ.net ∧
      τ.procs c = y.1 ∧ τ.running c = some (t, y.2) ∧
      ∀ c', c' ≠ c → τ.running c' = σ.running c' := by
  induction h with
  | refl => exact ⟨[], σ, by simp, rfl, rfl, hp, hr, fun _ _ => rfl⟩
  | @tail y z _ hyz ih =>
    obtain ⟨more, τ, hmore, hτ, hnet, hprocs, hrunning, hothers⟩ := ih
    rw [← Prod.eta y, ← hprocs] at hyz
    refine ⟨more ++ [.compute c], { τ with
      procs := Function.update τ.procs c z.1
      running := Function.update τ.running c (some (t, z.2)) },
      List.forall_mem_append.mpr ⟨hmore, List.forall_mem_singleton.mpr rfl⟩,
      exec_snoc_eq_some.mpr ⟨τ, hτ, Simulation.step_call hrunning hyz⟩, hnet,
      Function.update_self .., Function.update_self .., fun c' hc' => ?_⟩
    exact (Function.update_of_ne hc' ..).trans (hothers c' hc')

theorem exists_return (h : σ.Accounted args code procs)
    (hresp : ∀ c, (code c).Responsive (procs c)) (c : ι) :
    ∃ more τ, (∀ a ∈ more, a = SimAct.compute c) ∧
      exec (Simulation.step args code) σ more = some τ ∧ τ.net = σ.net ∧ τ.running c = none ∧
      ∀ c', c' ≠ c → τ.running c' = σ.running c' := by
  have hc := h c
  cases hr : σ.running c with
  | none => exact ⟨[], σ, by simp, rfl, rfl, hr, fun _ _ => rfl⟩
  | some x =>
    obtain ⟨t, q⟩ := x
    rw [hr] at hc
    cases hc with
    | busy _ _ _ hran hreach =>
      obtain ⟨p', hret⟩ := hresp c _ _ t hran
      obtain ⟨more, τ, hmore, hτ, hnet, -, hrunning, hothers⟩ :=
        exists_compute_of_reaches args (hret.resume hreach) rfl hr
      refine ⟨more ++ [.compute c], { τ with running := Function.update τ.running c none },
        List.forall_mem_append.mpr ⟨hmore, List.forall_mem_singleton.mpr rfl⟩,
        exec_snoc_eq_some.mpr ⟨τ, hτ, Simulation.step_ret hrunning⟩, hnet,
        Function.update_self .., fun c' hc' => ?_⟩
      exact (Function.update_of_ne hc' ..).trans (hothers c' hc')

theorem exists_quiet [Fintype ι] (h : σ.Accounted args code procs)
    (hresp : ∀ c, (code c).Responsive (procs c)) :
    ∃ more τ, (∀ a ∈ more, ∃ c, a = SimAct.compute c) ∧
      exec (Simulation.step args code) σ more = some τ ∧ τ.net = σ.net ∧ τ.Quiet := by
  have hsome : ∀ s : Finset ι, ∃ more τ, (∀ a ∈ more, ∃ c, a = SimAct.compute c) ∧
      exec (Simulation.step args code) σ more = some τ ∧ τ.net = σ.net ∧
      ∀ c ∈ s, τ.running c = none := by
    intro s
    induction s using Finset.induction_on with
    | empty => exact ⟨[], σ, by simp, rfl, rfl, by simp⟩
    | insert c s _ ih =>
      obtain ⟨more, τ, hmore, hτ, hnet, hs⟩ := ih
      obtain ⟨more', τ', hmore', hτ', hnet', hc, hothers⟩ := exists_return (h.exec hτ) hresp c
      refine ⟨more ++ more', τ', List.forall_mem_append.mpr ⟨hmore, fun a ha => ⟨c, hmore' a ha⟩⟩,
        exec_append_eq_some.mpr ⟨τ, hτ, hτ'⟩, hnet'.trans hnet, fun c' hc' => ?_⟩
      by_cases hcc : c' = c
      · rw [hcc, hc]
      · rw [hothers c' hcc]
        exact hs c' ((Finset.mem_insert.mp hc').resolve_left hcc)
  obtain ⟨more, τ, hmore, hτ, hnet, hall⟩ := hsome Finset.univ
  exact ⟨more, τ, hmore, hτ, hnet, fun c => hall c (Finset.mem_univ c)⟩

/-- **A run of the net can be computed along**: user code is let return after each step. -/
theorem exists_exec_net [Fintype ι] {more : List (Act ι)} {ν : Net ι}
    (h : σ.Accounted args code procs) (hresp : ∀ c, (code c).Responsive (procs c))
    (hquiet : σ.Quiet) (hP : Along (Net.step args) (fun ν a => a.Lossless ν) σ.net more)
    (he : exec (Net.step args) σ.net more = some ν) :
    ∃ acts τ, Along (Simulation.step args code) (fun σ a => a.Lossless σ) σ acts ∧
      exec (Simulation.step args code) σ acts = some τ ∧ τ.net = ν ∧ τ.Quiet := by
  induction more generalizing σ with
  | nil =>
    cases he
    exact ⟨[], σ, trivial, rfl, rfl, hquiet⟩
  | cons a more ih =>
    obtain ⟨ν₁, hν₁, he⟩ := exec_cons_eq_some.mp he
    have hstep := hquiet.step_net code hν₁
    have hbegun : exec (Simulation.step args code) σ [.net a] = _ :=
      exec_cons_eq_some.mpr ⟨_, hstep, rfl⟩
    obtain ⟨returns, σ₂, hreturns, hσ₂, hnet, hq⟩ := exists_quiet (h.exec hbegun) hresp
    have hrun : exec (Simulation.step args code) σ (.net a :: returns) = some σ₂ :=
      exec_cons_eq_some.mpr ⟨_, hstep, hσ₂⟩
    obtain ⟨acts, τ, hA, hτ, hν, hτq⟩ := ih (h.exec hrun) hq
      (by rw [hnet]; exact hP.2 ν₁ hν₁) (by rw [hnet]; exact he)
    refine ⟨.net a :: returns ++ acts, τ, ?_, exec_append_eq_some.mpr ⟨σ₂, hrun, hτ⟩, hν, hτq⟩
    refine Along.append ⟨hP.1, fun _ _ => along_of_forall fun b hb _ => ?_⟩ hrun hA
    obtain ⟨c, rfl⟩ := hreturns b hb
    trivial

/-! ## At rest -/

theorem Simulation.AtRest.quiet (hrest : σ.AtRest args code) (h : σ.Accounted args code procs)
    (hresp : ∀ c, (code c).Responsive (procs c)) : σ.Quiet := by
  intro c
  obtain ⟨more, τ, hmore, hτ, -, hc, -⟩ := exists_return h hresp c
  cases more with
  | nil =>
    cases hτ
    exact hc
  | cons a more =>
    obtain rfl := hmore a List.mem_cons_self
    obtain ⟨σ', hσ', -⟩ := exec_cons_eq_some.mp hτ
    cases hrest (.compute c) σ' trivial trivial hσ'

theorem Simulation.Quiet.atRest_iff (hquiet : σ.Quiet) :
    σ.AtRest args code ↔ σ.net.AtRest args := by
  constructor
  · intro h b ν hb ho hν
    exact h (.net b) _ hb ho (hquiet.step_net code hν)
  · intro h a σ' ha ho hσ'
    cases a with
    | net b =>
      rcases (SimStep.of_step hσ').step_net with ⟨hact, -⟩ | ⟨b', hb', hnet⟩
      · cases hact
      · cases hb'
        exact h b _ ha ho hnet
    | compute c =>
      unfold Simulation.step at hσ'
      simp only [hquiet c] at hσ'
      cases hσ'

variable [Fintype ι]

/-- The simulation can be brought to rest without a broadcast. -/
theorem exists_rest (hroll : Rolling args σ.net) (hlen : ∀ c, (args c).id.length ≤ 57)
    (hdistinct : ∀ c c', (args c).id = (args c').id → c = c') (h : σ.Accounted args code procs)
    (hresp : ∀ c, (code c).Responsive (procs c)) :
    ∃ more τ, Along (Simulation.step args code) (fun σ a => a.Lossless σ) σ more ∧
      exec (Simulation.step args code) σ more = some τ ∧ Rolling args τ.net ∧
      τ.net.broadcasts.length = σ.net.broadcasts.length ∧ τ.AtRest args code := by
  obtain ⟨returns, σ₁, hreturns, hσ₁, hnet₁, hquiet₁⟩ := exists_quiet h hresp
  have hroll₁ : Rolling args σ₁.net := hnet₁ ▸ hroll
  obtain ⟨more, ν, hA, hν, hrest⟩ := hroll₁.rest_reachable hlen hdistinct
  have hkept : Rolling args ν ∧ ν.broadcasts.length = σ₁.net.broadcasts.length := by
    refine exec_invariant
      (I := fun ν => Rolling args ν ∧ ν.broadcasts.length = σ₁.net.broadcasts.length)
      (fun ν a ν' hI ha hs => ⟨hI.1.step hlen hdistinct ha.1 (.of_step hs), ?_⟩) ⟨hroll₁, rfl⟩ hA hν
    rw [(NetStep.of_step hs).broadcasts_length, ha.2]
    exact hI.2
  obtain ⟨acts, τ, hA', hτ, rfl, hquiet⟩ :=
    exists_exec_net (h.exec hσ₁) hresp hquiet₁ (hA.mono fun _ _ h => h.1) hν
  refine ⟨returns ++ acts, τ, Along.append (along_of_forall fun a ha _ => ?_) hσ₁ hA',
    exec_append_eq_some.mpr ⟨σ₁, hσ₁, hτ⟩, hkept.1, ?_, hquiet.atRest_iff.mpr hrest⟩
  · obtain ⟨c, rfl⟩ := hreturns a ha
    trivial
  · rw [hkept.2, hnet₁]

theorem exists_round_end (hroll : Rolling args σ.net) (hlen : ∀ c, (args c).id.length ≤ 57)
    (hdistinct : ∀ c c', (args c).id = (args c').id → c = c') (h : σ.Accounted args code procs)
    (hresp : ∀ c, (code c).Responsive (procs c)) {n : Nat} (hn : σ.net.broadcasts.length ≤ n) :
    ∃ more τ, Along (Simulation.step args code) (fun σ a => a.Lossless σ) σ more ∧
      exec (Simulation.step args code) σ more = some τ ∧ Rolling args τ.net ∧
      τ.net.broadcasts.length = n ∧ τ.AtRest args code := by
  induction n, hn using Nat.le_induction with
  | base => exact exists_rest hroll hlen hdistinct h hresp
  | succ n _ ih =>
    obtain ⟨more, τ, hA, hτ, hrollτ, hcount, hrest⟩ := ih
    have hquiet := hrest.quiet (h.exec hτ) hresp
    -- what is left to do at rest is to broadcast
    obtain ⟨b, ν, hb, hν, hon⟩ := hrollτ.live.progress hlen hdistinct
    have hbroadcast : b.isBroadcast = true :=
      hquiet.atRest_iff.mp hrest b ν hb (subscribesOnce_of_work_lt (.of_step hν) hon) hν
    have hstep : exec (Simulation.step args code) τ [.net b] =
        some { τ with net := ν, running := τ.called args code b } :=
      exec_cons_eq_some.mpr ⟨_, hquiet.step_net code hν, rfl⟩
    have hallowed : Along (Simulation.step args code) (fun σ a => a.Lossless σ) τ [.net b] :=
      ⟨hb, fun _ _ => trivial⟩
    have hrun := exec_append_eq_some.mpr ⟨τ, hτ, hstep⟩
    obtain ⟨more', τ', hA', hτ', hroll', hcount', hrest'⟩ := exists_rest
      (σ := { τ with net := ν, running := τ.called args code b })
      (hrollτ.step hlen hdistinct hb (.of_step hν)) hlen hdistinct (h.exec hrun) hresp
    refine ⟨(more ++ [.net b]) ++ more', τ', ?_, exec_append_eq_some.mpr ⟨_, hrun, hτ'⟩, hroll', ?_,
      hrest'⟩
    · exact (hA.append hτ hallowed).append hrun hA'
    · rw [hcount', (NetStep.of_step hν).broadcasts_length, hbroadcast, hcount]
      rfl

/-- **The outcome of a simulation.** A server for as many clients as there are, with distinct ids of
at most 57 bytes; nothing is lost, nobody gives up, and every `on_tick` returns. Then it can be run
for any number of rounds; and at the end of a round, whatever the schedule has been, each client's
process is that which its `on_tick` alone makes of it, called with the times of the rounds. -/
theorem simulation_outcome (hlen : ∀ c, (args c).id.length ≤ 57)
    (hdistinct : ∀ c c', (args c).id = (args c').id → c = c') {iv : UInt64} {s : Server}
    (hs : ServerReady (Fintype.card ι) iv s) (hresp : ∀ c, (code c).Responsive (procs c))
    (hP : Along (Simulation.step args code) (fun σ a => a.Lossless σ) (.init s procs) acts)
    (he : exec (Simulation.step args code) (.init s procs) acts = some σ) :
    (∀ n, σ.net.broadcasts.length ≤ n → ∃ more τ,
      Along (Simulation.step args code) (fun σ a => a.Lossless σ) σ more ∧
      exec (Simulation.step args code) σ more = some τ ∧ τ.net.broadcasts.length = n ∧
      τ.AtRest args code) ∧
    (σ.AtRest args code → ∀ c, σ.running c = none ∧ ∀ p, σ.procs c = p ↔
      (code c).Ran (procs c)
        ((args c).times s.currentTimeNs iv σ.net.broadcasts.length) p) := by
  have hbooked : σ.Accounted args code procs := fun c => booked_exec he c
  have hPnet : Along (Net.step args) (fun ν a => a.Lossless ν) (Net.init ι s) _ := along_net hP he
  have hnet : exec (Net.step args) (Net.init ι s) _ = some σ.net := exec_net he
  refine ⟨fun n hn => ?_, fun hrest c => ?_⟩
  · obtain ⟨more, τ, hA, hτ, -, hcount, hrest⟩ :=
      exists_round_end (rolling_exec hlen hdistinct hs hPnet hnet) hlen hdistinct hbooked hresp hn
    exact ⟨more, τ, hA, hτ, hcount, hrest⟩
  · have hquiet := hrest.quiet hbooked hresp
    obtain ⟨htimes, hends, -⟩ :=
      ended_of_rest hlen hdistinct hs hPnet hnet (hquiet.atRest_iff.mp hrest)
    have hticks : (σ.net.ends c).run.ticks =
        (args c).times s.currentTimeNs iv σ.net.broadcasts.length := by
      rw [hends c]
      show (if (args c).onTick then σ.net.broadcasts else []) = _
      unfold ClientArgs.times
      rw [← htimes]
    have hran := hbooked c
    rw [hquiet c] at hran
    cases hran with
    | idle hran =>
      rw [hticks] at hran
      refine ⟨hquiet c, fun p => ⟨?_, hran.unique⟩⟩
      rintro rfl
      exact hran

/-- One client counts the ticks and toggles a pin, the other has no `on_tick`; they are stopped in
the middle of the first round, and run on to the end of the third. -/
theorem simulation_outcome_three_rounds :
    let args := ![ClientArgs.named [97] (by decide) (by decide),
      { ClientArgs.named [98] (by decide) (by decide) with onTick := false }]
    let code : Fin 2 → UserCode Nat := fun _ =>
      ⟨fun _ => .call (.own (· + 1)) fun _ => .call (.driver (.gpio 0 0 .toggle)) fun _ => .ret (),
        fun _ => .ret (0, [])⟩
    let procs : Fin 2 → Process Nat := fun _ => ⟨.zero, 0⟩
    let begun : List (Act (Fin 2)) := join 0 ++ .client 0 .subscribe :: join 1 ++
      [.client 1 .subscribe, .broadcast fun _ => true, .client 0 .tick]
    ∃ more τ, exec (Simulation.step args code) (.init (.fresh 2 10) procs)
        (begun.map .net ++ .compute 0 :: more) = some τ ∧
      τ.AtRest args code ∧ ∀ c p, τ.procs c = p ↔
        (code c).Ran (procs c) ((args c).times 0 10 3) p := by
  intro args code procs begun
  have hresp : ∀ c, (code c).Responsive (procs c) := fun c =>
    UserCode.Plain.responsive (fun _ => ⟨_, rfl⟩) (fun t => ⟨id, fun _ => ⟨id, fun _ => trivial⟩⟩)
      ⟨[], rfl⟩
  have hready : ServerReady (Fintype.card (Fin 2)) 10 (.fresh 2 10) :=
    serverReady_fresh (by decide) (by decide) (by decide)
  obtain ⟨σ, h, hcount⟩ : ∃ σ, exec (Simulation.step args code) (.init (.fresh 2 10) procs)
      (begun.map .net ++ [.compute 0]) = some σ ∧ σ.net.broadcasts.length ≤ 3 :=
    exists_exec_of_any (by decide)
  have hP : Along (Simulation.step args code) (fun σ a => a.Lossless σ)
      (.init (.fresh 2 10) procs) (begun.map .net ++ [.compute 0]) := by decide
  obtain ⟨more, τ, hA, hτ, hthree, hrest⟩ :=
    (simulation_outcome (by decide) (by decide) hready hresp hP h).1 3 hcount
  have hrun := exec_append_eq_some.mpr ⟨σ, h, hτ⟩
  have hend := (simulation_outcome (by decide) (by decide) hready hresp
    (hP.append h hA) hrun).2 hrest
  refine ⟨more, τ, by simpa using hrun, hrest, fun c => ?_⟩
  rw [← hthree]
  exact (hend c).2

end Simulith
