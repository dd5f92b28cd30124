import Simulith.Lts.Refine
import Simulith.Net.Admission
import Simulith.Net.Monotone
import Simulith.Process.Basic

/-!
# The simulation

The net with what the clients compute: while a client's thread is in `on_tick`
it runs user code, one driver call at a time and any number of them between two
steps of the others, and it makes no call of its own on the sockets. What a run
shows of the net is a run of the net (`exec_net`). `Booked` says what a
client's process has come to: that of a program which has been called with
each of its ticks in turn.
-/

namespace Simulith

open Lts

/-- The client whose thread acts. -/
def Act.thread {ι : Type*} : Act ι → Option ι
  | .client _ .subscribe => none
  | .client c _ => some c
  | _ => none

structure Simulation (ι : Type*) (υ : Type) where
  net : Net ι
  procs : ι → Process υ
  /-- `on_tick` while it runs: the time it was called with, and what is left of it -/
  running : ι → Option (UInt64 × Code υ Unit)

inductive SimAct (ι : Type*) where
  | net (a : Act ι)
  /-- the next call of `on_tick`, or its return -/
  | compute (c : ι)

/-- What an act is in the net. -/
def SimAct.act {ι : Type*} : SimAct ι → Option (Act ι)
  | .net a => some a
  | .compute _ => none

namespace Simulation

variable {ι : Type*} {υ : Type}

/-- The server called in state `s`, no client begun. -/
def init (s : Server) (procs : ι → Process υ) : Simulation ι υ := ⟨.init ι s, procs, fun _ => none⟩

variable [DecidableEq ι]

/-- A tick calls `on_tick`, unless that is NULL. -/
def called (args : ι → ClientArgs) (code : ι → UserCode υ) (σ : Simulation ι υ) :
    Act ι → ι → Option (UInt64 × Code υ Unit)
  | .client c .tick =>
    match (σ.net.ends c).feed with
    | t :: _ =>
      if (args c).onTick then Function.update σ.running c (some (t, (code c).onTick t))
      else σ.running
    | [] => σ.running
  | _ => σ.running

def step (args : ι → ClientArgs) (code : ι → UserCode υ) (σ : Simulation ι υ) :
    SimAct ι → Option (Simulation ι υ)
  | .net a =>
    if a.thread.all fun c => (σ.running c).isNone then
      (σ.net.step args a).map fun τ => { σ with net := τ, running := σ.called args code a }
    else none
  | .compute c =>
    match σ.running c with
    | none => none
    | some (_, .ret ()) => some { σ with running := Function.update σ.running c none }
    | some (t, q) =>
      ((code c).machine.step (σ.procs c, q)).map fun u =>
        { σ with
          procs := Function.update σ.procs c u.1
          running := Function.update σ.running c (some (t, u.2)) }

end Simulation

variable {ι : Type*} [DecidableEq ι] {υ : Type} {args : ι → ClientArgs} {code : ι → UserCode υ}
  {σ σ' : Simulation ι υ} {a : SimAct ι}

/-- The steps of `Simulation.step`, one constructor for each. -/
inductive SimStep (args : ι → ClientArgs) (code : ι → UserCode υ) (σ : Simulation ι υ) :
    SimAct ι → Simulation ι υ → Prop where
  | net (a : Act ι) (τ : Net ι) : (∀ c, a.thread = some c → σ.running c = none) →
      σ.net.step args a = some τ → (∀ c, a = .client c .tick → (args c).onTick = false) →
      SimStep args code σ (.net a) { σ with net := τ }
  | tick (c : ι) (t : UInt64) (τ : Net ι) : σ.running c = none → (args c).onTick = true →
      (σ.net.ends c).feed.head? = some t → σ.net.step args (.client c .tick) = some τ →
      SimStep args code σ (.net (.client c .tick)) { σ with
        net := τ
        running := Function.update σ.running c (some (t, (code c).onTick t)) }
  | call (c : ι) (t : UInt64) (q : Code υ Unit) (u : Process υ × Code υ Unit) :
      σ.running c = some (t, q) → (code c).machine.step (σ.procs c, q) = some u →
      SimStep args code σ (.compute c) { σ with
        procs := Function.update σ.procs c u.1
        running := Function.update σ.running c (some (t, u.2)) }
  | ret (c : ι) (t : UInt64) : σ.running c = some (t, .ret ()) →
      SimStep args code σ (.compute c) { σ with running := Function.update σ.running c none }

theorem SimStep.of_step (h : σ.step args code a = some σ') : SimStep args code σ a σ' := by
  cases a with
  | net a =>
    simp only [Simulation.step] at h
    split at h
    · next hfree =>
      obtain ⟨τ, hτ, rfl⟩ := Option.map_eq_some_iff.mp h
      have hthread : ∀ c, a.thread = some c → σ.running c = none := by
        intro c hc
        rw [hc] at hfree
        exact Option.isNone_iff_eq_none.mp hfree
      by_cases htick : ∃ c, a = .client c .tick ∧ (args c).onTick = true
      · obtain ⟨c, rfl, hon⟩ := htick
        have hfeed : ∃ t feed, (σ.net.ends c).feed = t :: feed := by
          cases hf : (σ.net.ends c).feed with
          | cons t feed => exact ⟨t, feed, rfl⟩
          | nil => simp [Net.step, ClientEnd.step, hf] at hτ
        obtain ⟨t, feed, hf⟩ := hfeed
        simp only [Simulation.called, hf, hon, if_true]
        exact .tick c t τ (hthread c rfl) hon (by rw [hf]; rfl) hτ
      · have hcalled : σ.called args code a = σ.running := by
          unfold Simulation.called
          split
          · next c =>
            split
            · exact if_neg fun hon => htick ⟨c, rfl, hon⟩
            · rfl
          · rfl
        rw [hcalled]
        exact .net a τ hthread hτ fun c hc => by simpa using fun hon => htick ⟨c, hc, hon⟩
    · cases h
  | compute c =>
    simp only [Simulation.step] at h
    split at h
    · cases h
    · next t hr =>
      cases h
      exact .ret c t hr
    · next t q _ hr =>
      obtain ⟨u, hu, rfl⟩ := Option.map_eq_some_iff.mp h
      exact .call c t q u hr hu

theorem SimStep.step_net (h : SimStep args code σ a σ') :
    (a.act = none ∧ σ'.net = σ.net) ∨
      ∃ b, a.act = some b ∧ σ.net.step args b = some σ'.net := by
  cases h with
  | net a τ _ hτ _ => exact .inr ⟨a, rfl, hτ⟩
  | tick c t τ _ _ _ hτ => exact .inr ⟨_, rfl, hτ⟩
  | call => exact .inl ⟨rfl, rfl⟩
  | ret => exact .inl ⟨rfl, rfl⟩

theorem net_simulates {ν : Net ι} (h : σ.net = ν) (hs : σ.step args code a = some σ') :
    (a.act = none ∧ σ'.net = ν) ∨
      ∃ b ν', a.act = some b ∧ ν.step args b = some ν' ∧ σ'.net = ν' := by
  subst h
  rcases (SimStep.of_step hs).step_net with ⟨ha, hnet⟩ | ⟨b, hb, hnet⟩
  · exact .inl ⟨ha, hnet⟩
  · exact .inr ⟨b, _, hb, hnet, rfl⟩

/-- **What a run shows of the net is a run of the net.** -/
theorem exec_net {acts : List (SimAct ι)} (he : exec (Simulation.step args code) σ acts = some σ') :
    exec (Net.step args) σ.net (acts.filterMap SimAct.act) = some σ'.net := by
  obtain ⟨ν, hν, rfl⟩ := exec_simulates (R := fun (σ : Simulation ι υ) ν => σ.net = ν)
    (P := fun _ _ => True) (fun _ _ _ _ h _ hs => net_simulates h hs) rfl
    (along_of_forall fun _ _ _ => trivial) he
  rwa [trace_label he] at hν

/-! ## What a process has come to -/

namespace UserCode

variable {code : UserCode υ} {p q q' : Process υ} {ts : List UInt64}

/-- `on_tick`, called with each of these times in turn, takes `p` to `q`. -/
inductive Ran (code : UserCode υ) (p : Process υ) : List UInt64 → Process υ → Prop where
  | nil : Ran code p [] p
  | snoc {ts : List UInt64} {t : UInt64} {q q' : Process υ} : Ran code p ts q →
      code.machine.Returns q (code.onTick t) q' () → Ran code p (ts ++ [t]) q'

theorem ran_nil (h : code.Ran p [] q) : q = p := by
  generalize hts : ([] : List UInt64) = ts at h
  cases h with
  | nil => rfl
  | snoc => simp at hts

theorem ran_snoc {t : UInt64} (h : code.Ran p (ts ++ [t]) q') :
    ∃ q, code.Ran p ts q ∧ code.machine.Returns q (code.onTick t) q' () := by
  generalize hts : ts ++ [t] = us at h
  cases h with
  | nil => simp at hts
  | snoc hq hret =>
    obtain ⟨rfl, ht⟩ := List.append_inj' hts rfl
    cases ht
    exact ⟨_, hq, hret⟩

theorem Ran.unique (h : code.Ran p ts q) (h' : code.Ran p ts q') : q = q' := by
  induction h generalizing q' with
  | nil => exact (ran_nil h').symm
  | snoc _ hret ih =>
    obtain ⟨r, hr, hret'⟩ := ran_snoc h'
    cases ih hr
    exact (hret.unique hret').1

end UserCode

/-- The process of a client is that of a program called with each of its ticks in turn; while
`on_tick` runs it has been called with the last, and the acknowledgement is still to come. -/
inductive Booked (args : ClientArgs) (code : UserCode υ) (p₀ : Process υ) (run : ClientRun)
    (p : Process υ) : Option (UInt64 × Code υ Unit) → Prop where
  | idle : code.Ran p₀ run.ticks p → Booked args code p₀ run p none
  | busy {t : UInt64} {q : Code υ Unit} {past : List UInt64} {p₁ : Process υ} :
      args.onTick = true → run.pc = .ack → run.ticks = past ++ [t] → code.Ran p₀ past p₁ →
      StateTransition.Reaches code.machine.step (p₁, code.onTick t) (p, q) →
      Booked args code p₀ run p (some (t, q))

/-- An act of the net, seen from client `c`: the thread of `c` runs as it did, or it takes a step
of its own, which gives `on_tick` nothing. -/
theorem net_run_cases {ν ν' : Net ι} {a : Act ι} (hs : ν.step args a = some ν')
    (htick : ∀ c, a = .client c .tick → (args c).onTick = false) (c : ι) :
    (ν'.ends c).run = (ν.ends c).run ∨
      (a.thread = some c ∧ (ν'.ends c).run.ticks = (ν.ends c).run.ticks) := by
  by_cases ha : ∃ b, a = .client c b
  · obtain ⟨b, rfl⟩ := ha
    obtain ⟨e, he, rfl⟩ := Option.map_eq_some_iff.mp hs
    simp only [Net.setEnd, Function.update_self]
    by_cases hsub : b = .subscribe
    · subst hsub
      cases EndStep.of_step he with
      | subscribe => exact .inl rfl
    · refine .inr ⟨?_, ClientEnd.ticks_eq (fun hb => htick c (by rw [hb])) he⟩
      cases b with
      | subscribe => exact absurd rfl hsub
      | _ => rfl
  · exact .inl ((NetStep.of_step hs).run_eq fun b hb => ha ⟨b, hb⟩)

theorem Booked.idle_congr {args : ClientArgs} {code : UserCode υ} {p₀ p : Process υ}
    {run run' : ClientRun} (h : Booked args code p₀ run p none) (ht : run'.ticks = run.ticks) :
    Booked args code p₀ run' p none := by
  cases h with
  | idle hran => exact .idle (ht ▸ hran)

theorem Booked.tick {args : ClientArgs} {code : UserCode υ} {p₀ p : Process υ} {e e' : ClientEnd}
    {t : UInt64} (h : Booked args code p₀ e.run p none) (hon : args.onTick = true)
    (hfeed : e.feed.head? = some t) (hs : e.step args .tick = some e') :
    Booked args code p₀ e'.run p (some (t, code.onTick t)) := by
  cases h with
  | idle hran =>
    cases EndStep.of_step hs with
    | tick u feed _ hf =>
      rw [hf] at hfeed
      cases hfeed
      exact .busy hon rfl (if_pos hon) hran .refl

theorem Booked.call {args : ClientArgs} {code : UserCode υ} {p₀ p : Process υ} {run : ClientRun}
    {t : UInt64} {q : Code υ Unit} {u : Process υ × Code υ Unit}
    (h : Booked args code p₀ run p (some (t, q))) (hs : code.machine.step (p, q) = some u) :
    Booked args code p₀ run u.1 (some (t, u.2)) := by
  cases h with
  | busy hon hpc hticks hran hreach => exact .busy hon hpc hticks hran (hreach.tail hs)

theorem Booked.ret {args : ClientArgs} {code : UserCode υ} {p₀ p : Process υ} {run : ClientRun}
    {t : UInt64} (h : Booked args code p₀ run p (some (t, .ret ()))) :
    Booked args code p₀ run p none := by
  cases h with
  | busy _ _ hticks hran hreach => exact .idle (hticks ▸ hran.snoc hreach)

/-- The step lemma: what one step makes of every client's process. -/
theorem booked_step {procs : ι → Process υ}
    (h : ∀ c, Booked (args c) (code c) (procs c) (σ.net.ends c).run (σ.procs c) (σ.running c))
    (hs : SimStep args code σ a σ') (c : ι) :
    Booked (args c) (code c) (procs c) (σ'.net.ends c).run (σ'.procs c) (σ'.running c) := by
  have hc := h c
  cases hs with
  | net a τ hthread hτ htick =>
    rcases net_run_cases hτ htick c with hrun | ⟨hown, hticks⟩
    · rwa [hrun]
    · simp only [hthread c hown] at hc ⊢
      exact hc.idle_congr hticks
  | tick c₀ t τ hidle hon hfeed hτ =>
    by_cases hcc : c = c₀
    · subst hcc
      obtain ⟨e, he, rfl⟩ := Option.map_eq_some_iff.mp hτ
      simp only [Net.setEnd, Function.update_self]
      rw [hidle] at hc
      exact hc.tick hon hfeed he
    · have hrun : (τ.ends c).run = (σ.net.ends c).run :=
        (NetStep.of_step hτ).run_eq fun b hb => hcc (by cases hb; rfl)
      simp only [Function.update_of_ne hcc, hrun]
      exact hc
  | call c₀ t q u hrunning hu =>
    by_cases hcc : c = c₀
    · subst hcc
      simp only [Function.update_self]
      rw [hrunning] at hc
      exact hc.call hu
    · simp only [Function.update_of_ne hcc]
      exact hc
  | ret c₀ t hrunning =>
    by_cases hcc : c = c₀
    · subst hcc
      simp only [Function.update_self]
      rw [hrunning] at hc
      exact hc.ret
    · simp only [Function.update_of_ne hcc]
      exact hc

theorem booked_exec {s : Server} {procs : ι → Process υ} {acts : List (SimAct ι)}
    (he : exec (Simulation.step args code) (.init s procs) acts = some σ) (c : ι) :
    Booked (args c) (code c) (procs c) (σ.net.ends c).run (σ.procs c) (σ.running c) :=
  exec_preserves (I := fun σ : Simulation ι υ => ∀ c,
    Booked (args c) (code c) (procs c) (σ.net.ends c).run (σ.procs c) (σ.running c))
    (fun _ _ _ h hs => booked_step h (.of_step hs)) (fun _ => .idle .nil) he c

end Simulith
