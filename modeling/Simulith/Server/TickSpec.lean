import Simulith.Barrier.Basic
import Simulith.Server.Run

/-!
# The tick phase as a barrier

`TickSpec` is the tick phase as its purpose states it: a cyclic barrier whose
members are the registered ids, a clock, and the rule that the next broadcast
is due once every member has arrived. `TickSpec.history_exec` is what its state
has to do with the calls made: the arrivals are the messages received since the
last broadcast, and the times broadcast are spaced by the interval.
-/

namespace Simulith

open CStr

inductive TickPc where
  | due
  | waiting
  | answering
  deriving DecidableEq, Repr

/-- The abstract tick phase. -/
structure TickSpec where
  barrier : Barrier (List UInt8)
  timeNs : UInt64
  intervalNs : UInt64
  pc : TickPc

/-- The messages received since the last broadcast, one call later. -/
def arrived (ms : List Msg) : ServerCall → List Msg
  | .publish _ => []
  | .recv m => ms ++ [m]
  | _ => ms

/-- The messages received since the last broadcast. -/
def arrivals (cs : List ServerCall) : List Msg := cs.foldl arrived []

theorem arrivals_snoc (cs : List ServerCall) (c : ServerCall) :
    arrivals (cs ++ [c]) = arrived (arrivals cs) c := by
  simp only [arrivals, List.foldl_append, List.foldl_cons, List.foldl_nil]

theorem publishes_snoc (cs : List ServerCall) (c : ServerCall) :
    publishes (cs ++ [c]) = publishes cs ++ c.time.toList := by
  rw [publishes, List.filterMap_append]
  cases c <;> rfl

section Spaced

variable {t₀ t iv : UInt64} {ts : List UInt64} {k : Nat}

theorem add_interval : t₀ + UInt64.ofNat k * iv + iv = t₀ + UInt64.ofNat (k + 1) * iv := by
  rw [UInt64.ofNat_add, UInt64.add_mul, show UInt64.ofNat 1 = 1 from rfl, UInt64.one_mul,
    ← UInt64.add_assoc]

theorem times_snoc (h : ∀ j t, ts[j]? = some t → t = t₀ + UInt64.ofNat j * iv)
    (ht : t = t₀ + UInt64.ofNat ts.length * iv) :
    ∀ j u, (ts ++ [t])[j]? = some u → u = t₀ + UInt64.ofNat j * iv := by
  intro j u hu
  rw [List.getElem?_append] at hu
  split at hu
  · exact h j u hu
  · next hle =>
    obtain ⟨hlt, rfl⟩ := List.getElem?_eq_some_iff.mp hu
    rw [List.length_singleton] at hlt
    rw [List.getElem_singleton, show j = ts.length by omega]
    exact ht

end Spaced

namespace TickSpec

/-- A broadcast starts a round, every message is an arrival under the string it
starts with and is answered ACK, and the round ends when all members are in. -/
def step (a : TickSpec) : ServerCall → Option TickSpec
  | .publish t =>
    if a.pc = .due ∧ t = a.timeNs then some { a with barrier := a.barrier.reset, pc := .waiting }
    else none
  | .recv m =>
    if a.pc = .waiting then
      some { a with barrier := a.barrier.arrive (str m), pc := .answering }
    else none
  | .recvFail => if a.pc = .waiting then some a else none
  | .send m =>
    if a.pc = .answering ∧ m = Reply.ack.bytes then
      if a.barrier.Complete then
        some { a with timeNs := a.timeNs + a.intervalNs, pc := .due }
      else some { a with pc := .waiting }
    else none

/-- The members are known and the first broadcast is due. -/
def start (members : List (List UInt8)) (timeNs intervalNs : UInt64) : TickSpec :=
  ⟨⟨members, []⟩, timeNs, intervalNs, .due⟩

/-- The time of the next broadcast. -/
def nextTime (a : TickSpec) : UInt64 :=
  if a.pc = .due then a.timeNs else a.timeNs + a.intervalNs

/-- The state after the calls `cs`. -/
structure History (members : List (List UInt8)) (timeNs intervalNs : UInt64)
    (cs : List ServerCall) (a : TickSpec) : Prop where
  members : a.barrier.members = members
  interval : a.intervalNs = intervalNs
  since : a.barrier.since = (arrivals cs).map str
  times : ∀ i t, (publishes cs)[i]? = some t → t = timeNs + UInt64.ofNat i * intervalNs
  next : a.nextTime = timeNs + UInt64.ofNat (publishes cs).length * intervalNs
  due : a.pc = .due → publishes cs = [] ∨ a.barrier.Complete
  waiting : a.pc = .waiting → ¬ a.barrier.Complete

variable {members : List (List UInt8)} {timeNs intervalNs : UInt64} {cs : List ServerCall}
  {c : ServerCall} {a a' : TickSpec}

theorem history_start : History members timeNs intervalNs [] (start members timeNs intervalNs) where
  members := rfl
  interval := rfl
  since := rfl
  times _ _ h := nomatch h
  next := by simp [nextTime, start, publishes]
  due _ := .inl rfl
  waiting := nofun

theorem History.publish (hne : members ≠ []) (h : History members timeNs intervalNs cs a)
    (hp : a.pc = .due) : History members timeNs intervalNs (cs ++ [.publish a.timeNs])
      { a with barrier := a.barrier.reset, pc := .waiting } := by
  have ht : a.timeNs = timeNs + UInt64.ofNat (publishes cs).length * intervalNs := by
    rw [← h.next, nextTime, if_pos hp]
  have hpub : publishes (cs ++ [.publish a.timeNs]) = publishes cs ++ [a.timeNs] :=
    publishes_snoc _ _
  refine
    { members := h.members, interval := h.interval
      since := by rw [arrivals_snoc]; rfl
      times := ?_, next := ?_, due := nofun
      waiting := fun _ => Barrier.not_complete_reset (h.members ▸ hne) }
  · rw [hpub]
    exact times_snoc h.times ht
  · rw [hpub, List.length_append, List.length_singleton, ← add_interval, ← ht, ← h.interval]
    rfl

theorem History.quiet (h : History members timeNs intervalNs cs a) (hc : c.time = none)
    (hb : a'.barrier.members = a.barrier.members ∧ a'.intervalNs = a.intervalNs)
    (hsince : a'.barrier.since = (arrived (arrivals cs) c).map str)
    (hnext : a'.nextTime = a.nextTime)
    (hdue : a'.pc = .due → publishes cs = [] ∨ a'.barrier.Complete)
    (hwaiting : a'.pc = .waiting → ¬ a'.barrier.Complete) :
    History members timeNs intervalNs (cs ++ [c]) a' := by
  have hpub : publishes (cs ++ [c]) = publishes cs := by
    rw [publishes_snoc, hc, Option.toList_none, List.append_nil]
  exact
    { members := hb.1.trans h.members, interval := hb.2.trans h.interval
      since := by rw [arrivals_snoc]; exact hsince
      times := by rw [hpub]; exact h.times
      next := by rw [hpub, hnext]; exact h.next
      due := by rw [hpub]; exact hdue
      waiting := hwaiting }

theorem History.step (hne : members ≠ []) (h : History members timeNs intervalNs cs a)
    (hs : a.step c = some a') : History members timeNs intervalNs (cs ++ [c]) a' := by
  unfold TickSpec.step at hs
  split at hs
  · split at hs
    · next t hp =>
      cases hs
      rw [hp.2]
      exact h.publish hne hp.1
    · cases hs
  · split at hs
    · next m hp =>
      cases hs
      refine h.quiet rfl ⟨rfl, rfl⟩ ?_ (by simp [nextTime, hp]) nofun nofun
      rw [arrived, List.map_append, ← h.since]
      rfl
    · cases hs
  · split at hs
    · cases hs
      exact h.quiet rfl ⟨rfl, rfl⟩ h.since rfl h.due h.waiting
    · cases hs
  · split at hs
    · next m hp =>
      -- the reply: the round goes on, or ends with all members in
      split at hs
      · next hc =>
        cases hs
        exact h.quiet rfl ⟨rfl, rfl⟩ h.since (by simp [nextTime, hp.1]) (fun _ => .inr hc) nofun
      · next hc =>
        cases hs
        exact h.quiet rfl ⟨rfl, rfl⟩ h.since (by simp [nextTime, hp.1]) nofun fun _ => hc
    · cases hs

theorem history_exec (hne : members ≠ [])
    (h : Lts.exec step (start members timeNs intervalNs) cs = some a) :
    History members timeNs intervalNs cs a :=
  Lts.exec_trace (H := History members timeNs intervalNs) history_start
    (fun _ _ _ _ ih hs => ih.step hne hs) h

/-- Between two messages: the next broadcast is due exactly when every member has
arrived since the last one. -/
theorem History.due_iff (h : History members timeNs intervalNs cs a) (hp : a.pc ≠ .answering)
    (hpub : publishes cs ≠ []) :
    a.pc = .due ↔ ∀ x ∈ members, ∃ m ∈ arrivals cs, str m = x := by
  have hcomplete : a.barrier.Complete ↔ ∀ x ∈ members, ∃ m ∈ arrivals cs, str m = x := by
    unfold Barrier.Complete
    simp only [h.members, h.since, List.mem_map]
  rw [← hcomplete]
  cases hpc : a.pc with
  | due => exact iff_of_true rfl ((h.due hpc).resolve_left hpub)
  | waiting => exact iff_of_false nofun (h.waiting hpc)
  | answering => exact absurd hpc hp

end TickSpec

end Simulith
