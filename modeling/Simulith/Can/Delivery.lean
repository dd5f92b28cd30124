import Simulith.Can.Send
import Simulith.Lts.Record

/-!
# The receive callback of a CAN bus

A bus is opened with a callback that is to see every message a send accepts
for it. `CanDelivery` records beside each bus the callback's invocations and
the deliveries due since it was opened. No call invokes the callback
(`body_silent`), so the two agree along a run exactly when the run never makes
a delivery due (`can_delivery_iff`).
-/

namespace Simulith

open Lts

/-- What has come to the callback of a bus since the bus was opened, and what was to come. -/
structure CanDelivery where
  made : List Invocation
  due : List Invocation
  deriving DecidableEq

namespace CanDelivery

def empty : CanDelivery := ⟨[], []⟩

/-- A send that returned 0, of a message that an active filter matches or while none is active, is
to be delivered. -/
def record (bus : CanBus) (busId : UInt8) (r : Result) (d : CanDelivery) : CanCall → CanDelivery
  | .init _ _ => if r.ret = 0 then empty else { d with made := d.made ++ r.invoked }
  | .send (some m) => {
      made := d.made ++ r.invoked
      due := if r.ret = 0 ∧ (bus.Matched m ∨ ¬ bus.AnyActive) then d.due ++ [.canRx busId m]
        else d.due }
  | _ => { d with made := d.made ++ r.invoked }

end CanDelivery

/-- The buses, and what was delivered on each. -/
abbrev CanTrace := CanBuses × (Fin maxCanBuses → CanDelivery)

namespace CanTrace

def zero : CanTrace := (.zero, fun _ => .empty)

def step : CanTrace → CanEvent → Option CanTrace :=
  recorded CanBuses.step fun buses e _ ds k =>
    if unitIndex maxCanBuses e.1.1 = some k then (ds k).record (buses k) e.1.1 e.2 e.1.2
    else ds k

/-- Each callback has seen what it was to see, also on a bus closed since. -/
def Delivered (x : CanTrace) : Prop :=
  ∀ k, (x.1 k).rxCallback.isSome = true → (x.2 k).made = (x.2 k).due

/-- The event is a send that has something to deliver: of a valid message, on an open bus with a
callback, that an active filter matches or while none is active. -/
def Due (x : CanTrace) (e : CanEvent) : Prop :=
  ∃ k m, unitIndex maxCanBuses e.1.1 = some k ∧ e.1.2 = .send (some m) ∧ m.WellFormed ∧
    (x.1 k).initialized = true ∧ (x.1 k).rxCallback.isSome = true ∧
    ((x.1 k).Matched m ∨ ¬ (x.1 k).AnyActive)

end CanTrace

/-! ## One call -/

variable {bus bus' : CanBus} {c : CanCall} {r : Result} {d : CanDelivery} {busId : UInt8}

theorem CanBus.body_silent (hs : bus.Sound) (h : c.body bus = some (bus', r)) : r.invoked = [] := by
  cases c with
  | init config rxCb =>
    obtain ⟨-, rfl⟩ | ⟨cfg, -, -, -, -, rfl⟩ := init_cases h <;> rfl
  | addFilter filter =>
    obtain ⟨-, rfl, -⟩ | ⟨i, f, -, -, -, -, rfl⟩ := addFilter_cases h <;> rfl
  | removeFilter filterId =>
    obtain ⟨-, rfl⟩ | ⟨i, -, -, -, -, rfl⟩ := removeFilter_cases h <;> rfl
  | send msg =>
    obtain ⟨-, rfl, -⟩ | ⟨m, -, -, -, rfl, -⟩ := send_cases hs h <;> rfl
  | receive msg =>
    obtain ⟨-, rfl, -⟩ | ⟨-, -, ⟨-, -, rfl⟩ | ⟨m, -, -, -, rfl⟩⟩ := receive_cases hs h <;> rfl
  | close =>
    obtain ⟨-, rfl⟩ | ⟨-, -, rfl⟩ := close_cases h <;> rfl

namespace CanDelivery

theorem made_record (hs : bus.Sound) (h : c.body bus = some (bus', r)) (hd : d.made = []) :
    (d.record bus busId r c).made = [] := by
  have hsilent := CanBus.body_silent hs h
  unfold record
  split
  · split
    · rfl
    · simp [hd, hsilent]
  · simp [hd, hsilent]
  · simp [hd, hsilent]

theorem due_send_of_ret_ne {m : CanMessage} (h : r.ret ≠ 0) :
    (d.record bus busId r (.send (some m))).due = d.due := if_neg fun hp => h hp.1

/-- On a bus with a callback only a send of the kind `Due` describes adds to what is due; and
opening a bus starts from nothing. -/
theorem due_record (hs : bus.Sound) (h : c.body bus = some (bus', r))
    (hd : bus.rxCallback.isSome = true → d.due = [])
    (hdue : ∀ m, c = .send (some m) → m.WellFormed → bus.initialized = true →
      bus.rxCallback.isSome = true → bus.Matched m ∨ ¬ bus.AnyActive → False)
    (hcb : bus'.rxCallback.isSome = true) :
    (d.record bus busId r c).due = [] := by
  cases c with
  | init config rxCb =>
    obtain ⟨rfl, rfl⟩ | ⟨cfg, -, -, -, rfl, rfl⟩ := CanBus.init_cases h
    · exact hd hcb
    · rfl
  | addFilter filter =>
    obtain ⟨rfl, -⟩ | ⟨i, f, -, -, -, rfl, -⟩ := CanBus.addFilter_cases h <;> exact hd hcb
  | removeFilter filterId =>
    obtain ⟨rfl, -⟩ | ⟨i, -, -, -, rfl, -⟩ := CanBus.removeFilter_cases h <;> exact hd hcb
  | send msg =>
    obtain ⟨rfl, rfl, -⟩ | ⟨m, rfl, hm, ho, rfl, hsend⟩ := CanBus.send_cases hs h
    · cases msg with
      | none => exact hd hcb
      | some m =>
        rw [due_send_of_ret_ne (by decide)]
        exact hd hcb
    · have hcb' : bus.rxCallback.isSome = true := by
        obtain ⟨rfl, -⟩ | ⟨-, hc, -⟩ := hsend
        · exact hcb
        · exact hc
      exact (if_neg fun hp => hdue m rfl hm ho hcb' hp.2).trans (hd hcb')
  | receive msg =>
    obtain ⟨rfl, -⟩ | ⟨-, -, ⟨-, rfl, -⟩ | ⟨m, -, rfl, -⟩⟩ := CanBus.receive_cases hs h <;>
      exact hd hcb
  | close =>
    obtain ⟨rfl, -⟩ | ⟨-, rfl, -⟩ := CanBus.close_cases h <;> exact hd hcb

end CanDelivery

/-! ## Runs -/

namespace CanTrace

variable {x y : CanTrace} {e : CanEvent} {es : List CanEvent}

theorem step_cases (h : step x e = some y) (k : Fin maxCanBuses) :
    (unitIndex maxCanBuses e.1.1 = some k ∧ e.1.2.body (x.1 k) = some (y.1 k, e.2) ∧
      y.2 k = (x.2 k).record (x.1 k) e.1.1 e.2 e.1.2) ∨
    (unitIndex maxCanBuses e.1.1 ≠ some k ∧ y.1 k = x.1 k ∧ y.2 k = x.2 k) := by
  obtain ⟨hb, hrec⟩ := recorded_eq_some.mp h
  rw [CanBuses.step_eq] at hb
  rw [hrec]
  rcases Units.step_cases hb k with ⟨hk, hbody⟩ | ⟨hk, hbus⟩
  · exact .inl ⟨hk, hbody, if_pos hk⟩
  · exact .inr ⟨hk, hbus, if_neg hk⟩

theorem sound (h : exec step zero es = some x) (k : Fin maxCanBuses) : (x.1 k).Sound :=
  CanBus.Sound.of_exec (exec_recorded_fst h) k

theorem made_eq_nil (h : exec step zero es = some x) (k : Fin maxCanBuses) :
    (x.2 k).made = [] := by
  refine (exec_preserves (I := fun x => (x.1 k).Sound ∧ (x.2 k).made = [])
    (fun x e y hx hst => ?_) ⟨CanBus.sound_zero, rfl⟩ h).2
  rcases step_cases hst k with ⟨-, hbody, hrec⟩ | ⟨-, hbus, hrec⟩
  · rw [hrec]
    exact ⟨CanBus.body_sound hx.1 hbody, CanDelivery.made_record hx.1 hbody hx.2⟩
  · rw [hbus, hrec]
    exact hx

/-- Nothing is due on any bus with a callback. -/
def NoneDue (x : CanTrace) : Prop := ∀ k, (x.1 k).rxCallback.isSome = true → (x.2 k).due = []

theorem delivered_iff_noneDue (h : exec step zero es = some x) : x.Delivered ↔ x.NoneDue := by
  refine forall_congr' fun k => ?_
  rw [made_eq_nil h k]
  exact forall_congr' fun _ => eq_comm

theorem NoneDue.step (hx : x.NoneDue) (hs : ∀ k, (x.1 k).Sound) (hdue : ¬ x.Due e)
    (h : CanTrace.step x e = some y) : y.NoneDue := by
  intro k hcb
  rcases step_cases h k with ⟨hk, hbody, hrec⟩ | ⟨-, hbus, hrec⟩
  · rw [hrec]
    exact CanDelivery.due_record (hs k) hbody (hx k)
      (fun m hc hm ho hc' hp => hdue ⟨k, m, hk, hc, hm, ho, hc', hp⟩) hcb
  · rw [hbus] at hcb
    rw [hrec]
    exact hx k hcb

theorem Due.step (hdue : x.Due e) (hs : ∀ k, (x.1 k).Sound) (h : CanTrace.step x e = some y) :
    ¬ y.NoneDue := by
  obtain ⟨k, m, hk, hc, hm, ho, hcb, hp⟩ := hdue
  intro hy
  rcases step_cases h k with ⟨-, hbody, hrec⟩ | ⟨hne, -⟩
  · rw [hc] at hbody hrec
    obtain ⟨-, -, hbad⟩ | ⟨m', hm', -, -, hr, hsend⟩ := CanBus.send_cases (hs k) hbody
    · rcases hbad with hclosed | hinvalid
      · rw [ho] at hclosed
        cases hclosed
      · rw [isValidMessage_iff.mpr hm] at hinvalid
        cases hinvalid
    · have hstill : (y.1 k).rxCallback.isSome = true := by
        obtain ⟨hbus, -⟩ | ⟨hbus, -⟩ := hsend <;> rw [hbus] <;> exact hcb
      have hnil := hy k hstill
      rw [hrec, hr] at hnil
      have hsnoc : (x.2 k).due ++ [.canRx e.1.1 m] = [] := (if_pos ⟨rfl, hp⟩).symm.trans hnil
      exact absurd hsnoc (by simp)
  · exact hne hk

theorem noneDue (h : exec step zero es = some x) (hP : Along step (fun x e => ¬ x.Due e) zero es) :
    x.NoneDue := by
  refine exec_history (H := fun _ (x : CanTrace) => x.NoneDue) (fun k hcb => by cases hcb)
    (fun as x e y hA hx hi hst => ?_) hP h
  have hlast : ¬ x.Due e := along_iff.mp hA as e [] x rfl hx
  exact hi.step (sound hx) hlast hst

end CanTrace

/-- Every callback has seen, after each call of a run, what it was to see, exactly when no call of
the run is a send with something to deliver. -/
theorem can_delivery_iff {es : List CanEvent} {buses : CanBuses}
    (h : exec CanBuses.step .zero es = some buses) :
    (∀ pre post x, es = pre ++ post → exec CanTrace.step .zero pre = some x → x.Delivered) ↔
      Along CanTrace.step (fun x e => ¬ x.Due e) .zero es := by
  constructor
  · intro hall
    obtain ⟨ds, htrace⟩ : ∃ ds, exec CanTrace.step .zero es = some (buses, ds) :=
      exists_exec_recorded h
    refine along_of_forall_prefix htrace hall fun pre x e y hx hst _ hdel hdue => ?_
    have hy := exec_snoc_eq_some.mpr ⟨x, hx, hst⟩
    exact hdue.step (CanTrace.sound hx) hst ((CanTrace.delivered_iff_noneDue hy).mp hdel)
  · rintro hA pre post x rfl hx
    exact (CanTrace.delivered_iff_noneDue hx).mpr (CanTrace.noneDue hx hA.left)

theorem can_delivery_iff_opened : ∃ buses,
    exec CanBuses.step .zero [canOpened, canFilterAdded, canSent .zero] = some buses ∧
    ((∀ pre post x, [canOpened, canFilterAdded, canSent .zero] = pre ++ post →
        exec CanTrace.step .zero pre = some x → x.Delivered) ↔
      Along CanTrace.step (fun x e => ¬ x.Due e) .zero
        [canOpened, canFilterAdded, canSent .zero]) := by
  have hrun : (exec CanBuses.step .zero
      [canOpened, canFilterAdded, canSent .zero]).isSome = true := by
    decide
  obtain ⟨buses, h⟩ := Option.isSome_iff_exists.mp hrun
  exact ⟨buses, h, can_delivery_iff h⟩

/-- The message sent on a bus opened with a callback, no filter being active, never reaches it. -/
theorem can_callback_not_called : ∃ x : CanTrace,
    exec CanTrace.step .zero [canOpened, canSent .zero] = some x ∧
    x.2 0 = ⟨[], [.canRx 0 .zero]⟩ ∧ ¬ x.Delivered := by
  have hrun : (exec CanTrace.step .zero [canOpened, canSent .zero]).any (fun x => decide
      ((x.1 0).rxCallback.isSome = true ∧ x.2 0 = ⟨[], [.canRx 0 .zero]⟩)) = true := by
    decide
  obtain ⟨x, hx, hcb, hrec⟩ := exists_exec_of_any hrun
  refine ⟨x, hx, hrec, fun hdel => ?_⟩
  have hnone := hdel 0 hcb
  rw [hrec] at hnone
  cases hnone

end Simulith
