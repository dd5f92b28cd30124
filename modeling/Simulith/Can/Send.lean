import Simulith.Can.Queue

/-!
# What a CAN send does with a message

`simulith_can_send` computes whether an active filter lets the message pass,
but stores it on any bus with a callback, and returns 0 also when the buffer
is full. So the filters act as filters only where they would not reject
(`can_send_filters_iff`), and 0 means stored only where there is room
(`can_send_reports_iff`, `CanRun.accepted_eq`).
-/

namespace Simulith

open Lts

namespace CanBus

def AnyActive (bus : CanBus) : Prop := ∃ i, (bus.filters i).active = true

/-- Some active filter is for the message's frame type and agrees with its id under the mask. -/
def Matched (bus : CanBus) (m : CanMessage) : Prop :=
  ∃ i, (bus.filters i).active = true ∧ m.isExtended = (bus.filters i).filter.isExtended ∧
    m.id &&& (bus.filters i).filter.mask =
      (bus.filters i).filter.id &&& (bus.filters i).filter.mask

instance (bus : CanBus) : Decidable bus.AnyActive :=
  inferInstanceAs (Decidable (∃ _ : Fin canMaxFilters, _))

instance (bus : CanBus) (m : CanMessage) : Decidable (bus.Matched m) :=
  inferInstanceAs (Decidable (∃ _ : Fin canMaxFilters, _))

/-- Acceptance filtering, for a send that takes a bus from `bus` to `bus'`. -/
def Filtered (bus bus' : CanBus) (m : CanMessage) : Prop :=
  (bus.AnyActive → ¬ bus.Matched m →
    bus'.rxBuffer = bus.rxBuffer ∧ bus'.rxHead = bus.rxHead ∧ bus'.rxTail = bus.rxTail) ∧
  (bus.Matched m ∨ ¬ bus.AnyActive → bus.unread.length < 31 → bus'.unread = bus.unread ++ [m])

end CanBus

variable {buses : CanBuses} {k : Fin maxCanBuses} {busId : UInt8} {m : CanMessage}

theorem CanBus.Sound.of_exec {es : List CanEvent} (h : exec CanBuses.step .zero es = some buses)
    (k : Fin maxCanBuses) : (buses k).Sound := by
  obtain ⟨logs, hl⟩ := CanRun.exists_exec (s := .zero) h
  exact (CanRun.tracks hl k).sound

/-! ## Filters -/

/-- In every reachable state a valid message sent on an open bus with a callback is treated as
its filters ask exactly when none would keep it out, or there is no room for it. -/
theorem can_send_filters_iff {es : List CanEvent}
    (h : exec CanBuses.step .zero es = some buses) (hid : unitIndex maxCanBuses busId = some k)
    (hopen : (buses k).initialized = true) (hcb : (buses k).rxCallback.isSome = true)
    (hm : m.WellFormed) :
    ∃ buses' r, simulithCanSend busId buses (some m) = some (buses', r) ∧
      ((buses k).Filtered (buses' k) m ↔
        ¬ (buses k).AnyActive ∨ (buses k).Matched m ∨ (buses k).unread.length = 31) := by
  have hs := CanBus.Sound.of_exec h k
  by_cases hfull : (buses k).unread.length = 31
  · refine ⟨buses, _, hs.simulithCanSend_full hid hopen hm hfull, iff_of_true ?_ ?_⟩
    · exact ⟨fun _ _ => ⟨rfl, rfl, rfl⟩, fun _ hroom => by omega⟩
    · exact .inr (.inr hfull)
  · have hlt : (buses k).unread.length < 32 := hs.length_unread_lt
    have hroom : (buses k).unread.length < 31 := by omega
    refine ⟨_, _, hs.simulithCanSend_room hid hopen hcb hm hroom, ?_⟩
    rw [Function.update_self]
    constructor
    · intro hf
      by_contra hne
      simp only [not_or, not_not] at hne
      exact hs.head_push_ne m (hf.1 hne.1 hne.2.1).2.1
    · intro hc
      refine ⟨fun ha hnm => ?_, fun _ _ => hs.unread_push (hs.room_iff.mpr hroom) m⟩
      rcases hc with hna | hma | hful
      · exact absurd ha hna
      · exact absurd hma hnm
      · exact absurd hful hfull

/-- A filter for the standard id 0x123 added on bus 0. -/
def canFilterAdded : CanEvent := ((0, .addFilter (some ⟨0x123, 0x7FF, 0⟩)), .plain 0 .absent)

/-- A message that the filter of `canFilterAdded` matches. -/
def canMatching : CanMessage := { CanMessage.zero with id := 0x123 }

theorem can_send_filters_iff_matched : ∃ buses,
    exec CanBuses.step .zero [canOpened, canFilterAdded] = some buses ∧
    ∃ buses' r, simulithCanSend 0 buses (some canMatching) =
        some (buses', r) ∧
      ((buses 0).Filtered (buses' 0) canMatching ↔
        ¬ (buses 0).AnyActive ∨ (buses 0).Matched canMatching ∨
          (buses 0).unread.length = 31) := by
  have hrun : (exec CanBuses.step .zero [canOpened, canFilterAdded]).any (fun buses => decide
      ((buses 0).initialized = true ∧ (buses 0).rxCallback.isSome = true)) = true := by
    decide
  obtain ⟨buses, hb, hopen, hcb⟩ := exists_exec_of_any hrun
  exact ⟨buses, hb, can_send_filters_iff hb rfl hopen hcb (isValidMessage_iff.mp (by decide))⟩

/-- The only active filter is for another id, and the message is stored and received. -/
theorem can_filter_bypassed : ∃ buses,
    exec CanBuses.step .zero [canOpened, canFilterAdded] = some buses ∧
    (buses 0).AnyActive ∧ ¬ (buses 0).Matched .zero ∧
    (∃ buses' r, simulithCanSend 0 buses (some .zero) = some (buses', r) ∧
      ¬ (buses 0).Filtered (buses' 0) .zero) ∧
    (exec CanBuses.step buses [canSent .zero, canReceived .zero]).isSome = true := by
  have hrun : (exec CanBuses.step .zero [canOpened, canFilterAdded]).any (fun buses => decide
      ((buses 0).AnyActive ∧ ¬ (buses 0).Matched .zero ∧
        (simulithCanSend 0 buses (some .zero)).any
          (fun u => decide ((u.1 0).rxHead ≠ (buses 0).rxHead)) = true ∧
        (exec CanBuses.step buses [canSent .zero, canReceived .zero]).isSome = true)) = true := by
    decide
  obtain ⟨buses, hb, ha, hnm, hsend, hrecv⟩ := exists_exec_of_any hrun
  obtain ⟨u, hu, hne⟩ := (Option.any_eq_true _ _).mp hsend
  exact ⟨buses, hb, ha, hnm, ⟨u.1, u.2, hu, fun hf => of_decide_eq_true hne (hf.1 ha hnm).2.1⟩,
    hrecv⟩

/-! ## The return value -/

/-- A send on bus `k` returns 0 exactly when it has appended its message, else -1 and the buses
are unchanged. -/
def CanBuses.Reported (buses buses' : CanBuses) (k : Fin maxCanBuses) (m : CanMessage)
    (r : Result) : Prop :=
  (r.ret = 0 ↔ (buses' k).unread = (buses k).unread ++ [m]) ∧
  ((buses' k).unread ≠ (buses k).unread ++ [m] → r.ret = -1 ∧ buses' = buses)

theorem CanBus.Sound.reported_iff (hs : (buses k).Sound)
    (hid : unitIndex maxCanBuses busId = some k) (hopen : (buses k).initialized = true)
    (hcb : (buses k).rxCallback.isSome = true) (hm : m.WellFormed) :
    ∃ buses' r, simulithCanSend busId buses (some m) = some (buses', r) ∧
      (buses.Reported buses' k m r ↔ (buses k).unread.length < 31) := by
  by_cases hroom : (buses k).unread.length < 31
  · refine ⟨_, _, hs.simulithCanSend_room hid hopen hcb hm hroom, iff_of_true ?_ hroom⟩
    have hu := hs.unread_push (hs.room_iff.mpr hroom) m
    rw [CanBuses.Reported, Function.update_self]
    exact ⟨iff_of_true rfl hu, fun hne => absurd hu hne⟩
  · have hlt : (buses k).unread.length < 32 := hs.length_unread_lt
    have hfull : (buses k).unread.length = 31 := by omega
    refine ⟨buses, _, hs.simulithCanSend_full hid hopen hm hfull, iff_of_false ?_ hroom⟩
    intro hr
    have hlen := congrArg List.length (hr.1.mp rfl)
    simp at hlen

namespace CanRun

/-- The event is not a send that finds its bus full. -/
def Roomy (s : CanRun) (e : CanEvent) : Prop :=
  ∀ k m, unitIndex maxCanBuses e.1.1 = some k → e.1.2 = .send (some m) → m.WellFormed →
    (s.buses k).initialized = true → (s.buses k).rxCallback.isSome = true →
    (s.buses k).unread.length < 31

/-- What send has accepted on an open bus with a callback is what it has stored. -/
def Honest (bus : CanBus) (log : CanLog) : Prop :=
  bus.initialized = true → bus.rxCallback.isSome = true → log.accepted = log.stored

variable {bus bus' : CanBus} {log : CanLog} {r : Result} {c : CanCall}

theorem Honest.record (hs : bus.Sound) (hh : Honest bus log) (h : c.body bus = some (bus', r))
    (hroom : ∀ m, c = .send (some m) → m.WellFormed → bus.initialized = true →
      bus.rxCallback.isSome = true → bus.unread.length < 31) :
    Honest bus' (log.record bus bus' r c) := by
  intro hopen hcb
  cases c with
  | init config rxCb =>
    obtain ⟨rfl, rfl⟩ | ⟨cfg, -, -, -, rfl, rfl⟩ := CanBus.init_cases h
    · exact hh hopen hcb
    · rfl
  | addFilter filter =>
    obtain ⟨rfl, -⟩ | ⟨i, f, -, -, -, rfl, -⟩ := CanBus.addFilter_cases h <;> exact hh hopen hcb
  | removeFilter filterId =>
    obtain ⟨rfl, -⟩ | ⟨i, -, -, -, rfl, -⟩ := CanBus.removeFilter_cases h <;> exact hh hopen hcb
  | send msg =>
    obtain ⟨rfl, rfl, -⟩ | ⟨m, rfl, hm, ho, rfl, ⟨rfl, hfull⟩ | ⟨rfl, hc, -⟩⟩ :=
      CanBus.send_cases hs h
    · cases msg with
      | none => exact hh hopen hcb
      | some m => simpa [CanLog.record, Result.fail, Result.plain] using hh hopen hcb
    · -- the message was dropped, so its bus was full
      have hlt := hroom m rfl hm hopen hcb
      rcases hfull with hnone | hfull
      · rw [hnone] at hcb
        cases hcb
      · have := hs.full_iff.mp hfull
        omega
    · rw [CanLog.record, if_pos (hs.head_push_ne m)]
      change log.accepted ++ [m] = log.stored ++ [m]
      rw [hh ho hc]
  | receive msg =>
    obtain ⟨rfl, rfl, -⟩ | ⟨-, -, ⟨-, rfl, rfl⟩ | ⟨m, -, rfl, -, rfl⟩⟩ :=
      CanBus.receive_cases hs h <;> exact hh hopen hcb
  | close =>
    obtain ⟨rfl, -⟩ | ⟨-, rfl, -⟩ := CanBus.close_cases h
    · exact hh hopen hcb
    · cases hopen

theorem honest {s : CanRun} {es : List CanEvent} (h : exec step zero es = some s)
    (hP : Along step Roomy zero es) (k : Fin maxCanBuses) : Honest (s.buses k) (s.logs k) := by
  have hinv : Tracks (s.buses k) (s.logs k) ∧ Honest (s.buses k) (s.logs k) := by
    refine exec_invariant
      (I := fun s => Tracks (s.buses k) (s.logs k) ∧ Honest (s.buses k) (s.logs k))
      (fun s e t hi hroom hst => ?_) ⟨tracks_zero, fun _ _ => rfl⟩ hP h
    obtain ⟨ht, hh⟩ := hi
    rcases step_cases hst k with ⟨hid, hbody, hlog⟩ | ⟨-, hbus, hlog⟩
    · rw [hlog]
      exact ⟨ht.record hbody, hh.record ht.sound hbody fun m => hroom k m hid⟩
    · rw [hbus, hlog]
      exact ⟨ht, hh⟩
  exact hinv.2

/-- In a run whose sends all find room, what send has accepted on a bus since it was opened is
what receive has returned followed by what is unread. -/
theorem accepted_eq {s : CanRun} {es : List CanEvent} (h : exec step zero es = some s)
    (hP : Along step Roomy zero es) {k : Fin maxCanBuses}
    (hopen : (s.buses k).initialized = true) (hcb : (s.buses k).rxCallback.isSome = true) :
    (s.logs k).accepted = (s.logs k).returned ++ (s.buses k).unread :=
  (honest h hP k hopen hcb).trans (tracks h k).stored_eq

end CanRun

/-- A send reports the truth exactly when there is room for its message; and a run whose sends
all find room, on a bus that is drained in the end, returns each accepted message once. -/
theorem can_send_reports_iff {es : List CanEvent} {s : CanRun}
    (h : exec CanRun.step .zero es = some s) (hopen : (s.buses k).initialized = true)
    (hcb : (s.buses k).rxCallback.isSome = true) :
    (∀ busId m, unitIndex maxCanBuses busId = some k → m.WellFormed → (s.buses k).Matched m →
      ∃ buses' r, simulithCanSend busId s.buses (some m) = some (buses', r) ∧
        (s.buses.Reported buses' k m r ↔ (s.buses k).unread.length < 31)) ∧
    (Along CanRun.step CanRun.Roomy .zero es →
      (s.logs k).returned <+: (s.logs k).accepted ∧
        ((s.buses k).unread = [] → (s.logs k).returned = (s.logs k).accepted)) := by
  have hs := (CanRun.tracks h k).sound
  refine ⟨fun busId m hid hm _ => hs.reported_iff hid hopen hcb hm, fun hP => ?_⟩
  have ha := CanRun.accepted_eq h hP hopen hcb
  refine ⟨⟨_, ha.symm⟩, fun hdrained => ?_⟩
  rw [ha, hdrained, List.append_nil]

theorem can_send_reports_iff_sent : ∃ s : CanRun,
    exec CanRun.step .zero [canOpened, canFilterAdded, canSent canMatching] = some s ∧
    (∀ busId m, unitIndex maxCanBuses busId = some 0 → m.WellFormed → (s.buses 0).Matched m →
      ∃ buses' r, simulithCanSend busId s.buses (some m) = some (buses', r) ∧
        (s.buses.Reported buses' 0 m r ↔ (s.buses 0).unread.length < 31)) ∧
    (Along CanRun.step CanRun.Roomy .zero [canOpened, canFilterAdded, canSent canMatching] →
      (s.logs 0).returned <+: (s.logs 0).accepted ∧
        ((s.buses 0).unread = [] → (s.logs 0).returned = (s.logs 0).accepted)) := by
  have hrun : (exec CanRun.step .zero [canOpened, canFilterAdded, canSent canMatching]).any
      (fun s => decide
        ((s.buses 0).initialized = true ∧ (s.buses 0).rxCallback.isSome = true)) = true := by
    decide
  obtain ⟨s, hs, hopen, hcb⟩ := exists_exec_of_any hrun
  exact ⟨s, hs, can_send_reports_iff hs hopen hcb⟩

/-- With 31 messages unread, one that the filter matches is answered with 0 and lost. -/
theorem can_send_lost : ∃ buses,
    exec CanBuses.step .zero
      (canOpened :: canFilterAdded :: List.replicate 31 (canSent canMatching)) = some buses ∧
    (buses 0).Matched canMatching ∧
    ∃ r, simulithCanSend 0 buses (some canMatching) = some (buses, r) ∧
      ¬ buses.Reported buses 0 canMatching r := by
  have hrun : (exec CanBuses.step .zero
      (canOpened :: canFilterAdded :: List.replicate 31 (canSent canMatching))).any
      (fun buses => decide ((buses 0).initialized = true ∧ (buses 0).Matched canMatching ∧
        (buses 0).unread.length = 31)) = true := by
    decide
  obtain ⟨buses, hb, hopen, hma, hfull⟩ := exists_exec_of_any hrun
  have hs := CanBus.Sound.of_exec hb 0
  refine ⟨buses, hb, hma, _,
    hs.simulithCanSend_full rfl hopen (isValidMessage_iff.mp (by decide)) hfull, fun hr => ?_⟩
  have hlen := congrArg List.length (hr.1.mp rfl)
  simp at hlen

end Simulith
