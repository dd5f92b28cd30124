import Simulith.Can.Bus
import Simulith.Driver.Units

/-!
# The receive buffer as a queue

A run of `CanBuses.step` is a sequence of calls with the results they gave.
`CanRun` carries, beside the buses, what has passed through each of them since
it was last opened. `Tracks` ties the two together: what was stored is what
was returned followed by what is unread, so the circular buffer of every bus
is a bounded first-in-first-out queue (`can_rx_fifo`).
-/

namespace Simulith

open Lts

/-- A bus number and a call, with the result. -/
abbrev CanEvent := (UInt8 × CanCall) × Result

def CanBuses.step : CanBuses → CanEvent → Option CanBuses :=
  answer fun buses c => c.2.run c.1 buses

namespace CanBuses

/-- The calls of a run that name bus `k`. -/
def on (k : Fin maxCanBuses) (es : List CanEvent) : List CanEvent :=
  Units.on (fun c : UInt8 × CanCall => unitIndex maxCanBuses c.1) k es

theorem step_eq : step = Units.step (fun c => unitIndex maxCanBuses c.1) (fun c => .fail c.2.out)
    fun c => c.2.body := by
  funext buses e
  simp only [step, Units.step, CanCall.run_eq]

end CanBuses

/-- What has passed through a bus since it was last opened. -/
structure CanLog where
  /-- The messages for which send returned 0. -/
  accepted : List CanMessage
  /-- The messages for which send moved `rx_head`. -/
  stored : List CanMessage
  /-- The messages receive handed out. -/
  returned : List CanMessage

namespace CanLog

def empty : CanLog := ⟨[], [], []⟩

def record (bus bus' : CanBus) (r : Result) (log : CanLog) : CanCall → CanLog
  | .init _ _ => if r.ret = 0 then empty else log
  | .send (some m) => { log with
      accepted := if r.ret = 0 then log.accepted ++ [m] else log.accepted
      stored := if bus'.rxHead ≠ bus.rxHead then log.stored ++ [m] else log.stored }
  | .receive _ =>
    match r.ret, r.out with
    | 1, .frame m => { log with returned := log.returned ++ [m] }
    | _, _ => log
  | _ => log

end CanLog

/-- The buses, and the log of each. -/
structure CanRun where
  buses : CanBuses
  logs : Fin maxCanBuses → CanLog

namespace CanRun

def zero : CanRun := ⟨.zero, fun _ => .empty⟩

def step (s : CanRun) (e : CanEvent) : Option CanRun :=
  (s.buses.step e).map fun buses => ⟨buses, fun k =>
    if unitIndex maxCanBuses e.1.1 = some k then
      (s.logs k).record (s.buses k) (buses k) e.2 e.1.2
    else s.logs k⟩

/-- The logs do not restrict the runs of the driver. -/
theorem exists_exec {s : CanRun} {es : List CanEvent} {buses : CanBuses}
    (h : exec CanBuses.step s.buses es = some buses) :
    ∃ logs, exec step s es = some ⟨buses, logs⟩ := by
  induction es generalizing s with
  | nil =>
    cases h
    exact ⟨s.logs, rfl⟩
  | cons e es ih =>
    obtain ⟨b, hb, h⟩ := exec_cons_eq_some.mp h
    have hs : ∃ logs, step s e = some ⟨b, logs⟩ := by
      simp only [step, hb, Option.map_some, Option.some.injEq, CanRun.mk.injEq, true_and,
        exists_eq']
    obtain ⟨logs, hs⟩ := hs
    obtain ⟨logs', h'⟩ := ih (s := ⟨b, logs⟩) h
    exact ⟨logs', exec_cons_eq_some.mpr ⟨_, hs, h'⟩⟩

end CanRun

/-! ## What a call does to the log -/

/-- The log fits the bus. -/
structure Tracks (bus : CanBus) (log : CanLog) : Prop where
  sound : bus.Sound
  stored_eq : log.stored = log.returned ++ bus.unread
  wellFormed : ∀ m ∈ log.stored, m.WellFormed

variable {bus bus' : CanBus} {log : CanLog} {r : Result} {c : CanCall}

theorem tracks_zero : Tracks .zero .empty := ⟨CanBus.sound_zero, rfl, by simp [CanLog.empty]⟩

theorem CanBus.Sound.head_push_ne (hs : bus.Sound) (m : CanMessage) :
    (bus.push hs.head_lt m).rxHead ≠ bus.rxHead := by
  have hslots : 1 < canRxSlots := by decide
  change (bus.rxHead + 1) % canRxSlots ≠ bus.rxHead
  rw [Ring.succ_mod hs.head_lt]
  split <;> omega

/-- A call opens the bus afresh, stores a message, hands one out, or does neither. -/
theorem CanLog.record_cases (hs : bus.Sound) (h : c.body bus = some (bus', r)) (log : CanLog) :
    (bus'.unread = [] ∧ log.record bus bus' r c = .empty) ∨
      (∃ m, m.WellFormed ∧ bus'.unread = bus.unread ++ [m] ∧
        (log.record bus bus' r c).stored = log.stored ++ [m] ∧
        (log.record bus bus' r c).returned = log.returned) ∨
      (∃ m, bus.unread = m :: bus'.unread ∧
        (log.record bus bus' r c).stored = log.stored ∧
        (log.record bus bus' r c).returned = log.returned ++ [m]) ∨
      (bus'.unread = bus.unread ∧ (log.record bus bus' r c).stored = log.stored ∧
        (log.record bus bus' r c).returned = log.returned) := by
  cases c with
  | init config rxCb =>
    obtain ⟨rfl, rfl⟩ | ⟨cfg, -, -, -, rfl, rfl⟩ := CanBus.init_cases h
    · exact .inr (.inr (.inr ⟨rfl, rfl, rfl⟩))
    · exact .inl ⟨rfl, rfl⟩
  | addFilter filter =>
    refine .inr (.inr (.inr ⟨?_, rfl, rfl⟩))
    obtain ⟨rfl, -⟩ | ⟨i, f, -, -, -, rfl, -⟩ := CanBus.addFilter_cases h <;> rfl
  | removeFilter filterId =>
    refine .inr (.inr (.inr ⟨?_, rfl, rfl⟩))
    obtain ⟨rfl, -⟩ | ⟨i, -, -, -, rfl, -⟩ := CanBus.removeFilter_cases h <;> rfl
  | send msg =>
    obtain ⟨rfl, -⟩ | ⟨m, rfl, hm, -, -, ⟨rfl, -⟩ | ⟨rfl, -, hroom⟩⟩ := CanBus.send_cases hs h
    · cases msg <;> simp [record]
    · simp [record]
    · refine .inr (.inl ⟨m, hm, hs.unread_push hroom m, ?_, rfl⟩)
      exact if_pos (hs.head_push_ne m)
  | receive msg =>
    obtain ⟨rfl, rfl, -⟩ | ⟨-, -, ⟨-, rfl, rfl⟩ | ⟨m, hu, rfl, -, rfl⟩⟩ := CanBus.receive_cases hs h
    · exact .inr (.inr (.inr ⟨rfl, rfl, rfl⟩))
    · exact .inr (.inr (.inr ⟨rfl, rfl, rfl⟩))
    · exact .inr (.inr (.inl ⟨m, hu, rfl, rfl⟩))
  | close =>
    refine .inr (.inr (.inr ⟨?_, rfl, rfl⟩))
    obtain ⟨rfl, -⟩ | ⟨-, rfl, -⟩ := CanBus.close_cases h <;> rfl

/-- The step lemma: each operation on a bus keeps its log. -/
theorem Tracks.record (ht : Tracks bus log) (h : c.body bus = some (bus', r)) :
    Tracks bus' (log.record bus bus' r c) := by
  obtain ⟨hu, hl⟩ | ⟨m, hm, hu, hst, hret⟩ | ⟨m, hu, hst, hret⟩ | ⟨hu, hst, hret⟩ :=
    CanLog.record_cases ht.sound h log
  · rw [hl]
    exact ⟨CanBus.body_sound ht.sound h, by rw [hu]; rfl, by simp [CanLog.empty]⟩
  · refine ⟨CanBus.body_sound ht.sound h, ?_, ?_⟩
    · rw [hst, hret, hu, ht.stored_eq, List.append_assoc]
    · rw [hst]
      exact List.forall_mem_append.mpr ⟨ht.wellFormed, by simpa using hm⟩
  · refine ⟨CanBus.body_sound ht.sound h, ?_, ?_⟩
    · rw [hst, hret, ht.stored_eq, hu, List.append_assoc, List.singleton_append]
    · rw [hst]
      exact ht.wellFormed
  · refine ⟨CanBus.body_sound ht.sound h, ?_, ?_⟩
    · rw [hst, hret, hu, ht.stored_eq]
    · rw [hst]
      exact ht.wellFormed

/-! ## Runs -/

namespace CanRun

theorem step_cases {s t : CanRun} {e : CanEvent} (h : step s e = some t) (k : Fin maxCanBuses) :
    (unitIndex maxCanBuses e.1.1 = some k ∧ e.1.2.body (s.buses k) = some (t.buses k, e.2) ∧
      t.logs k = (s.logs k).record (s.buses k) (t.buses k) e.2 e.1.2) ∨
    (unitIndex maxCanBuses e.1.1 ≠ some k ∧ t.buses k = s.buses k ∧ t.logs k = s.logs k) := by
  obtain ⟨buses, hb, rfl⟩ := Option.map_eq_some_iff.mp h
  rw [CanBuses.step_eq] at hb
  rcases Units.step_cases hb k with ⟨hk, hbody⟩ | ⟨hk, hbus⟩
  · exact .inl ⟨hk, hbody, if_pos hk⟩
  · exact .inr ⟨hk, hbus, if_neg hk⟩

theorem tracks {s : CanRun} {es : List CanEvent} (h : exec step zero es = some s)
    (k : Fin maxCanBuses) : Tracks (s.buses k) (s.logs k) := by
  refine exec_preserves (I := fun s => Tracks (s.buses k) (s.logs k)) (fun s e t ht hst => ?_)
    tracks_zero h
  rcases step_cases hst k with ⟨-, hbody, hlog⟩ | ⟨-, hbus, hlog⟩
  · rw [hlog]
    exact ht.record hbody
  · rw [hbus, hlog]
    exact ht

end CanRun

/-! ## The queue -/

/-- Bus `k` behaves as a bounded queue of what has been stored and not yet returned. -/
structure CanFifo (buses : CanBuses) (k : Fin maxCanBuses) (log : CanLog) : Prop where
  head_lt : (buses k).rxHead < 32
  tail_lt : (buses k).rxTail < 32
  returned_prefix : log.returned <+: log.stored
  unread_eq : (buses k).unread = log.stored.drop log.returned.length
  unread_le : (buses k).unread.length ≤ 31
  returned_wellFormed : ∀ m ∈ log.returned, m.WellFormed
  receive_drained : ∀ busId m, unitIndex maxCanBuses busId = some k → log.returned = log.stored →
    simulithCanReceive busId buses (some m) = some (buses, .plain 0 (.frame m))
  receive_next : ∀ busId m, unitIndex maxCanBuses busId = some k → log.returned ≠ log.stored →
    ∃ x buses', (buses k).unread = x :: (buses' k).unread ∧
      simulithCanReceive busId buses (some m) = some (buses', .plain 1 (.frame x))
  send_room : ∀ busId m, unitIndex maxCanBuses busId = some k → m.WellFormed →
    (buses k).unread.length < 31 →
    ∃ buses', simulithCanSend busId buses (some m) = some (buses', .plain 0 .absent) ∧
      (buses' k).unread = (buses k).unread ++ [m]
  send_full : ∀ busId msg, unitIndex maxCanBuses busId = some k →
    (buses k).unread.length = 31 → ∃ r, simulithCanSend busId buses msg = some (buses, r)
  send_invalid : ∀ busId msg, unitIndex maxCanBuses busId = some k →
    isValidMessage msg = false → simulithCanSend busId buses msg = some (buses, .fail .absent)

theorem Tracks.returned_eq_iff (ht : Tracks bus log) :
    log.returned = log.stored ↔ bus.rxHead = bus.rxTail := by
  rw [← ht.sound.unread_eq_nil_iff, ht.stored_eq, List.self_eq_append_right]

variable {buses : CanBuses} {k : Fin maxCanBuses} {busId : UInt8}

theorem Tracks.receive_drained (ht : Tracks (buses k) log)
    (hid : unitIndex maxCanBuses busId = some k) (hopen : (buses k).initialized = true)
    (he : log.returned = log.stored) (m : CanMessage) :
    simulithCanReceive busId buses (some m) = some (buses, .plain 0 (.frame m)) := by
  rw [simulithCanReceive, hid]
  exact access_eq_self (CanBus.receive_empty hopen (ht.returned_eq_iff.mp he))

theorem Tracks.receive_next (ht : Tracks (buses k) log)
    (hid : unitIndex maxCanBuses busId = some k) (hopen : (buses k).initialized = true)
    (hne : log.returned ≠ log.stored) (m : CanMessage) :
    ∃ x buses', (buses k).unread = x :: (buses' k).unread ∧
      simulithCanReceive busId buses (some m) = some (buses', .plain 1 (.frame x)) := by
  have hne' := mt ht.returned_eq_iff.mpr hne
  have hs := ht.sound
  refine ⟨(buses k).rxBuffer ⟨(buses k).rxTail, hs.tail_lt⟩,
    Function.update buses k (buses k).pop, ?_, ?_⟩
  · rw [Function.update_self]
    exact hs.unread_eq_cons hne'
  · rw [simulithCanReceive, hid]
    exact access_eq (CanBus.receive_some hs hopen hne')

theorem CanBus.Sound.simulithCanSend_room (hs : (buses k).Sound)
    (hid : unitIndex maxCanBuses busId = some k) (hopen : (buses k).initialized = true)
    (hcb : (buses k).rxCallback.isSome = true) {m : CanMessage} (hm : m.WellFormed)
    (hroom : (buses k).unread.length < 31) :
    simulithCanSend busId buses (some m) =
      some (Function.update buses k ((buses k).push hs.head_lt m), .plain 0 .absent) := by
  rw [simulithCanSend, hid]
  refine access_eq ?_
  rw [CanBus.send_valid hs hopen hm, if_pos ⟨hcb, hs.room_iff.mpr hroom⟩]

/-- A full buffer drops a valid message, and send returns 0 all the same. -/
theorem CanBus.Sound.simulithCanSend_full (hs : (buses k).Sound)
    (hid : unitIndex maxCanBuses busId = some k) (hopen : (buses k).initialized = true)
    {m : CanMessage} (hm : m.WellFormed) (hfull : (buses k).unread.length = 31) :
    simulithCanSend busId buses (some m) = some (buses, .plain 0 .absent) := by
  rw [simulithCanSend, hid]
  refine access_eq_self ?_
  rw [CanBus.send_valid hs hopen hm, if_neg fun h => h.2 (hs.full_iff.mpr hfull)]

theorem simulithCanSend_invalid (hid : unitIndex maxCanBuses busId = some k)
    {msg : Option CanMessage} (hv : isValidMessage msg = false) :
    simulithCanSend busId buses msg = some (buses, .fail .absent) := by
  rw [simulithCanSend, hid]
  exact access_eq_self (CanBus.send_invalid hv)

/-- In every reachable state, every bus that is open with a callback is a bounded queue. -/
theorem can_rx_fifo {es : List CanEvent} {s : CanRun} (h : exec CanRun.step .zero es = some s)
    (k : Fin maxCanBuses) (hopen : (s.buses k).initialized = true)
    (hcb : (s.buses k).rxCallback.isSome = true) : CanFifo s.buses k (s.logs k) := by
  have ht := CanRun.tracks h k
  have hs := ht.sound
  refine {
    head_lt := hs.head_lt
    tail_lt := hs.tail_lt
    returned_prefix := ⟨_, ht.stored_eq.symm⟩
    unread_eq := by rw [ht.stored_eq, List.drop_left]
    unread_le := Nat.le_of_lt_succ hs.length_unread_lt
    returned_wellFormed := fun m hm => ht.wellFormed m ?_
    receive_drained := fun busId m hid he => ht.receive_drained hid hopen he m
    receive_next := fun busId m hid hne => ht.receive_next hid hopen hne m
    send_room := fun busId m hid hm hroom => ⟨_, hs.simulithCanSend_room hid hopen hcb hm hroom, ?_⟩
    send_full := fun busId msg hid hfull => ?_
    send_invalid := fun busId msg hid hv => simulithCanSend_invalid hid hv }
  · rw [ht.stored_eq]
    exact List.mem_append_left _ hm
  · rw [Function.update_self]
    exact hs.unread_push (hs.room_iff.mpr hroom) m
  · cases hv : isValidMessage msg with
    | false => exact ⟨_, simulithCanSend_invalid hid hv⟩
    | true =>
      cases msg with
      | none => cases hv
      | some m => exact ⟨_, hs.simulithCanSend_full hid hopen (isValidMessage_iff.mp hv) hfull⟩

/-- Bus 0 opened with a callback. -/
def canOpened : CanEvent :=
  ((0, .init (some ⟨500000, 75, 1⟩) (some fun _ _ => 0)), .plain 0 .absent)

/-- A message sent on bus 0. -/
def canSent (m : CanMessage) : CanEvent := ((0, .send (some m)), .plain 0 .absent)

/-- A message received on bus 0. -/
def canReceived (m : CanMessage) : CanEvent := ((0, .receive (some .zero)), .plain 1 (.frame m))

/-- Two messages are sent, one is received, and a third is sent. -/
theorem can_rx_fifo_mixed :
    let m : CanMessage := { CanMessage.zero with id := 5 }
    ∃ s, exec CanRun.step .zero [canOpened, canSent .zero, canSent m, canReceived .zero,
        canSent .zero] = some s ∧
      (s.logs 0).stored = [.zero, m, .zero] ∧ (s.logs 0).returned = [.zero] ∧
      CanFifo s.buses 0 (s.logs 0) := by
  intro m
  have hrun : (exec CanRun.step .zero [canOpened, canSent .zero, canSent m, canReceived .zero,
      canSent .zero]).any (fun s => decide
      ((s.buses 0).initialized = true ∧ (s.buses 0).rxCallback.isSome = true ∧
        (s.logs 0).stored = [.zero, m, .zero] ∧ (s.logs 0).returned = [.zero])) = true := by
    decide
  obtain ⟨s, hs, hopen, hcb, hstored, hreturned⟩ := exists_exec_of_any hrun
  exact ⟨s, hs, hstored, hreturned, can_rx_fifo hs 0 hopen hcb⟩

end Simulith
